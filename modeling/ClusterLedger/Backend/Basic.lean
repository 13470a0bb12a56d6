import ClusterLedger.Attempt
import ClusterLedger.Target

/-!
# Storage of states

A backend keeps one document per target. Whoever changes a target holds its lock, and a backend
refuses to write for a lock that is not the one on record.
-/
namespace ClusterLedger.Backend

/-- What can be asked of a backend. -/
inductive Request where
  | acquire (target : String)
  | release (target : String) (lock : Lock)
  | load (target : String)
  | persist (target : String) (bytes : ByteArray) (lock : Lock)
  | delete (target : String) (lock : Lock)
  | list
  deriving DecidableEq

/-- What a request yields when it succeeds. -/
abbrev Request.Yield : Request → Type
  | acquire _ => Lock
  | load _ => ByteArray
  | list => List String
  | release _ _ | persist _ _ _ | delete _ _ => Unit

/-- The effects of a backend. -/
def effects : Effects where
  Request := Request
  Reply r := Result r.Yield

/-- Makes one request of a backend; its error ends the attempt. -/
def ask (r : Request) : Attempt effects r.Yield :=
  ExceptT.mk (Program.request (E := effects) r)

/-- Seconds after which the lock of another holder is taken to be left behind. -/
def staleAfter : Nat := 3600

/-- The error for a lock that someone else holds. -/
def heldBy (target : String) (lock : Lock) : Error :=
  .lock (.heldBy target lock)

/-- The error for a lock that is not the caller's any more. -/
def lost (target : String) : Option Lock → Error
  | some current => .lock (.takenOver target current)
  | none => .lock (.removed target)

/-- Refuses to go on unless the lock on record has the caller's token. -/
def verify (target : String) (lock : Lock) (current : Option Lock) : Result Unit :=
  if current.map Lock.token = some lock.token then .ok () else .error (lost target current)

end ClusterLedger.Backend
