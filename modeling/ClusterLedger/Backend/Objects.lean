import ClusterLedger.Backend.Basic
import ClusterLedger.Store.Basic

/-!
# States in an object store

The objects of a target are its document and its lock record. A lock is taken by writing the record
where there is none, and given up by removing exactly the bytes of that record.
-/
namespace ClusterLedger.Backend

/-- The place of the targets in a store. -/
structure Objects where
  path : String
  deriving DecidableEq, Repr

namespace Objects

/-- The targets below a path, which may have slashes around it. -/
def ofPath (path : String) : Objects :=
  ⟨Text.trimBoth '/' path⟩

/-- The key of a file of a target. -/
def keyOf (o : Objects) (target file : String) : String :=
  if o.path = "" then target ++ "/" ++ file else o.path ++ "/" ++ target ++ "/" ++ file

/-- The key of a file, if the target is one. -/
def key (o : Objects) (target file : String) : Result String :=
  (Target.check target).map fun _ => o.keyOf target file

/-- The lock record under a key, with the bytes that it was read from. -/
def readLock (key : String) : Attempt Store.effects (Option (ByteArray × Lock)) := do
  match ← Store.ask (.get key) with
  | none => return none
  | some bytes => match Lock.ofBytes? bytes with
    | some lock => return some (bytes, lock)
    | none => throw (.lock (.unreadableObject key (Lock.fault bytes)))

/-- What became of a try to take a lock: it is taken, or the record in its way is gone by now. -/
abbrev Try := Option Lock

/-- Tries to take a lock with a fresh record. A stale record that is in the way is removed, if it
may be. -/
def tryAcquire (target key : String) (caller : Caller) (fresh : Lock)
    (breaksAfter : Option Nat) : Attempt Store.effects Try := do
  if ← Store.ask (.putIfAbsent key fresh.toBytes) then return some fresh
  match ← readLock key with
  | none => return none
  | some (bytes, current) =>
    if breaksAfter.any (current.isStale caller.now) then
      let _ ← Store.ask (.deleteIfMatches key bytes)
      return none
    else throw (heldBy target current)

/-- Takes the lock of a target; only the first of two tries breaks a stale lock. -/
def acquire (o : Objects) (caller : Caller) (staleAfter : Nat) (target : String) :
    Attempt Store.effects Lock := do
  let key ← Attempt.ofResult (o.key target Target.lockFile)
  match ← tryAcquire target key caller (caller.lock 0) (some staleAfter) with
  | some lock => return lock
  | none => match ← tryAcquire target key caller (caller.lock 1) none with
    | some lock => return lock
    | none => throw (.lock (.exhausted target))

/-- Gives up a lock. -/
def release (o : Objects) (target : String) (lock : Lock) : Attempt Store.effects Unit := do
  let key ← Attempt.ofResult (o.key target Target.lockFile)
  unless ← Store.ask (.deleteIfMatches key lock.toBytes) do
    throw (lost target ((← readLock key).map (·.2)))

/-- Refuses to go on without the lock. -/
def guard (o : Objects) (target : String) (lock : Lock) : Attempt Store.effects Unit := do
  let key ← Attempt.ofResult (o.key target Target.lockFile)
  let current ← readLock key
  Attempt.ofResult (verify target lock (current.map (·.2)))

/-- The document of a target. -/
def load (o : Objects) (target : String) : Attempt Store.effects ByteArray := do
  let key ← Attempt.ofResult (o.key target Target.stateFile)
  match ← Store.ask (.get key) with
  | some bytes => return bytes
  | none => throw (.missing (.object target key))

/-- Writes the document of a target. -/
def persist (o : Objects) (target : String) (bytes : ByteArray) (lock : Lock) :
    Attempt Store.effects Unit := do
  o.guard target lock
  Store.ask (.put (o.keyOf target Target.stateFile) bytes)

/-- Removes the document of a target. -/
def delete (o : Objects) (target : String) (lock : Lock) : Attempt Store.effects Unit := do
  o.guard target lock
  Store.ask (.delete (o.keyOf target Target.stateFile))

/-- Whether a listed folder holds a document. -/
def holdsState (o : Objects) (name : String) : Attempt Store.effects Bool := do
  let key ← Attempt.ofResult (o.key name Target.stateFile)
  Store.ask (.contains key)

/-- The folders of a listing that hold a document. -/
def targets (o : Objects) : List Store.Listed → Attempt Store.effects (List String)
  | [] => return []
  | ⟨_, .object⟩ :: rest => o.targets rest
  | ⟨name, .folder⟩ :: rest => do
    let holds ← o.holdsState name
    let others ← o.targets rest
    return if holds then name :: others else others

/-- All targets in increasing order. -/
def list (o : Objects) : Attempt Store.effects (List String) := do
  let listing ← Store.ask (.list o.path)
  return (← o.targets listing).mergeSort

/-- Carries out what is asked of the backend. -/
def perform (o : Objects) (caller : Caller) (staleAfter : Nat) :
    (r : Request) → Attempt Store.effects r.Yield
  | .acquire target => o.acquire caller staleAfter target
  | .release target lock => o.release target lock
  | .load target => o.load target
  | .persist target bytes lock => o.persist target bytes lock
  | .delete target lock => o.delete target lock
  | .list => o.list

end Objects

end ClusterLedger.Backend
