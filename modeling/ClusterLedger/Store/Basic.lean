import ClusterLedger.Attempt

/-!
# Object stores

A store maps keys to bytes. Keys are paths, their parts separated by slashes, so the keys below a
path can be listed like a folder. What a store is, is said by what it answers.
-/
namespace ClusterLedger.Store

/-- What stands under a name in a listing. -/
inductive EntryKind where
  | object
  | folder
  deriving DecidableEq, Repr

/-- A line of a listing. -/
structure Listed where
  name : String
  kind : EntryKind
  deriving DecidableEq, Repr

/-- What can be asked of a store. -/
inductive Request where
  | get (key : String)
  | put (key : String) (bytes : ByteArray)
  | putIfAbsent (key : String) (bytes : ByteArray)
  | delete (key : String)
  | deleteIfMatches (key : String) (expected : ByteArray)
  | list (path : String)
  | contains (key : String)
  deriving DecidableEq

/-- What a request yields when it succeeds. -/
abbrev Request.Yield : Request → Type
  | get _ => Option ByteArray
  | put _ _ | delete _ => Unit
  | putIfAbsent _ _ | deleteIfMatches _ _ | contains _ => Bool
  | list _ => List Listed

/-- The effects of a store. -/
def effects : Effects where
  Request := Request
  Reply r := Result r.Yield

/-- Makes one request of a store; its error ends the attempt. -/
def ask (r : Request) : Attempt effects r.Yield :=
  ExceptT.mk (Program.request (E := effects) r)

/-- What the keys of the objects below a path begin with. -/
def folderKey (path : String) : String :=
  let name := Text.trimBoth '/' path
  if name = "" then "" else name ++ "/"

end ClusterLedger.Store
