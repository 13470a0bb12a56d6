import ClusterLedger.Store.Basic

/-!
# A store in memory

The objects are a finite map from keys. A listing shows the next part of every key that goes on
behind the folder; a part that is a folder for one key is a folder.
-/
namespace ClusterLedger.Store.Memory

/-- The objects of a store. -/
abbrev Objects := Dict ByteArray

/-- What the folder shows of a key. -/
def child? (folder key : String) : Option Listed :=
  match Text.after? folder key with
  | none | some "" => none
  | some rest => match Text.cut? '/' rest with
    | some (name, _) => some ⟨name, .folder⟩
    | none => some ⟨rest, .object⟩

/-- Adds a line to a listing that has each name once. -/
def noteChild (listing : Dict EntryKind) (line : Listed) : Dict EntryKind :=
  match line.kind with
  | .folder => listing.insert line.name .folder
  | .object => if listing.contains line.name then listing else listing.insert line.name .object

/-- The folder of a path, in increasing order of the names. -/
def list (objects : Objects) (path : String) : List Listed :=
  let lines := objects.keys.filterMap (child? (folderKey path))
  (lines.foldl noteChild {}).toList.map fun e => ⟨e.1, e.2⟩

/-- Answers a request and carries it out. -/
def answer : (r : Request) → Objects → effects.Reply r × Objects
  | .get key, objects => (.ok (objects.get? key), objects)
  | .put key bytes, objects => (.ok (), objects.insert key bytes)
  | .putIfAbsent key bytes, objects =>
    if objects.contains key then (.ok false, objects) else (.ok true, objects.insert key bytes)
  | .delete key, objects => (.ok (), objects.erase key)
  | .deleteIfMatches key expected, objects =>
    if objects.get? key = some expected then (.ok true, objects.erase key) else (.ok false, objects)
  | .list path, objects => (.ok (list objects path), objects)
  | .contains key, objects => (.ok (objects.contains key), objects)

end ClusterLedger.Store.Memory
