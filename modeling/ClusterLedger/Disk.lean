import ClusterLedger.Bytes
import ClusterLedger.Dict
import ClusterLedger.Program

/-!
# A disk

A tree of folders and files, and the operations on it that the storage of states needs. A place is
the list of the names on the way down to it; a way is such a list in which `..` leads up. Every
operation either fails with a cause and changes nothing, or succeeds; only folders can be made in
part.
-/
namespace ClusterLedger.Disk

/-- A file or a folder. -/
inductive Entry where
  | file (bytes : ByteArray)
  | folder (entries : List (String × Entry))
  deriving Inhabited

/-- Why an operation fails. -/
inductive Fault where
  | missing
  | alreadyThere
  | notAFolder
  | isAFolder
  | notEmpty
  | intoItself
  | notPermitted
  | nameTooLong
  | notAName
  | notAFile
  | notText
  deriving DecidableEq, Repr

/-- The cause in words. -/
def Fault.message : Fault → String
  | missing => "No such file or directory (os error 2)"
  | alreadyThere => "File exists (os error 17)"
  | notAFolder => "Not a directory (os error 20)"
  | isAFolder => "Is a directory (os error 21)"
  | notEmpty => "Directory not empty (os error 39)"
  | intoItself => "Invalid argument (os error 22)"
  | notPermitted => "Operation not permitted (os error 1)"
  | nameTooLong => "File name too long (os error 36)"
  | notAName => "file name contained an unexpected NUL byte"
  | notAFile => "the source path is neither a regular file nor a symlink to a regular file"
  | notText => "stream did not contain valid UTF-8"

/-- A name inside of the folder that a way leads to. -/
structure Location where
  folder : List String
  name : String
  deriving DecidableEq, Repr

/-- The way to a location. -/
def Location.way (l : Location) : List String :=
  l.folder ++ [l.name]

/-! ## Walking -/

/-- The place that a way leads to, if it can be followed. -/
def walk (here : List String) (name : String) : List String :=
  if name = ".." then here.dropLast else if name = "" ∨ name = "." then here else here ++ [name]

/-- The place that a way leads to from the top. -/
def placeOf (way : List String) : List String :=
  way.foldl walk []

/-- The place of a location. -/
def Location.place (l : Location) : List String :=
  placeOf l.folder ++ [l.name]

/-- Whether an entry can have a name: a NUL would end it, and a slash is between two names. -/
def isName (name : String) : Bool :=
  name.toList.all fun c => c ≠ '\x00' ∧ c ≠ '/'

/-- How many bytes a name may have. -/
def nameLimit : Nat := 255

/-- How many bytes a way takes, with a separator for each name. -/
def wayLength : List String → Nat
  | [] => 0
  | name :: rest => name.utf8ByteSize + 1 + wayLength rest

/-- How many bytes a way has to stay below. -/
def wayLimit : Nat := 4096

namespace Entry

/-- What stands at a place. -/
def at? : Entry → List String → Except Fault Entry
  | e, [] => .ok e
  | file _, _ :: _ => .error .notAFolder
  | folder entries, name :: rest => match Entries.get? name entries with
    | none => .error .missing
    | some e => e.at? rest

/-- One name further on a way, from a place that has to be a folder: `..` leads up, an empty name and
`.` stay, and any other name leads down, whether something stands there or not. -/
def step? (root : Entry) (here : List String) (name : String) : Except Fault (List String) :=
  match root.at? here with
  | .error f => .error f
  | .ok (file _) => .error .notAFolder
  | .ok (folder _) =>
    if name = ".." then .ok here.dropLast
    else if name = "" ∨ name = "." then .ok here
    else if nameLimit < name.utf8ByteSize then .error .nameTooLong
    else .ok (here ++ [name])

/-- Whether a way can be followed at all. -/
def check (way : List String) : Except Fault Unit :=
  if way.any fun name => ¬isName name then .error .notAName
  else if wayLimit ≤ wayLength way then .error .nameTooLong
  else .ok ()

/-- The place that a way leads to. -/
def follow? (root : Entry) (way : List String) : Except Fault (List String) :=
  match check way with
  | .ok () => way.foldlM root.step? []
  | .error f => .error f

/-- What stands at the end of a way. -/
def find? (root : Entry) (way : List String) : Except Fault Entry :=
  match root.follow? way with
  | .ok place => root.at? place
  | .error f => .error f

/-- The entries of the folder at the end of a way. -/
def folderAt? (root : Entry) (way : List String) : Except Fault (List (String × Entry)) :=
  match root.find? way with
  | .ok (folder entries) => .ok entries
  | .ok (file _) => .error .notAFolder
  | .error f => .error f

/-- What a location names: `none` when its folder has no such name. -/
def look? (root : Entry) (l : Location) : Except Fault (Option Entry) :=
  match root.follow? l.way with
  | .error f => .error f
  | .ok place => match root.at? place with
    | .ok e => .ok (some e)
    | .error .missing => .ok none
    | .error f => .error f

/-! ## Changing -/

/-- Changes the entries of the folder at a place; where there is none, nothing changes. -/
def change (f : List (String × Entry) → List (String × Entry)) : List String → Entry → Entry
  | [], folder entries => folder (f entries)
  | name :: rest, folder entries => match Entries.get? name entries with
    | some e => folder (Entries.insert name (e.change f rest) entries)
    | none => folder entries
  | _, file bytes => file bytes

/-- Changes the entries of the folder at the end of a way; where there is none, nothing changes. -/
def changeAt (root : Entry) (way : List String)
    (f : List (String × Entry) → List (String × Entry)) : Entry :=
  match root.follow? way with
  | .ok place => root.change f place
  | .error _ => root

/-- Puts an entry at a location. -/
def put (root : Entry) (l : Location) (e : Entry) : Entry :=
  root.changeAt l.folder (Entries.insert l.name e)

/-- Takes the entry at a location away. -/
def take (root : Entry) (l : Location) : Entry :=
  root.changeAt l.folder (Entries.erase l.name)

/-- Makes the folders on a way one after the other, from a place on. -/
def growFrom (root : Entry) (here : List String) : List String → Except Fault Unit × Entry
  | [] => (match root.at? here with
    | .ok (folder _) => .ok ()
    | .ok (file _) => .error .alreadyThere
    | .error f => .error f, root)
  | name :: rest => match root.step? here name with
    | .error f => (.error f, root)
    | .ok next => match root.at? next with
      | .error .missing =>
        (root.change (Entries.insert name (folder [])) here).growFrom next rest
      | _ => root.growFrom next rest

/-- Makes the folders on a way. -/
def grow (root : Entry) (way : List String) : Except Fault Unit × Entry :=
  match check way with
  | .ok () => root.growFrom [] way
  | .error f => (.error f, root)

end Entry

/-! ## Operations -/

/-- What can be asked of a disk. -/
inductive Request where
  | makeFolder (way : List String)
  | read (file : Location)
  | write (file : Location) (bytes : ByteArray)
  | link (existing new : Location)
  | rename (source target : Location)
  | copy (source target : Location)
  | removeFile (file : Location)
  | removeFolder (folder : Location)
  | probe (entry : Location)
  | names (way : List String)
  deriving DecidableEq

/-- What a request yields when it succeeds. `names` tells for each name whether it is a folder. -/
abbrev Request.Yield : Request → Type
  | read _ => ByteArray
  | probe _ => Bool
  | names _ => List (String × Bool)
  | _ => Unit

/-- The effects of a disk. -/
def effects : Effects where
  Request := Request
  Reply r := Except Fault r.Yield

/-- Writes a file, in place of a file of that name. -/
def write (root : Entry) (l : Location) (bytes : ByteArray) : Except Fault Entry :=
  match root.look? l with
  | .ok (some (.folder _)) => .error .isAFolder
  | .ok _ => .ok (root.put l (.file bytes))
  | .error f => .error f

/-- The bytes of a file. -/
def read (root : Entry) (l : Location) : Except Fault ByteArray :=
  match root.look? l with
  | .ok (some (.file bytes)) => .ok bytes
  | .ok (some (.folder _)) => .error .isAFolder
  | .ok none => .error .missing
  | .error f => .error f

/-- Gives a file a second name, which must be free. -/
def link (root : Entry) (existing new : Location) : Except Fault Entry :=
  match root.look? existing, root.look? new with
  | .error f, _ | _, .error f => .error f
  | .ok none, _ => .error .missing
  | _, .ok (some _) => .error .alreadyThere
  | .ok (some (.folder _)), .ok none => .error .notPermitted
  | .ok (some e), .ok none => .ok (root.put new e)

/-- Why an entry cannot stand in place of another one: a file may replace a file, and a folder an
empty folder. -/
def clash? : Entry → Option Entry → Option Fault
  | .file _, some (.folder _) => some .isAFolder
  | .folder _, some (.file _) => some .notAFolder
  | .folder _, some (.folder (_ :: _)) => some .notEmpty
  | _, _ => none

/-- Moves an entry. Neither a folder can be moved below itself, nor anything in place of a folder that
it stands in. -/
def rename (root : Entry) (source target : Location) : Except Fault Entry :=
  match root.look? source, root.look? target with
  | .error f, _ | _, .error f => .error f
  | .ok none, _ => .error .missing
  | .ok (some e), .ok found =>
    if source.place = target.place then .ok root
    else if source.place <+: target.place then .error .intoItself
    else if target.place <+: source.place then .error .notEmpty
    else match clash? e found with
      | some f => .error f
      | none =>
        .ok ((root.take source).change (Entries.insert target.name e) (placeOf target.folder))

/-- Removes a file. -/
def removeFile (root : Entry) (l : Location) : Except Fault Entry :=
  match root.look? l with
  | .ok (some (.file _)) => .ok (root.take l)
  | .ok (some (.folder _)) => .error .isAFolder
  | .ok none => .error .missing
  | .error f => .error f

/-- Removes an empty folder. -/
def removeFolder (root : Entry) (l : Location) : Except Fault Entry :=
  match root.look? l with
  | .ok (some (.folder [])) => .ok (root.take l)
  | .ok (some (.folder (_ :: _))) => .error .notEmpty
  | .ok (some (.file _)) => .error .notAFolder
  | .ok none => .error .missing
  | .error f => .error f

/-- Whether a location names something; a folder missing on the way there means it does not. -/
def probe (root : Entry) (l : Location) : Except Fault Bool :=
  match root.look? l with
  | .ok e => .ok e.isSome
  | .error .missing => .ok false
  | .error f => .error f

/-- Whether an entry is a folder. -/
def Entry.isFolder : Entry → Bool
  | folder _ => true
  | file _ => false

/-- The names in a folder, each once, in increasing order. -/
def names (root : Entry) (way : List String) : Except Fault (List (String × Bool)) :=
  (root.folderAt? way).map fun entries =>
    (Dict.ofList (entries.reverse.map fun e => (e.1, e.2.isFolder))).toList

/-- Copies the bytes of a file to another, which is written anew. -/
def copy (root : Entry) (source target : Location) : Except Fault Entry :=
  match read root source with
  | .ok bytes => write root target bytes
  | .error .isAFolder => .error .notAFile
  | .error f => .error f

/-- The new disk of an operation that yields nothing, or the old one. -/
def settle (root : Entry) : Except Fault Entry → Except Fault Unit × Entry
  | .ok next => (.ok (), next)
  | .error f => (.error f, root)

/-- Answers a request and carries it out. -/
def answer : (r : Request) → Entry → effects.Reply r × Entry
  | .makeFolder way, root => root.grow way
  | .read l, root => (read root l, root)
  | .write l bytes, root => settle root (write root l bytes)
  | .link existing new, root => settle root (link root existing new)
  | .rename source target, root => settle root (rename root source target)
  | .copy source target, root => settle root (copy root source target)
  | .removeFile l, root => settle root (removeFile root l)
  | .removeFolder l, root => settle root (removeFolder root l)
  | .probe l, root => (probe root l, root)
  | .names way, root => (names root way, root)

end ClusterLedger.Disk
