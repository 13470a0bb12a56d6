import ClusterLedger.Error

/-!
# The state document

A document holds the records of all modules of a target by name, and whatever else stands at its
top level. Adding a record replaces the record of that name as a whole.
-/
namespace ClusterLedger

/-- The fields of a module. -/
abbrev Record := Dict Json

/-- The fields of a module that nothing here looks at. -/
abbrev Settings := Dict Json

/-- The key of the module records. -/
def Document.moduleKey : String := "module"

/-- The description of everything that belongs to a target. -/
structure Document where
  modules : Dict Record
  extra : Dict Json
  extra_module : extra.get? Document.moduleKey = none

namespace Document

theorem ext {a b : Document} (hm : a.modules = b.modules) (he : a.extra = b.extra) : a = b := by
  cases a; cases b; cases hm; cases he; rfl

instance : DecidableEq Document := fun a b =>
  decidable_of_iff (a.modules = b.modules ∧ a.extra = b.extra)
    ⟨fun h => ext h.1 h.2, fun h => h ▸ ⟨rfl, rfl⟩⟩

/-- The document that describes nothing. -/
def empty : Document := ⟨Dict.empty, Dict.empty, rfl⟩

instance : Inhabited Document := ⟨empty⟩

/-! ## Changing modules -/

/-- The document with a record put in, whatever the name. -/
def put (d : Document) (name : String) (record : Record) : Document :=
  { d with modules := d.modules.insert name record }

/-- Puts a record under a name that may be given as a path; names have no dot. -/
def add (d : Document) (name : String) (record : Json) : Result Document :=
  let name := ModuleName.ofPath name
  if name = "" ∨ '.' ∈ name.toList then .error (.invalidInput (.moduleName name))
  else match record.fields? with
    | some fields => .ok (d.put name fields)
    | none => .error (.invalidInput (.recordNotObject name))

/-- Puts a value under a name when it can be the record of a module at all. -/
def addRecord (d : Document) (name : String) (record : Json) : Result Document :=
  match record.fields? with
  | some _ => d.add name record
  | none => .error (.invalidInput .notARecord)

/-- Puts the record of the manager. -/
def setManager (d : Document) (record : Json) : Result Document :=
  d.addRecord ModuleName.manager record

/-- Takes a module out whose name may be given as a path. -/
def remove (d : Document) (name : String) : Document :=
  { d with modules := d.modules.erase (ModuleName.ofPath name) }

/-- Takes several modules out. -/
def removeAll (d : Document) (names : List String) : Document :=
  names.foldl remove d

/-! ## Modules -/

/-- The record of a module. -/
def module? (d : Document) (name : String) : Option Record :=
  d.modules.get? name

def contains (d : Document) (name : String) : Bool :=
  d.modules.contains name

/-- The names of all modules in increasing order. -/
def moduleNames (d : Document) : List String :=
  d.modules.keys

/-- The record of the manager. -/
def manager? (d : Document) : Option Record :=
  d.module? ModuleName.manager

end Document

/-- A text field of a record. -/
def Record.text? (r : Record) (field : String) : Option String :=
  (r.get? field).bind Json.text?

end ClusterLedger
