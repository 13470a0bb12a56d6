import ClusterLedger.Document.Basic
import ClusterLedger.Json.Reader
import ClusterLedger.Json.Printer

/-!
# The stored form of a document

Bytes are read as JSON and written with sorted keys at every depth, indented by tabs, with a final
newline. The key of the module records is left out when there are none.
-/
namespace ClusterLedger.Document

/-! ## Reading -/

/-- The records of the members of the module object. -/
def records : List (String × Json) → Except DocumentFault (List (String × Record))
  | [] => .ok []
  | (name, v) :: rest => match v.fields? with
    | none => .error (.recordNotObject name)
    | some fields => (records rest).map ((name, fields) :: ·)

/-- The records of all modules of a top level. -/
def modulesOf (fields : Dict Json) : Except DocumentFault (Dict Record) :=
  match fields.get? moduleKey with
  | none => .ok Dict.empty
  | some v => match v.fields? with
    | none => .error .modulesNotObject
    | some members => (records members.toList).map Dict.ofList

/-- The document that a canonical value describes. -/
def ofJson (v : Json) : Except DocumentFault Document :=
  match v.fields? with
  | none => .error .notObject
  | some fields => (modulesOf fields).map fun modules =>
    ⟨modules, fields.erase moduleKey, by rw [Dict.get?_erase, if_pos rfl]⟩

/-- The document that stored bytes describe. -/
def load (bytes : ByteArray) : Result Document :=
  match Json.readBytes? bytes with
  | none => .error (.document .notJson)
  | some v => (ofJson v).mapError .document

/-! ## Writing -/

/-- The document as one value. -/
def toJson (d : Document) : Json :=
  if d.modules.isEmpty then .ofFields d.extra
  else .ofFields (d.extra.insert moduleKey (.ofFields (d.modules.mapValues fun _ => .ofFields)))

/-- The document as it is stored. -/
def text (d : Document) : String :=
  d.toJson.canonical.pretty "\t" ++ "\n"

def bytes (d : Document) : ByteArray :=
  d.text.toUTF8

end ClusterLedger.Document
