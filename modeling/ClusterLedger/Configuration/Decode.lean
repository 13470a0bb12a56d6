import ClusterLedger.Configuration.Basic
import ClusterLedger.Text.Blank
import ClusterLedger.Yaml.Basic

/-!
# Reading a configuration

A configuration is a mapping with the fields that are known, each at most once. Inside the storage
other fields are allowed and ignored. A text field of the configuration takes any scalar as it is
written; a text field of the storage takes texts only.
-/
namespace ClusterLedger.Configuration

/-! ## Fields -/

/-- The fields of a configuration. -/
def fieldNames : List String :=
  ["terraform_binary", "source_url", "backend", "lock_stale_after_secs", "terraform_env"]

/-- Adds a field, which must be a known one that is not there yet. -/
def addField? (fields : Dict Yaml) (entry : Yaml × Yaml) : Option (Dict Yaml) := do
  let name ← entry.1.text?
  if name ∈ fieldNames ∧ ¬fields.contains name then return fields.insert name entry.2 else none

/-- The fields of a mapping. -/
def fields? (entries : List (Yaml × Yaml)) : Option (Dict Yaml) :=
  entries.foldlM addField? {}

/-- Whether a value is said to be missing; a tag for what is missing has to stand before a word for
that. -/
def isMissing? : Yaml → Option Bool
  | .scalar none .plain s => some (Yaml.isNullWord s)
  | .scalar (some tag) .plain s =>
    if tag = Yaml.coreTag "null" then
      if s ≠ "" ∧ Yaml.isNullWord s then some true else none
    else some false
  | _ => some false

/-- A value that may be left out or said to be missing. -/
def optional? {α : Type} (read : Yaml → Option α) : Option Yaml → Option (Option α)
  | none => some none
  | some v => do if ← isMissing? v then return none else return some (← read v)

/-- A number of 64 bits: a plain scalar, or a block that is said to be an integer. -/
def number? : Yaml → Option Nat
  | .scalar tag style s =>
    if style = .plain ∨ (style = .literal ∧ tag = some (Yaml.coreTag "int")) then
      Yaml.unsigned? Text.wordLimit s
    else none
  | _ => none

/-- Adds a variable; the last value of a name counts. -/
def addVariable? (environment : Dict String) (entry : Yaml × Yaml) : Option (Dict String) := do
  return environment.insert (← entry.1.text?) (← entry.2.text?)

/-- Variables; there are none where nothing is written. -/
def environment? : Option Yaml → Option (Dict String)
  | none => some {}
  | some (.mapping _ entries) => entries.foldlM addVariable? {}
  | some v => if v.isNothing then some {} else none

/-! ## Storage -/

/-- The kinds of storage and their fields, in order. -/
def storageFields? : String → Option (List String)
  | "local" => some ["path"]
  | "remote" => some ["url", "prefix", "token"]
  | _ => none

mutual
/-- Whether a value can be kept: no scalar in it is a huge integer or does not fit its tag, and no tag
is one of an application. -/
def isTame : Yaml → Bool
  | .scalar tag style s => (Yaml.meaning? tag style s).any (· ≠ .hugeInteger)
  | .sequence tag items => !tag.any Yaml.isOwnTag && areTame items
  | .mapping tag entries => !tag.any Yaml.isOwnTag && entriesAreTame entries

def areTame : List Yaml → Bool
  | [] => true
  | v :: rest => isTame v && areTame rest

def entriesAreTame : List (Yaml × Yaml) → Bool
  | [] => true
  | (k, v) :: rest => isTame k && isTame v && entriesAreTame rest
end

/-- The field that a key names, by its name or its position: `none` is a key that names nothing, and
`some none` a field that is not known. -/
def namedField? (names : List String) : Yaml → Option (Option String)
  | .scalar tag style s => match Yaml.meaning? tag style s with
    | some (.text s) => some (if s ∈ names then some s else none)
    | some (.natural n) => some names[n]?
    | _ => none
  | _ => none

/-- Adds a field of the storage; a known one must not be there yet, others are ignored. -/
def addStorageField? (names : List String) (fields : Dict Yaml) (entry : Yaml × Yaml) :
    Option (Dict Yaml) := do
  match ← namedField? names entry.1 with
  | none => return fields
  | some name => if fields.contains name then none else return fields.insert name entry.2

/-- A text in the storage. -/
def storageText? : Yaml → Option String
  | .scalar tag style s => match Yaml.meaning? tag style s with
    | some (.text s) => some s
    | _ => none
  | _ => none

/-- A text in the storage that may be left out or missing. -/
def optionalStorageText? : Option Yaml → Option (Option String)
  | none => some none
  | some (.scalar tag style s) => match Yaml.meaning? tag style s with
    | some .missing => some none
    | some (.text s) => some (some s)
    | _ => none
  | some _ => none

/-- The storage of a kind with the given fields. -/
def storageOf? (kind : String) (fields : Dict Yaml) : Option Storage :=
  if kind = "local" then do
    return .folder (← storageText? (← fields.get? "path"))
  else do
    let url ← storageText? (← fields.get? "url")
    let path ← match fields.get? "prefix" with
      | some v => storageText? v
      | none => some ""
    return .remote url path (← optionalStorageText? (fields.get? "token"))

/-- Whether a key is the one that tells the kind of storage. -/
def isKindKey : Yaml → Bool
  | .scalar tag style s => Yaml.meaning? tag style s = some (.text "type")
  | _ => false

/-- How many collections may stand inside of each other in a storage. -/
def maxStorageDepth : Nat := 127

/-- A storage: a mapping with its kind and fields, or a sequence of the kind and the fields in
order. -/
def storageOfYaml? : Yaml → Option Storage
  | .mapping tag entries =>
    if tag.any Yaml.isOwnTag then none
    else match entries.filter fun e => isKindKey e.1 with
    | [(_, v)] => do
      let kind ← v.text?
      let names ← storageFields? kind
      let others := entries.filter fun e => ¬isKindKey e.1
      if entriesAreTame others then
        storageOf? kind (← others.foldlM (addStorageField? names) {})
      else none
    | _ => none
  | .sequence tag (v :: values) => do
    let kind ← v.text?
    let names ← storageFields? kind
    if ¬tag.any Yaml.isOwnTag ∧ values.length ≤ names.length ∧ areTame values then
      storageOf? kind (Dict.ofList (names.zip values))
    else none
  | _ => none

/-- A storage that is not nested too deeply. -/
def storage? (v : Yaml) : Option Storage :=
  if maxStorageDepth < v.depth then none else storageOfYaml? v

/-! ## The configuration -/

/-- The configuration of a mapping, with a default storage. -/
def ofEntries? (default : Storage) (entries : List (Yaml × Yaml)) : Option Configuration := do
  let fields ← fields? entries
  return {
    terraformBinary := ← optional? Yaml.text? (fields.get? "terraform_binary")
    sourceUrl := ← optional? Yaml.text? (fields.get? "source_url")
    storage := ← match fields.get? "backend" with
      | some v => storage? v
      | none => some default
    lockStaleAfter := ← optional? number? (fields.get? "lock_stale_after_secs")
    terraformVariables := ← environment? (fields.get? "terraform_env") }

/-- The configuration that a document describes, with a default storage; nothing is set where nothing
is written. -/
def ofYaml? (default : Storage) : Yaml → Option Configuration
  | .mapping _ entries => ofEntries? default entries
  | v => if v.isNothing then some { storage := default } else none

/-- The configuration that a text describes to a reader of YAML, with a default storage. -/
def read? (yaml : Yaml.Reader) (default : Storage) (s : String) : Option Configuration :=
  if Text.blank s then some { storage := default }
  else (yaml s).bind (ofYaml? default)

end ClusterLedger.Configuration
