import ClusterLedger.Document.Graph

/-!
# Typed views

The record of a manager, a cluster or a node has a few text fields that matter here and any other
settings. A view names the fields; writing it puts the settings last, so that a setting of the same
name would win.
-/
namespace ClusterLedger

/-! ## Text fields of a record -/

namespace Record

/-- The first of the named fields, in the order of the record, that is no text. -/
def wrongField? (fields : List String) (r : Record) : Option (String × Json) :=
  r.toList.find? fun e => e.1 ∈ fields ∧ e.2.text? = none

/-- The texts of the named fields. -/
def texts (module : String) (r : Record) : List String → Except DocumentFault (List String)
  | [] => .ok []
  | field :: rest => match r.text? field with
    | some s => (texts module r rest).map (s :: ·)
    | none => .error (.missingField module field)

/-- The texts of the named fields of a module's record: a field of another type is reported first,
then a missing one. -/
def readTexts (module : String) (fields : List String) (r : Record) :
    Except DocumentFault (List String) :=
  match r.wrongField? fields with
  | some (_, v) => .error (.notText module v)
  | none => r.texts module fields

/-- The fields that are not named. -/
def others (fields : List String) (r : Record) : Settings :=
  r.filter fun k _ => k ∉ fields

/-- A record of text fields and settings. -/
def ofTexts (fields : List (String × String)) (settings : Settings) : Record :=
  (Dict.ofList (fields.map fun e => (e.1, Json.string e.2))).insertAll settings.toList

end Record

/-! ## The views -/

/-- A cluster manager. -/
structure ManagerView where
  source : String
  name : String
  settings : Settings
  deriving DecidableEq

/-- A cluster. -/
structure ClusterView where
  source : String
  name : String
  apiUrl : String
  settings : Settings
  deriving DecidableEq

/-- A node; `environment` is its reference to the cluster it joins. -/
structure NodeView where
  source : String
  hostname : String
  apiUrl : String
  environment : String
  settings : Settings
  deriving DecidableEq

namespace ManagerView

def fields : List String := ["source", "name"]

def toRecord (v : ManagerView) : Record :=
  .ofTexts [("source", v.source), ("name", v.name)] v.settings

/-- The view of a module's record. -/
def ofRecord (module : String) (r : Record) : Except DocumentFault ManagerView :=
  match r.readTexts module fields with
  | .ok [source, name] => .ok ⟨source, name, r.others fields⟩
  | .ok _ => .error (.missingField module "source")
  | .error f => .error f

end ManagerView

namespace ClusterView

def fields : List String := ["source", "name", "rancher_api_url"]

def toRecord (v : ClusterView) : Record :=
  .ofTexts [("source", v.source), ("name", v.name), ("rancher_api_url", v.apiUrl)] v.settings

/-- The view of a module's record. -/
def ofRecord (module : String) (r : Record) : Except DocumentFault ClusterView :=
  match r.readTexts module fields with
  | .ok [source, name, apiUrl] => .ok ⟨source, name, apiUrl, r.others fields⟩
  | .ok _ => .error (.missingField module "source")
  | .error f => .error f

end ClusterView

namespace NodeView

def fields : List String := ["source", "hostname", "rancher_api_url", Reference.environment]

def toRecord (v : NodeView) : Record :=
  .ofTexts [("source", v.source), ("hostname", v.hostname), ("rancher_api_url", v.apiUrl),
    (Reference.environment, v.environment)] v.settings

/-- The view of a module's record. -/
def ofRecord (module : String) (r : Record) : Except DocumentFault NodeView :=
  match r.readTexts module fields with
  | .ok [source, hostname, apiUrl, environment] =>
    .ok ⟨source, hostname, apiUrl, environment, r.others fields⟩
  | .ok _ => .error (.missingField module "source")
  | .error f => .error f

/-- The cluster module that a node joins. -/
def cluster? (v : NodeView) : Option String :=
  Reference.cluster? v.environment

end NodeView

namespace Document

/-- The view of a module, when there is such a module. -/
def view? {α : Type} (d : Document) (ofRecord : String → Record → Except DocumentFault α)
    (name : String) : Result (Option α) :=
  match d.module? name with
  | none => .ok none
  | some r => ((ofRecord name r).map some).mapError .document

/-- Puts a cluster under the name that it has by convention; another cluster module may not answer
to its name. -/
def addCluster (d : Document) (provider : Provider) (v : ClusterView) :
    Result (String × Document) :=
  let module := ModuleName.cluster provider v.name
  match (d.resolveCluster? v.name).filter (· ≠ module) with
  | some other => .error (.invalidInput (.clusterNameInUse v.name other))
  | none => (d.addRecord module (.ofFields v.toRecord)).map fun d => (module, d)

/-- Puts a node of a cluster under the name that it has by convention. -/
def addNode (d : Document) (provider : Provider) (cluster : String) (v : NodeView) :
    Result (String × Document) :=
  let module := ModuleName.node provider cluster v.hostname
  (d.addRecord module (.ofFields v.toRecord)).map fun d => (module, d)

end Document

end ClusterLedger
