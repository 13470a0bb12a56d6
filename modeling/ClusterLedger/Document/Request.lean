import ClusterLedger.Document.View
import ClusterLedger.Hostname
import ClusterLedger.Text.Blank

/-!
# Requests

A request is complete: it says everything that a new manager, cluster or set of nodes needs, and
applying it is a change of the document.
-/
namespace ClusterLedger

/-- A change of a document: what it reports, or why it failed, and the document afterwards. A change
that fails may have done a part of its work. -/
abbrev Change (α : Type) := Document → Result α × Document

/-- The change that an operation makes that either succeeds or leaves the document alone. -/
def Change.ofResult {α : Type} (f : Document → Result (α × Document)) : Change α := fun d =>
  match f d with
  | .ok (a, d') => (.ok a, d')
  | .error e => (.error e, d)

/-! ## Sources of modules -/

/-- Where the sources of modules are found. -/
structure Sources where
  baseUrl : String
  deriving DecidableEq, Repr

namespace Sources

/-- The sources below an address, which may end in slashes. -/
def ofUrl (url : String) : Sources :=
  ⟨Text.trimEnd '/' url⟩

/-- The sources unless configured otherwise. -/
def standard : Sources :=
  ofUrl "github.com/joyent/triton-kubernetes"

def template (s : Sources) (name : String) : String :=
  s.baseUrl ++ "//terraform/modules/" ++ name

def manager (s : Sources) (p : Provider) : String :=
  s.template (p.slug ++ "-rancher")

def cluster (s : Sources) (p : Provider) : String :=
  s.template (p.slug ++ "-rancher-k8s")

def node (s : Sources) (p : Provider) : String :=
  s.template (p.slug ++ "-rancher-k8s-host")

end Sources

/-! ## Checks -/

/-- The first of the fields that settings try to override. -/
def Settings.override? (settings : Settings) (fields : List String) : Option String :=
  fields.find? settings.contains

/-- Refuses settings that override one of the fields. -/
def Settings.check (settings : Settings) (fields : List String) : Result Unit :=
  match settings.override? fields with
  | some field => .error (.invalidInput (.reserved field))
  | none => .ok ()

/-- Names are joined by underscores into module names, so they have none themselves. -/
def isNameSegment (s : String) : Bool :=
  s ≠ "" ∧ s.toList.all fun c => Text.isAsciiAlphanumeric c || c = '-'

/-! ## The requests -/

/-- A cluster manager to create or replace. -/
structure ManagerRequest where
  name : String
  provider : Provider
  settings : Settings

/-- A cluster to add to a manager. -/
structure ClusterRequest where
  name : String
  provider : Provider
  settings : Settings

/-- Nodes to add to a cluster, which is given by its name or its module's name. -/
structure NodeRequest where
  cluster : String
  provider : Option Provider
  hostname : String
  count : Nat
  settings : Settings

/-- Sets the manager and reports its module. -/
def ManagerRequest.run (r : ManagerRequest) (sources : Sources) (d : Document) :
    Result (String × Document) := do
  if r.name = "" then throw (.invalidInput .emptyManagerName)
  r.settings.check ManagerView.fields
  let view : ManagerView := ⟨sources.manager r.provider, r.name, r.settings⟩
  let d ← d.setManager (.ofFields view.toRecord)
  return (ModuleName.manager, d)

def ManagerRequest.change (r : ManagerRequest) (sources : Sources) : Change String :=
  .ofResult (r.run sources)

/-- Adds the cluster and reports its module. -/
def ClusterRequest.run (r : ClusterRequest) (sources : Sources) (d : Document) :
    Result (String × Document) := do
  if ¬isNameSegment r.name then throw (.invalidInput (.clusterName r.name))
  if d.manager?.isNone then throw (.missing .manager)
  r.settings.check ClusterView.fields
  d.addCluster r.provider ⟨sources.cluster r.provider, r.name, Reference.managerApi, r.settings⟩

def ClusterRequest.change (r : ClusterRequest) (sources : Sources) : Change String :=
  .ofResult (r.run sources)

/-- What a request for nodes amounts to in a document. -/
structure NodePlan where
  module : String
  provider : Provider
  cluster : String
  existing : List String
  hostnames : List String
  settings : Settings

namespace NodeRequest

/-- The settings with the account fields of a cluster's record in place of their own. -/
def inherit (settings : Settings) (d : Document) (module : String) (provider : Provider) :
    Settings :=
  provider.credentialFields.foldl (fun settings field =>
    match d.get? ("module." ++ module ++ "." ++ field) with
    | some v => settings.insert field v
    | none => settings) settings

/-- Finds the cluster, names the nodes and settles their settings. -/
def plan (r : NodeRequest) (d : Document) : Result NodePlan := do
  if ¬isNameSegment r.hostname then throw (.invalidInput (.hostname r.hostname))
  if r.count = 0 then throw (.invalidInput .noNodes)
  r.settings.check NodeView.fields
  match d.resolveCluster? r.cluster with
  | none => throw (.missing (.cluster r.cluster))
  | some module => match ModuleName.kind? module with
    | some (.cluster provider) =>
      match r.provider.filter (· ≠ provider) with
      | some requested => throw (.invalidInput (.otherProvider r.cluster provider requested))
      | none =>
        let existing := d.hostnames module
        return {
          module, provider, existing
          cluster := (Text.after? (ModuleName.cluster provider "") module).getD module
          hostnames := Hostname.fresh existing r.hostname r.count
          settings := inherit r.settings d module provider }
    | _ => throw (.missing (.cluster r.cluster))

/-- A node of a plan. -/
def node (p : NodePlan) (sources : Sources) (hostname : String) : NodeView :=
  ⟨sources.node p.provider, hostname, Reference.managerApi, Reference.cluster p.module, p.settings⟩

/-- Adds one node after the other and stops at the first that is there already. -/
def addNodes (p : NodePlan) (sources : Sources) : List String → Change Unit
  | [], d => (.ok (), d)
  | hostname :: rest, d =>
    if hostname ∈ p.existing ∨ d.contains (ModuleName.node p.provider p.cluster hostname) then
      (.error (.collision (.node hostname p.cluster)), d)
    else match d.addNode p.provider p.cluster (node p sources hostname) with
      | .ok (_, d') => addNodes p sources rest d'
      | .error e => (.error e, d)

/-- Adds the nodes and reports their host names. -/
def change (r : NodeRequest) (sources : Sources) : Change (List String) := fun d =>
  match r.plan d with
  | .error e => (.error e, d)
  | .ok p => match addNodes p sources p.hostnames d with
    | (.ok (), d') => (.ok p.hostnames, d')
    | (.error e, d') => (.error e, d')

end NodeRequest

/-! ## Selections -/

namespace Document

/-- The module of a cluster. -/
def selectCluster (d : Document) (cluster : String) : Result (List String) :=
  match d.resolveCluster? cluster with
  | some module => .ok [module]
  | none => .error (.missing (.cluster cluster))

/-- The first of some modules whose record has a host name. -/
def hostModule? (d : Document) (modules : List String) (hostname : String) : Option String :=
  modules.find? fun name => d.getText ("module." ++ name ++ ".hostname") = hostname

/-- The modules of nodes of a cluster, one for each host name. -/
def selectNodes (d : Document) (cluster : String) (hostnames : List String) :
    Result (List String) :=
  match d.resolveCluster? cluster with
  | none => .error (.missing (.cluster cluster))
  | some module => hostnames.mapM fun hostname =>
    match d.hostModule? (d.nodes module) hostname with
    | some name => .ok name
    | none => .error (.missing (.node hostname cluster))

/-- The selected modules and, with a cluster, its nodes: each once, in increasing order. -/
def expandSelection (d : Document) (target : String) (names : List String) :
    Result (List String) := do
  if names = [] then throw (.invalidInput .nothingSelected)
  let groups ← names.mapM fun path =>
    let name := ModuleName.ofPath path
    if ¬d.contains name then .error (.missing (.module name target))
    else .ok (name :: if ModuleName.isCluster name then d.nodes name else [])
  return Dict.names groups.flatten

end Document

end ClusterLedger
