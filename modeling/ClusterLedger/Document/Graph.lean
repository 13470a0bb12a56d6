import ClusterLedger.Document.Lookup
import ClusterLedger.Module.Reference

/-!
# Clusters and their nodes

Clusters are modules by their name; nodes join a cluster by a reference in their record.
-/
namespace ClusterLedger.Document

/-- The names of all cluster modules in increasing order. -/
def clusters (d : Document) : List String :=
  d.moduleNames.filter ModuleName.isCluster

/-- Whether a cluster module answers to a name: its own or the one in its record. -/
def answersTo (d : Document) (name module : String) : Bool :=
  module = name ∨ (d.module? module).bind (Record.text? · "name") = some name

/-- The first cluster module that answers to a name. -/
def resolveCluster? (d : Document) (name : String) : Option String :=
  d.clusters.find? (d.answersTo name)

/-- Whether an entry is a node that joins a cluster module. -/
def joins (module name : String) (record : Record) : Bool :=
  ModuleName.isNode name ∧ record.text? Reference.environment = some (Reference.cluster module)

/-- The names of the nodes that join a cluster module, in increasing order. -/
def nodes (d : Document) (module : String) : List String :=
  (d.modules.filter (joins module)).keys

/-- The host names of the nodes of a cluster module, each once, in increasing order. -/
def hostnames (d : Document) (module : String) : List String :=
  Dict.names ((d.nodes module).filterMap fun name =>
    (d.module? name).bind (Record.text? · "hostname"))

end ClusterLedger.Document
