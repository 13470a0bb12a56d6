import ClusterLedger.Module.Provider
import ClusterLedger.Text.Affix

/-!
# Module names

The name of a module says what it is: `cluster-manager`, `cluster_<provider>_<name>` or
`node_<provider>_<cluster>_<hostname>`. Any other name is legal and has no kind.
-/
namespace ClusterLedger

/-- The role of a module. -/
inductive ModuleKind where
  | manager
  | cluster (provider : Provider)
  | node (provider : Provider)
  deriving DecidableEq, Repr

namespace ModuleName

/-- The name of the one cluster manager. -/
def manager : String := "cluster-manager"

/-- The name of the cluster `name` of a provider. -/
def cluster (provider : Provider) (name : String) : String :=
  "cluster_" ++ provider.slug ++ "_" ++ name

/-- The name of a node of a cluster. -/
def node (provider : Provider) (cluster hostname : String) : String :=
  "node_" ++ provider.slug ++ "_" ++ cluster ++ "_" ++ hostname

/-- The provider in `<provider>_<rest>` with a nonempty rest. -/
def provider? (s : String) : Option Provider :=
  Provider.all.find? fun p =>
    match (Text.after? p.slug s).bind (Text.after? "_") with
    | some rest => rest ≠ ""
    | none => false

/-- What a module is, by its name. -/
def kind? (name : String) : Option ModuleKind :=
  if name = manager then some .manager
  else match Text.after? "cluster_" name with
    | some rest => (provider? rest).map .cluster
    | none => ((Text.after? "node_" name).bind provider?).map .node

/-- Whether a name is that of a cluster. -/
def isCluster (name : String) : Bool :=
  match kind? name with
  | some (.cluster _) => true
  | _ => false

/-- Whether a name is that of a node. -/
def isNode (name : String) : Bool :=
  match kind? name with
  | some (.node _) => true
  | _ => false

/-- A name given as a path, without the path. -/
def ofPath (name : String) : String :=
  (Text.after? "module." name).getD name

end ModuleName

end ClusterLedger
