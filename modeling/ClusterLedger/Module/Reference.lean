import ClusterLedger.Text.Affix

/-!
# Deferred references

A record can refer to an output of another module. The reference stays a text; the tool that
realizes the document resolves it.
-/
namespace ClusterLedger.Reference

/-- The output of a cluster that nodes refer to, and the field in which they do. -/
def environment : String := "rancher_environment_id"

/-- Where modules reach the manager. -/
def managerApi : String :=
  "http://$\x7belement(module.cluster-manager.masters, 0)\x7d:8080"

/-- A reference to an output of a module. -/
def output (module name : String) : String :=
  "$\x7bmodule." ++ module ++ "." ++ name ++ "\x7d"

/-- The reference by which nodes join a cluster module. -/
def cluster (module : String) : String :=
  output module environment

/-- The cluster module that a reference joins. -/
def cluster? (reference : String) : Option String :=
  (Text.after? "$\x7bmodule." reference).bind fun s =>
  (Text.before? "\x7d" s).bind fun s =>
  (Text.before? environment s).bind fun s =>
  (Text.before? "." s).filter fun module => module ≠ "" ∧ '.' ∉ module.toList

end ClusterLedger.Reference
