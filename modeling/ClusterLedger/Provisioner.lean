import ClusterLedger.Attempt

/-!
# Provisioners

A provisioner makes the infrastructure that a document describes, or takes it down. How it does that
is its own business: here it is what it is asked, and whether it succeeded.
-/
namespace ClusterLedger.Provisioner

/-- What can be asked of a provisioner. Without targets everything is destroyed. -/
inductive Request where
  | apply (document : ByteArray)
  | destroy (document : ByteArray) (targets : List String)
  deriving DecidableEq

end ClusterLedger.Provisioner
