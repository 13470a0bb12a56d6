/-!
# Bytes

The contents of files, objects and messages. They are compared as a whole.
-/
namespace ClusterLedger.Bytes

/-- Contents are equal when all their bytes are. -/
instance decidableEq : DecidableEq ByteArray :=
  ByteArray.instDecidableEq

end ClusterLedger.Bytes
