import ClusterLedger.Error
import ClusterLedger.Text.Blank

/-!
# Targets

A target is the name under which one document is stored. It is a single part of a path, so no
storage can be made to look outside of it.
-/
namespace ClusterLedger.Target

/-- Whether a text names a target. -/
def isValid (name : String) : Bool :=
  name ≠ "" ∧ name ≠ "." ∧ name ≠ ".." ∧
    name.toList.all fun c => c ≠ '/' ∧ c ≠ '\\' ∧ ¬Text.isControl c

/-- Refuses what names no target. -/
def check (name : String) : Result Unit :=
  if isValid name then .ok () else .error (.invalidTarget name)

/-- The file of the document inside a target. -/
def stateFile : String := "main.tf.json"

/-- The file of the lock record inside a target. -/
def lockFile : String := "lock.json"

end ClusterLedger.Target
