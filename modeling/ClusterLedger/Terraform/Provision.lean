import ClusterLedger.Provisioner
import ClusterLedger.Target
import ClusterLedger.Terraform.Basic

/-!
# Provisioning with terraform

Every run has a scratch directory of its own, which holds the document and nothing else before the
tool is initialised there, and which is removed whatever happens.
-/
namespace ClusterLedger.Terraform

/-- Leaves out `module.` in front as often as it stands there. -/
def bareName (target : String) : String :=
  String.ofList (strip target.toList)
where
  strip (cs : List Char) : List Char :=
    match h : Text.afterChars? "module.".toList cs with
    | some rest =>
      have : rest.length < cs.length := by
        rw [Text.afterChars?_eq_some.1 h, List.length_append]
        exact Nat.lt_add_of_pos_left (by decide)
      strip rest
    | none => cs
  termination_by cs.length

/-- The arguments that prepare a directory. -/
def initArguments : List String :=
  ["init", "-force-copy"]

/-- The arguments that make what the document describes. -/
def applyArguments : List String :=
  ["apply", "-auto-approve"]

/-- The arguments that destroy the targets, or everything without any. -/
def destroyArguments (targets : List String) : List String :=
  ["destroy", "-auto-approve"] ++ targets.map fun t => "-target=module." ++ bareName t

/-- Does something in a scratch directory, which is removed afterwards. -/
def inScratch {α : Type} (work : String → Use α) : Use α := do
  let directory ← ask .makeScratch
  let result ← ExceptT.lift (work directory).run
  let _ ← ExceptT.lift (Program.request (E := effects) (.removeScratch directory))
  ExceptT.mk (.done result)

/-- Prepares a directory that holds the document, and runs the tool there. -/
def realize (t : Terraform) (document : ByteArray) (arguments : List String) : Use Unit :=
  inScratch fun directory => do
    ask (.write directory Target.stateFile document)
    t.run directory initArguments
    t.run directory arguments

/-- The use of the tool for what is asked of the provisioner. -/
def use (t : Terraform) : Provisioner.Request → Use Unit
  | .apply document => t.realize document applyArguments
  | .destroy document targets => t.realize document (destroyArguments targets)

/-- Carries out what is asked of the provisioner; a fault is a failed provisioning. -/
def perform (t : Terraform) (r : Provisioner.Request) : Attempt effects Unit :=
  ExceptT.mk (do return Except.mapError (fun f => .applyFailed f.message) (← (t.use r).run))

end ClusterLedger.Terraform
