import ClusterLedger.Backend.Basic
import ClusterLedger.Document.Codec
import ClusterLedger.Document.Request
import ClusterLedger.Provisioner

/-!
# Runs

A run changes a target: it takes the lock, loads the document, changes it, has the change made by
the provisioner, and stores the new document. Nothing is stored before the provisioner succeeded,
and the lock is given up whatever happened.
-/
namespace ClusterLedger.Coordinator

/-- What a run asks of others. -/
inductive Call where
  | storage (r : Backend.Request)
  | provision (r : Provisioner.Request)
  deriving DecidableEq

/-- What a call yields when it succeeds. -/
abbrev Call.Yield : Call → Type
  | storage r => r.Yield
  | provision _ => Unit

/-- The effects of a run. -/
def effects : Effects where
  Request := Call
  Reply c := Result c.Yield

/-- Makes one call; its error ends the attempt. -/
def ask (c : Call) : Attempt effects c.Yield :=
  ExceptT.mk (Program.request (E := effects) c)

/-- What becomes of a target without a document. -/
inductive Mode where
  | createIfMissing
  | requireExisting
  deriving DecidableEq, Repr

/-- What a run leaves behind: the document as it is stored now, and what the change reported. -/
structure Outcome (α : Type) where
  document : Document
  value : α

variable {α : Type}

/-! ## Parts of a run -/

/-- The error of a provisioner as the failure of the run. -/
def applyFailure : Error → Error
  | .applyFailed reason => .applyFailed reason
  | e => .applyFailed e.message

/-- Keeps the error of the run and adds that of giving up the lock. -/
def settle (result : Result α) (released : Result Unit) : Result α :=
  match result, released with
  | .ok value, .ok () => .ok value
  | .ok _, .error e => .error e
  | .error e, .ok () => .error e
  | .error e, .error c => .error (.cleanup e c)

/-- The document that a load amounts to. -/
def loaded (mode : Mode) : Result ByteArray → Result Document
  | .ok bytes => Document.load bytes
  | .error e => if e.isMissing ∧ mode = .createIfMissing then .ok .empty else .error e

/-- The document of a target, read without its lock. -/
def load (target : String) (mode : Mode) : Attempt effects Document := do
  Attempt.ofResult (Target.check target)
  Attempt.ofResult (loaded mode (← (ask (.storage (.load target))).outcome))

/-- Has a change made; any error is the failure of the run. -/
def provision (r : Provisioner.Request) : Attempt effects Unit :=
  tryCatch (ask (.provision r)) fun e => throw (applyFailure e)

/-- Stores what is made already, so an error leaves the storage behind. -/
def commit (target : String) (r : Backend.Request) : Attempt effects r.Yield :=
  tryCatch (ask (.storage r)) fun e => throw (.unsaved target e.message)

/-- Does something while holding the lock of a target. -/
def locked (target : String) (work : Lock → Attempt effects α) : Attempt effects α := do
  Attempt.ofResult (Target.check target)
  let lock ← ask (.storage (.acquire target))
  let result ← (work lock).outcome
  let released ← (ask (.storage (.release target lock))).outcome
  Attempt.ofResult (settle result released)

/-! ## Runs -/

/-- Changes the document of a target and makes the change real. -/
def apply (target : String) (mode : Mode) (change : Change α) : Attempt effects (Outcome α) :=
  locked target fun lock => do
    let (result, document) := change (← load target mode)
    let value ← Attempt.ofResult result
    provision (.apply document.bytes)
    commit target (.persist target document.bytes lock)
    return ⟨document, value⟩

/-- Destroys everything that a target describes, and its document. Reports the modules. -/
def destroyTarget (target : String) : Attempt effects (Outcome (List String)) :=
  locked target fun lock => do
    let document ← load target .requireExisting
    provision (.destroy document.bytes [])
    commit target (.delete target lock)
    return ⟨.empty, document.moduleNames⟩

/-- Destroys the modules that are selected in the document, and with a cluster its nodes. Reports
the modules. -/
def destroyModules (target : String) (select : Document → Result (List String)) :
    Attempt effects (Outcome (List String)) :=
  locked target fun lock => do
    let document ← load target .requireExisting
    let selected ← Attempt.ofResult ((select document).bind (document.expandSelection target))
    let remaining := document.removeAll selected
    provision (.destroy document.bytes selected)
    commit target (.persist target remaining.bytes lock)
    return ⟨remaining, selected⟩

end ClusterLedger.Coordinator
