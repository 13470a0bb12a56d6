import ClusterLedger.Backend.Folder
import ClusterLedger.Backend.Objects
import ClusterLedger.Configuration.Basic
import ClusterLedger.Coordinator
import ClusterLedger.Store.Http
import ClusterLedger.Terraform.Provision

/-!
# The machine

Everything that is outside: who takes locks and when, the disk, the network and the terraform tool.
The storage and the tool of a configuration are carried out by asking for these.
-/
namespace ClusterLedger

namespace Machine

/-- What can be asked of the machine. -/
inductive Request where
  | caller
  | disk (r : Disk.Request)
  | http (r : Http.Request)
  | tool (r : Terraform.Request)

/-- What answers a request. -/
abbrev Request.Answer : Request → Type
  | caller => Caller
  | disk r => Disk.effects.Reply r
  | http r => Http.effects.Reply r
  | tool r => Terraform.effects.Reply r

/-- The effects of the machine. -/
def effects : Effects where
  Request := Request
  Reply := Request.Answer

/-- Makes one request. -/
def ask (r : Request) : Program effects r.Answer :=
  Program.request (E := effects) r

/-! ## Carrying out -/

/-- A program on the disk. -/
def onDisk {α : Type} (p : Program Disk.effects α) : Program effects α :=
  p.handle fun r => ask (.disk r)

/-- A program that exchanges with servers. -/
def onNetwork {α : Type} (p : Program Http.effects α) : Program effects α :=
  p.handle fun r => ask (.http r)

/-- A program that uses the tool. -/
def withTool {α : Type} (p : Program Terraform.effects α) : Program effects α :=
  p.handle fun r => ask (.tool r)

/-- A program on a store behind HTTP. -/
def onEndpoint {α : Type} (e : Store.Endpoint) (p : Program Store.effects α) :
    Program effects α :=
  onNetwork (p.handle fun r => (e.perform r).program)

end Machine

namespace Configuration

/-- The folder of states at a path, for a program in a folder. -/
def stateFolder (folder path : String) : Backend.Folder :=
  ⟨Path.way folder path, path⟩

/-- The age in seconds at which locks are stale. -/
def staleAfter (c : Configuration) : Nat :=
  c.lockStaleAfter.getD Backend.staleAfter

/-- The name of the backend. -/
def backendName (c : Configuration) : String :=
  match c.storage with
  | .folder _ => "local"
  | .remote _ _ _ => "remote"

/-- Carries out what is asked of the backend, for a program in a folder. -/
def askBackend (c : Configuration) (folder : String) (r : Backend.Request) :
    Program Machine.effects (Result r.Yield) := do
  let caller ← Machine.ask .caller
  match c.storage with
  | .folder path =>
    Machine.onDisk ((stateFolder folder path).perform caller c.staleAfter r).program
  | .remote url path token =>
    Machine.onEndpoint (.ofUrl url token)
      ((Backend.Objects.ofPath path).perform caller c.staleAfter r).program

/-- The terraform tool. -/
def terraform (c : Configuration) : Terraform :=
  c.terraformVariables.toList.foldl (fun t e => t.set e.1 e.2)
    (.ofBinary (c.terraformBinary.getD "terraform"))

/-- Where the sources of modules are. -/
def sources (c : Configuration) : Sources :=
  match c.sourceUrl with
  | some url => .ofUrl url
  | none => .standard

/-- Carries out the calls of a run, for a program in a folder. -/
def answerCall (c : Configuration) (folder : String) :
    (call : Coordinator.Call) → Program Machine.effects (Result call.Yield)
  | .storage r => c.askBackend folder r
  | .provision r => Machine.withTool (c.terraform.perform r).program

/-- Carries out a run, for a program in a folder. -/
def carryOut {α : Type} (c : Configuration) (folder : String)
    (run : Attempt Coordinator.effects α) : Program Machine.effects (Result α) :=
  run.program.handle (c.answerCall folder)

end Configuration

end ClusterLedger
