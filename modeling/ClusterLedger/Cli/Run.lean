import ClusterLedger.Cli.Arguments
import ClusterLedger.Cli.SetArgument
import ClusterLedger.Configuration.Load
import ClusterLedger.Document.Lookup
import ClusterLedger.Json.Printer
import ClusterLedger.Machine

/-!
# Carrying out commands

A command says what it is about to do, does it, and says what came of it. An error stands for what
would have been said last.
-/
namespace ClusterLedger.Cli

/-- Why a command failed. -/
inductive Fault where
  | configuration (fault : Configuration.Fault)
  | argument (fault : SetArgument.Fault)
  | state (error : Error)
  | notSet (path manager : String)

/-- The fault in words. -/
def Fault.message : Fault → String
  | configuration fault => fault.message
  | argument fault => fault.message
  | state error => error.message
  | notSet path manager => s!"'{path}' is not set in {manager}"

/-- The fault of the system behind a fault, if that is all there is to it. -/
def Fault.cause? : Fault → Option Disk.Fault
  | configuration (.system fault) => some fault
  | state (.disk fault) => some fault
  | _ => none

/-- How a fault is reported: in its words, and in those of its cause. -/
def Fault.report (f : Fault) : String :=
  "Error: " ++ f.message ++ match f.cause? with
    | some cause => "\n\nCaused by:\n    " ++ cause.message
    | none => ""

/-- What a command prints, and why it failed if it did. -/
structure Report where
  output : String
  fault : Option Fault

/-- The status that a command ends with. -/
def Report.status (r : Report) : Nat :=
  if r.fault.isSome then 1 else 0

/-- The status for arguments that are refused. -/
def refusedStatus : Nat := 2

/-- A command that is ready: what it says first, and the work that yields what it says then. -/
structure Task where
  announcement : String := ""
  work : Program Machine.effects (Except Fault String)

/-! ## Output -/

/-- A line of output. -/
def line (s : String) : String :=
  s ++ "\n"

/-- Names under a heading. -/
def listing (heading : String) (names : List String) : String :=
  line s!"{heading} ({names.length}):" ++ String.join (names.map fun n => line ("  • " ++ n))

/-- A value of a document: a text as it is, everything else as indented JSON. -/
def shown : Json → String
  | .string s => s
  | v => v.pretty "  "

/-! ## Tasks -/

/-- The work of a run, and what is said of what it reports. -/
def work {α : Type} (c : Configuration) (folder : String)
    (run : Attempt Coordinator.effects (Coordinator.Outcome α)) (said : α → String) :
    Program Machine.effects (Except Fault String) := do
  match ← c.carryOut folder run with
  | .ok outcome => return .ok (said outcome.value)
  | .error e => return .error (.state e)

/-- The change that creates a manager where there is none. -/
def createManager (r : ManagerRequest) (sources : Sources) : Change String := fun d =>
  if d.manager?.isSome then (.error (.invalidInput (.managerExists r.name)), d)
  else r.change sources d

/-- What is said of a module that was created. -/
def created (name : String) : String :=
  line ("✓ " ++ name)

/-- What `get` says. -/
def value (d : Document) (manager : String) : Option String → Except Fault String
  | none => .ok (line d.text)
  | some path => match d.get? path with
    | some v => .ok (line (shown v))
    | none => .error (.notSet path manager)

/-- The task of a command. -/
def task (c : Configuration) (folder : String) : Command → Except Fault Task
  | .createManager name provider arguments => do
    let settings ← (SetArgument.settings arguments).mapError .argument
    let change := createManager ⟨name, provider, settings⟩ c.sources
    return {
      announcement := line s!"Creating cluster manager {name} on {provider.slug}..."
      work := work c folder (Coordinator.apply name .createIfMissing change) created }
  | .createCluster manager name provider arguments => do
    let settings ← (SetArgument.settings arguments).mapError .argument
    let r : ClusterRequest := ⟨name, provider, settings⟩
    return {
      announcement := line s!"Creating cluster {name} in {manager}..."
      work := work c folder (Coordinator.apply manager .requireExisting (r.change c.sources))
        created }
  | .createNodes manager cluster hostname count provider arguments => do
    let settings ← (SetArgument.settings arguments).mapError .argument
    let r : NodeRequest := ⟨cluster, provider, hostname, count, settings⟩
    return {
      announcement := line s!"Adding {count} node(s) to {cluster} in {manager}..."
      work := work c folder (Coordinator.apply manager .requireExisting (r.change c.sources))
        (listing "Nodes created") }
  | .destroyManager manager => return {
      announcement := line s!"Destroying cluster manager {manager}..."
      work := work c folder (Coordinator.destroyTarget manager) (listing "Destroyed") }
  | .destroyCluster manager name => return {
      announcement := line s!"Destroying cluster {name} in {manager}..."
      work := work c folder (Coordinator.destroyModules manager fun d => d.selectCluster name)
        (listing "Destroyed") }
  | .destroyNodes manager cluster hostnames => return {
      announcement := line s!"Destroying {hostnames.length} node(s) of {cluster}..."
      work := work c folder
        (Coordinator.destroyModules manager fun d => d.selectNodes cluster hostnames)
        (listing "Destroyed") }
  | .get manager path => return {
      work := do
        match ← c.carryOut folder (Coordinator.load manager .requireExisting) with
        | .ok d => return value d manager path
        | .error e => return .error (.state e) }
  | .list => return {
      work := do
        match ← c.askBackend folder .list with
        | .ok [] => return .ok (line "No cluster managers")
        | .ok names => return .ok (listing "Cluster managers" names)
        | .error e => return .error (.state e) }
  | .version => return {
      announcement := line "clusterform 0.1.0"
      work := do
        match ← Machine.withTool c.terraform.version.run with
        | .ok version => return .ok (line version)
        | .error _ => return .ok (line ("terraform not available: " ++ c.terraform.binary)) }

/-! ## Commands -/

/-- Carries out a task. -/
def Task.run (t : Task) : Program Machine.effects Report := do
  match ← t.work with
  | .ok output => return ⟨t.announcement ++ output, none⟩
  | .error fault => return ⟨t.announcement, some fault⟩

/-- Carries out a command line. -/
def run (yaml : Yaml.Reader) (s : Configuration.Surroundings) (l : CommandLine) :
    Program Machine.effects Report :=
  match (s.load yaml l.configuration).mapError .configuration with
  | .error fault => return ⟨"", some fault⟩
  | .ok c => match task c s.folder l.command with
    | .error fault => return ⟨"", some fault⟩
    | .ok t => t.run

end ClusterLedger.Cli
