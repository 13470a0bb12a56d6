import ClusterLedger.Cli.Run
import ClusterLedger.Yaml.Reader

/-!
# The command line

The thin layer that reads arguments, variables and files, prints, and ends with a status. It has no
network and starts no other program: an exchange gets no answer, and the tool cannot be started.
-/
namespace ClusterLedger.Main

/-- The fault that an error of the system is; the kind of entry there tells the two apart that the
system does not. -/
def faultOf (isFolder : Bool) : IO.Error → Disk.Fault
  | .noFileOrDirectory _ _ _ => .missing
  | .alreadyExists _ _ _ => .alreadyThere
  | .inappropriateType _ _ _ => if isFolder then .isAFolder else .notAFolder
  | .unsatisfiedConstraints _ _ => .notEmpty
  | .invalidArgument _ code _ => if code = 22 then .intoItself else .nameTooLong
  | _ => .notPermitted

/-- The path of a way. -/
def pathOf (way : List String) : String :=
  "/" ++ Text.join "/" way

/-- The path of a location. -/
def fileOf (l : Disk.Location) : String :=
  pathOf l.way

/-- Whether a path is that of a folder. -/
def isFolder (path : String) : IO Bool := do
  ((← IO.currentDir) / path).isDir

/-- Whether something stands at a path. -/
def isThere (path : String) : IO Bool := do
  ((← IO.currentDir) / path).pathExists

/-- Does something with a path, an error of the system being a fault. -/
def attempt {α : Type} (path : String) (act : IO α) : IO (Except Disk.Fault α) := do
  if path.toList.contains '\x00' then return .error .notAName
  match ← act.toBaseIO with
  | .ok a => return .ok a
  | .error e => return .error (faultOf (← isFolder path) e)

/-- The bytes of a file. -/
def readFile (path : String) : IO (Except Disk.Fault ByteArray) := do
  if path = "" then return .error .missing
  else attempt path (IO.FS.readBinFile path)

/-- The names in a folder, each with whether it is a folder. -/
def namesIn (path : String) : IO (List (String × Bool)) := do
  let entries ← ((← IO.currentDir) / path).readDir
  entries.toList.mapM fun e => return (e.fileName, ← e.path.isDir)

/-- Carries out what is asked of the disk. -/
def onDisk : (r : Disk.Request) → IO (Disk.effects.Reply r)
  | .makeFolder way => attempt (pathOf way) (IO.FS.createDirAll (pathOf way))
  | .read l => readFile (fileOf l)
  | .write l bytes => attempt (fileOf l) (IO.FS.writeBinFile (fileOf l) bytes)
  | .link existing new => attempt (fileOf new) (IO.FS.hardLink (fileOf existing) (fileOf new))
  | .rename source target =>
    attempt (fileOf target) (IO.FS.rename (fileOf source) (fileOf target))
  | .copy source target => do
    match ← readFile (fileOf source) with
    | .ok bytes => attempt (fileOf target) (IO.FS.writeBinFile (fileOf target) bytes)
    | .error .isAFolder => return .error .notAFile
    | .error fault => return .error fault
  | .removeFile l => attempt (fileOf l) (IO.FS.removeFile (fileOf l))
  | .removeFolder l => attempt (fileOf l) (IO.FS.removeDir (fileOf l))
  | .probe l => return .ok (← isThere (fileOf l))
  | .names way => attempt (pathOf way) (namesIn (pathOf way))

/-- Carries out what running the tool asks for. -/
def withTool : (r : Terraform.Request) → IO (Terraform.effects.Reply r)
  | .makeScratch => attempt "" do return (← IO.FS.createTempDir).toString
  | .write directory name bytes =>
    let path := Path.join directory name
    attempt path (IO.FS.writeBinFile path bytes)
  | .start _ => return .error .notPermitted
  | .removeScratch directory => attempt directory (IO.FS.removeDirAll directory)

/-- The lines of a file, none if it cannot be read. -/
def linesOf (path : String) : IO (List String) := do
  match ← readFile path with
  | .ok bytes => return Text.segments '\n' (Text.lossy bytes.data.toList)
  | .error _ => return []

/-- The home folder of the account with this number in a table of accounts. -/
def homeOf? (number : String) (accounts : List String) : Option String :=
  accounts.findSome? fun account => match Text.segments ':' account with
    | [_, _, n, _, _, home, _] => if n = number ∧ home ≠ "" then some home else none
    | _ => none

/-- The home folder of the account that this process runs for. -/
def accountHome : IO (Option String) := do
  let numbers := (← linesOf "/proc/self/status").filterMap (Text.after? "Uid:\t")
  let number := (numbers.head?.bind fun s => (Text.segments '\t' s).head?).getD ""
  return homeOf? number (← linesOf "/etc/passwd")

/-- The number of this process. -/
def processNumber : IO Nat := do
  match ← readFile "/proc/self/stat" with
  | .ok bytes =>
    return Text.digitsValue 0 ((Text.lossy bytes.data.toList).toList.takeWhile Char.isDigit)
  | .error _ => return 0

/-- The present time, which is the time of a file written now. -/
def now : IO Instant := do
  let (_, path) ← IO.FS.createTempFile
  let time := (← path.metadata).modified
  IO.FS.removeFile path
  return ⟨time.sec, time.nsec.toNat⟩

/-- Who takes locks now. -/
def caller (calls : Nat) : IO Caller := do
  let holder := ((← IO.getEnv "HOSTNAME").or (← IO.getEnv "HOST")).getD "unknown"
  let pid ← processNumber
  return .ofProcess holder (UInt32.ofNat pid) (← now) calls

/-- Answers a request of the program. -/
def answer (calls : Nat) : (r : Machine.Request) → IO (Machine.effects.Reply r)
  | .caller => caller calls
  | .disk r => onDisk r
  | .http _ => return none
  | .tool r => withTool r

/-- Carries out a program, of which `calls` counts the requests. -/
def perform {α : Type} (calls : Nat) : Program Machine.effects α → IO α
  | .done a => return a
  | .ask r next => do perform (calls + 4) (next (← answer calls r))

/-- The variables that matter. -/
def variableNames : List String :=
  ["HOME", "XDG_CONFIG_HOME", "XDG_DATA_HOME", "CLUSTERFORM_CONFIG",
    "CLUSTERFORM_TERRAFORM_BINARY", "CLUSTERFORM_SOURCE_URL", "CLUSTERFORM_STATE_DIR",
    "CLUSTERFORM_REMOTE_TOKEN"]

/-- What is around the program; the files are read that can be the configuration. -/
def surroundings (named : Option String) : IO Configuration.Surroundings := do
  let environment ← variableNames.filterMapM fun name => do
    return (← IO.getEnv name).map fun value => (name, value)
  let folder := (← IO.currentDir).toString
  let bare : Configuration.Surroundings :=
    ⟨Dict.ofList environment, ← accountHome, folder, fun _ => .error .missing⟩
  let paths := named.toList ++ (bare.environment.get? "CLUSTERFORM_CONFIG").toList ++ bare.candidates
  let files ← paths.mapM fun path => return (path, ← readFile path)
  return { bare with read := fun path => (Dict.ofList files).get? path |>.getD (.error .missing) }

/-- Carries out a command line and prints what it says. -/
def run (l : Cli.CommandLine) : IO UInt32 := do
  let report ← perform 0 (Cli.run Yaml.read? (← surroundings l.configuration) l)
  IO.print report.output
  if let some fault := report.fault then IO.eprintln fault.report
  return UInt32.ofNat report.status

end ClusterLedger.Main

/-- The program. -/
def main (arguments : List String) : IO UInt32 := do
  match ClusterLedger.Cli.CommandLine.parse? arguments with
  | some l => ClusterLedger.Main.run l
  | none =>
    IO.eprintln "error: the arguments are refused"
    return UInt32.ofNat ClusterLedger.Cli.refusedStatus
