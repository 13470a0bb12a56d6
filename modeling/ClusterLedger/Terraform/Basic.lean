import ClusterLedger.Disk
import ClusterLedger.Terraform.Output

/-!
# The terraform tool

The tool is run with arguments and variables, in a directory or wherever the caller is. A run that
does not end with status 0 is a fault, which keeps the end of the error stream.
-/
namespace ClusterLedger

/-- The tool: its program, and the variables set for it, of which the last of a name counts. -/
structure Terraform where
  binary : String
  environment : List (String × String)
  deriving DecidableEq, Repr

namespace Terraform

/-- The tool that knows that nobody watches it. -/
def ofBinary (binary : String) : Terraform :=
  ⟨binary, [("TF_IN_AUTOMATION", "1")]⟩

/-- Sets one more variable. -/
def set (t : Terraform) (name value : String) : Terraform :=
  { t with environment := t.environment ++ [(name, value)] }

/-! ## Effects -/

/-- How a run ended. -/
inductive Exit where
  | status (code : Nat)
  | signal
  deriving DecidableEq, Repr

/-- How a run ended, in words. -/
def Exit.phrase : Exit → String
  | status code => s!"status {code}"
  | signal => "a signal"

/-- A run that has ended. -/
structure Finished where
  exit : Exit
  stdout : ByteArray
  stderr : ByteArray
  deriving DecidableEq

/-- A run to start. -/
structure Invocation where
  binary : String
  arguments : List String
  environment : List (String × String)
  directory : Option String
  deriving DecidableEq, Repr

/-- What running the tool asks of the system. A scratch directory is fresh and empty, and removing
it removes what it holds. -/
inductive Request where
  | makeScratch
  | write (directory name : String) (bytes : ByteArray)
  | start (run : Invocation)
  | removeScratch (directory : String)
  deriving DecidableEq

/-- What a request yields when it succeeds. -/
abbrev Request.Yield : Request → Type
  | makeScratch => String
  | start _ => Finished
  | write _ _ _ | removeScratch _ => Unit

/-- The effects of running the tool. -/
def effects : Effects where
  Request := Request
  Reply r := Except Disk.Fault r.Yield

/-! ## Faults -/

/-- Why a run failed. -/
inductive Fault where
  | notFound (binary : String)
  | failed (command : String) (exit : Exit) (stderr : String)
  | system (fault : Disk.Fault)
  deriving DecidableEq, Repr

/-- The fault in words. -/
def Fault.message : Fault → String
  | notFound binary => s!"terraform binary '{binary}' not found. " ++
      "Install terraform or set terraform_binary"
  | failed command exit stderr => s!"`{command}` exited with {exit.phrase}: {stderr}"
  | system fault => "IO error: " ++ fault.message

/-- A program that uses the tool and can fail. -/
abbrev Use := ExceptT Fault (Program effects)

/-- Makes one request; a fault of the system ends the use. -/
def ask (r : Request) : Use r.Yield :=
  ExceptT.mk (do return Except.mapError .system (← Program.request (E := effects) r))

/-! ## Running -/

/-- A run of the tool. -/
def invocation (t : Terraform) (directory : Option String) (arguments : List String) : Invocation :=
  ⟨t.binary, arguments, t.environment, directory⟩

/-- The command line as it is shown. -/
def commandLine (t : Terraform) (arguments : List String) : String :=
  t.binary ++ " " ++ Text.join " " arguments

/-- What became of starting the tool. -/
def started (t : Terraform) : Except Disk.Fault Finished → Except Fault Finished
  | .ok finished => .ok finished
  | .error .missing => .error (.notFound t.binary)
  | .error fault => .error (.system fault)

/-- Starts the tool and waits for its end. -/
def start (t : Terraform) (directory : Option String) (arguments : List String) : Use Finished :=
  ExceptT.mk (do
    return t.started
      (← Program.request (E := effects) (.start (t.invocation directory arguments))))

/-- Runs the tool in a directory; only status 0 is success. -/
def run (t : Terraform) (directory : String) (arguments : List String) : Use Unit := do
  let finished ← t.start (some directory) arguments
  if finished.exit ≠ .status 0 then
    throw (.failed (t.commandLine arguments) finished.exit
      (Text.join "\n" (tail finished.stderr)))

/-- The first line that the tool says about its version. -/
def version (t : Terraform) : Use String := do
  let finished ← t.start none ["version"]
  if finished.exit ≠ .status 0 then
    throw (.failed (t.commandLine ["version"]) finished.exit
      (Text.trim (Text.lossy finished.stderr.data.toList)))
  return firstLine finished.stdout

end Terraform

end ClusterLedger
