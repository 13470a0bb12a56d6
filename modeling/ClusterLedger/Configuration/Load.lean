import ClusterLedger.Configuration.Decode
import ClusterLedger.Disk
import ClusterLedger.Path
import ClusterLedger.Text.Utf8

/-!
# Finding the configuration

Exactly one source is used: the file that is named, the one that a variable names, the first file
found in the usual places, or none of them. Variables then replace single fields.
-/
namespace ClusterLedger.Configuration

/-- What a program finds around it: its variables, the home folder of the account it runs for, the
folder it is in, and what reading a file there gives. -/
structure Surroundings where
  environment : Dict String
  accountHome : Option String
  folder : String
  read : String → Except Disk.Fault ByteArray

/-- Why there is no configuration. -/
inductive Fault where
  | notFound (path : String)
  | invalid (path : String)
  | system (fault : Disk.Fault)
  deriving DecidableEq, Repr

/-- The fault in words. -/
def Fault.message : Fault → String
  | notFound path => s!"Config file {path} not found. Config files are looked up in this order:\n" ++
      "- the CLUSTERFORM_CONFIG environment variable\n" ++
      "- current directory: clusterform.yaml, .clusterform.yaml\n" ++
      "- ~/.config/clusterform/config.yaml"
  | invalid path => s!"Invalid config file {path}: malformed settings"
  | system fault => "IO error: " ++ fault.message

namespace Surroundings

/-- Whether something stands at a path. -/
def holds (s : Surroundings) (path : String) : Bool :=
  match s.read path with
  | .error .missing | .error .notAFolder | .error .nameTooLong | .error .notAName => false
  | _ => true

/-- The value of a variable that is not empty. -/
def value? (s : Surroundings) (name : String) : Option String :=
  (s.environment.get? name).filter (· ≠ "")

/-- The home folder: the one that a variable names, or the one of the account. -/
def home? (s : Surroundings) : Option String :=
  (s.value? "HOME").or s.accountHome

/-- A folder of the user: the one that a variable names with an absolute path, or the usual one
below the home folder. -/
def userFolder? (s : Surroundings) (name usual : String) : Option String :=
  match (s.environment.get? name).filter Path.isAbsolute with
  | some path => some path
  | none => s.home?.map (Path.join · usual)

/-- The folder of states unless configured otherwise. -/
def stateFolder (s : Surroundings) : String :=
  Path.join (match s.userFolder? "XDG_DATA_HOME" ".local/share" with
    | some path => Path.join path "clusterform"
    | none => ".clusterform") "state"

/-- The storage unless configured otherwise. -/
def storage (s : Surroundings) : Storage :=
  .folder s.stateFolder

/-- The usual places of the configuration, the first one first. -/
def candidates (s : Surroundings) : List String :=
  [Path.join s.folder "clusterform.yaml", Path.join s.folder ".clusterform.yaml"] ++
    match s.userFolder? "XDG_CONFIG_HOME" ".config" with
    | some path => [Path.join (Path.join path "clusterform") "config.yaml"]
    | none => []

/-- The file to use, if there is one. A file that a variable names has to be there. -/
def find (s : Surroundings) : Except Fault (Option String) :=
  match s.environment.get? "CLUSTERFORM_CONFIG" with
  | some path => if s.holds path then .ok (some path) else .error (.notFound path)
  | none => .ok (s.candidates.find? s.holds)

/-- The configuration in a file. -/
def readFile (yaml : Yaml.Reader) (s : Surroundings) (path : String) : Except Fault Configuration :=
  match s.read path with
  | .error .missing => .error (.notFound path)
  | .error fault => .error (.system fault)
  | .ok bytes => match Text.utf8? bytes with
    | none => .error (.system .notText)
    | some text => match Configuration.read? yaml s.storage text with
      | none => .error (.invalid path)
      | some c => .ok c

/-- A configuration with the fields that variables give. -/
def override (s : Surroundings) (c : Configuration) : Configuration :=
  let storage := match s.value? "CLUSTERFORM_STATE_DIR" with
    | some path => Storage.folder path
    | none => c.storage
  { c with
    terraformBinary := (s.value? "CLUSTERFORM_TERRAFORM_BINARY").or c.terraformBinary
    sourceUrl := (s.value? "CLUSTERFORM_SOURCE_URL").or c.sourceUrl
    storage := match storage with
      | .remote url path token => .remote url path ((s.value? "CLUSTERFORM_REMOTE_TOKEN").or token)
      | .folder path => .folder path }

/-- The configuration to use; a file can be named. -/
def load (yaml : Yaml.Reader) (s : Surroundings) (named : Option String) :
    Except Fault Configuration := do
  let path ← match named with
    | some path => .ok (some path)
    | none => s.find
  let c ← match path with
    | some path => s.readFile yaml path
    | none => .ok { storage := s.storage }
  return s.override c

end Surroundings

end ClusterLedger.Configuration
