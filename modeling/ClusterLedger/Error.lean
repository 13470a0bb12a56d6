import ClusterLedger.Disk
import ClusterLedger.Json.Fault
import ClusterLedger.Lock.Record
import ClusterLedger.Module.Name

/-!
# Errors

One inductive type of causes and one function that words them. A cause `other` holds the words of
whoever raises it: a change to a document or a provisioner that is handed in can fail as it likes.
-/
namespace ClusterLedger

/-- Why bytes are no document, or a record is not what a typed view needs. -/
inductive DocumentFault where
  | notJson
  | notObject
  | modulesNotObject
  | recordNotObject (module : String)
  | missingField (module field : String)
  | notText (module : String) (found : Json)
  | other (words : String)
  deriving Repr, DecidableEq

/-- What is not there. -/
inductive Missing where
  | snapshot (target : String)
  | object (target key : String)
  | manager
  | cluster (name : String)
  | node (hostname cluster : String)
  | module (name target : String)
  | other (words : String)
  deriving Repr, DecidableEq

/-- Which node is there already. -/
inductive Collision where
  | node (hostname cluster : String)
  | other (words : String)
  deriving Repr, DecidableEq

/-- Why a lock cannot be taken, checked or given up. -/
inductive LockFault where
  | heldBy (target : String) (lock : Lock)
  | takenOver (target : String) (lock : Lock)
  | removed (target : String)
  | unreadableFile (path : String) (fault : Json.Fault)
  | unreadableObject (key : String) (fault : Json.Fault)
  | beingBroken (target : String)
  | exhausted (target : String)
  | other (words : String)
  deriving Repr, DecidableEq

/-- What is wrong with a request. -/
inductive InputFault where
  | moduleName (name : String)
  | recordNotObject (module : String)
  | notARecord
  | clusterNameInUse (name module : String)
  | unknownProvider (text : String)
  | reserved (field : String)
  | emptyManagerName
  | managerExists (name : String)
  | clusterName (name : String)
  | hostname (name : String)
  | noNodes
  | otherProvider (cluster : String) (runsOn requested : Provider)
  | nothingSelected
  | other (words : String)
  deriving Repr, DecidableEq

/-- What an object store answered instead of what was asked for. -/
inductive StoreFault where
  | status (method url status : String)
  | listing (line : String)
  | other (words : String)
  deriving Repr, DecidableEq

/-- Why an operation failed. -/
inductive Error where
  | document (fault : DocumentFault)
  | missing (what : Missing)
  | collision (what : Collision)
  | applyFailed (reason : String)
  | unsaved (target reason : String)
  | lock (fault : LockFault)
  | invalidTarget (name : String)
  | invalidInput (fault : InputFault)
  | store (fault : StoreFault)
  | http
  | disk (fault : Disk.Fault)
  | cleanup (error cleanup : Error)
  deriving Repr, DecidableEq

/-- What an operation yields, or why it failed. -/
abbrev Result (α : Type) := Except Error α

/-! ## Words -/

def DocumentFault.message : DocumentFault → String
  | notJson => "not valid JSON: malformed text"
  | notObject => "top level must be a JSON object"
  | modulesNotObject => "'module' must be a JSON object"
  | recordNotObject module => s!"module '{module}' must be a JSON object"
  | missingField module field =>
    s!"module '{module}' has unexpected shape: missing field `{field}`"
  | notText module found =>
    s!"module '{module}' has unexpected shape: invalid type: {found.description}, expected a string"
  | other words => words

def Missing.message : Missing → String
  | snapshot target => s!"no state stored for '{target}'"
  | object target key => s!"no state stored for '{target}' at {key}"
  | manager => s!"no '{ModuleName.manager}' module; create the manager first"
  | cluster name => s!"cluster '{name}' does not exist"
  | node hostname owner => s!"node '{hostname}' does not exist in cluster '{owner}'"
  | module name target => s!"module '{name}' does not exist in the state of '{target}'"
  | other words => words

def Collision.message : Collision → String
  | node hostname cluster => s!"node '{hostname}' already exists in cluster '{cluster}'"
  | other words => words

/-- Who a lock belongs to, and since when. -/
def Lock.owner (l : Lock) (since : String) : String :=
  l.holder ++ " (pid " ++ String.ofList (Text.digits l.pid.toNat) ++ ") " ++ since ++ " "
    ++ l.acquiredAt.shown

def LockFault.message : LockFault → String
  | heldBy target lock => s!"state of '{target}' is locked by " ++ lock.owner "since"
  | takenOver target lock => s!"lock on '{target}' was taken over by " ++ lock.owner "at"
  | removed target => s!"lock on '{target}' was removed by someone else"
  | unreadableFile path fault =>
    s!"lock file {path} is unreadable (JSON error: {fault.message}); " ++
      "remove it if no other operation is running"
  | unreadableObject key fault =>
    s!"lock object {key} is unreadable (JSON error: {fault.message}); " ++
      "delete it if no other operation is running"
  | beingBroken target => s!"stale lock on '{target}' is being broken by another process"
  | exhausted target => s!"could not acquire lock on '{target}'"
  | other words => words

def InputFault.message : InputFault → String
  | moduleName name => s!"invalid module name '{name}'"
  | recordNotObject module => s!"record for module '{module}' must be a JSON object"
  | notARecord => "module record must serialize to a JSON object"
  | clusterNameInUse name module => s!"cluster name '{name}' is already used by module '{module}'"
  | unknownProvider text => s!"unknown provider '{text}', expected one of: " ++
      Text.join ", " (Provider.all.map Provider.slug)
  | reserved field => s!"'{field}' is set by clusterform and cannot be overridden"
  | emptyManagerName => "manager name must not be empty"
  | managerExists name => s!"cluster manager '{name}' already exists"
  | clusterName name => s!"invalid cluster name '{name}': use letters, digits and '-' only"
  | hostname name => s!"invalid hostname '{name}': use letters, digits and '-' only"
  | noNodes => "node count must be at least 1"
  | otherProvider cluster runsOn requested =>
    s!"cluster '{cluster}' runs on {runsOn.slug}, not {requested.slug}"
  | nothingSelected => "no modules selected for destruction"
  | other words => words

def StoreFault.message : StoreFault → String
  | status method url code => s!"{method} {url} returned {code}"
  | listing line => s!"invalid listing entry '{line}': malformed entry"
  | other words => words

namespace Error

/-- The error in words. -/
def message : Error → String
  | document fault => "Invalid state document: " ++ fault.message
  | missing what => "Not found: " ++ what.message
  | collision what => "Node name collision: " ++ what.message
  | applyFailed reason => "Provisioning failed, state left unchanged: " ++ reason
  | unsaved target reason =>
    s!"Infrastructure change for '{target}' was applied but the state could not be saved: {reason}. " ++
      "The stored state no longer describes the real infrastructure; " ++
      "manual reconciliation is required"
  | lock fault => "Lock acquisition failed: " ++ fault.message
  | invalidTarget name => "Invalid target name: " ++ name
  | invalidInput fault => "Invalid input: " ++ fault.message
  | store fault => "Object store error: " ++ fault.message
  | http => "HTTP error: the exchange failed"
  | disk fault => "IO error: " ++ fault.message
  | cleanup e c =>
    e.message ++ " (additionally, releasing the state lock failed: " ++ c.message ++ ")"

/-- The error of the operation itself, without failed clean-ups. -/
def primary : Error → Error
  | cleanup e _ => e.primary
  | e => e

/-- Whether the error says that something is not there. -/
def isMissing (e : Error) : Bool :=
  match e.primary with
  | missing _ => true
  | _ => false

end Error

/-- The provider of a slug, or the error that names the known ones. -/
def Provider.parse (text : String) : Result Provider :=
  match Provider.ofSlug? text with
  | some p => .ok p
  | none => .error (.invalidInput (.unknownProvider text))

end ClusterLedger
