import ClusterLedger.Backend.Basic
import ClusterLedger.Path

/-!
# States in folders

Every target is a folder with its document, a backup of the document before, and its lock record. A
record is written under a private name and linked to the name of the lock, so that nobody sees a
part of it; it is moved to a private name before it is removed, so that only its owner removes it.
-/
namespace ClusterLedger.Backend

/-- A folder: the way to it, and its path as it is shown. -/
structure Folder where
  way : List String
  shown : String
  deriving DecidableEq, Repr

namespace Folder

/-! ## Names -/

/-- The path of a name below a folder. -/
def path (d : Folder) (name : String) : String :=
  Path.join d.shown name

/-- A folder in a folder. -/
def sub (d : Folder) (name : String) : Folder :=
  ⟨d.way ++ [name], d.path name⟩

/-- A file in a folder. -/
def file (d : Folder) (name : String) : Disk.Location :=
  ⟨d.way, name⟩

/-- Where a path from a folder leads: its last part is a name, and the parts before are a way to
follow. -/
def locate (d : Folder) (path : String) : Disk.Location :=
  let parts := Text.segments '/' path
  ⟨d.way ++ parts.dropLast, parts.getLastD ""⟩

/-- The folder of a target, if it is one. -/
def target (root : Folder) (name : String) : Result Folder :=
  (Target.check name).map fun _ => root.sub name

/-- The document before the last change. -/
def backupFile : String := Target.stateFile ++ ".backup"

/-- The document while it is written. -/
def stagingFile : String := Target.stateFile ++ ".tmp"

/-- The record of who breaks a stale lock. -/
def markerFile : String := Target.lockFile ++ ".break"

/-- The path of a record before it is linked to its name: a token may have a slash. -/
def recordFile (lock : Lock) : String := Target.lockFile ++ "." ++ lock.token ++ ".tmp"

/-- The path of a lock record while it is inspected. -/
def claimFile (claim : Lock) : String := Target.lockFile ++ "." ++ claim.token ++ ".taken"

/-- Seconds after which the record of who breaks a lock is taken to be left behind. -/
def markerStaleAfter : Nat := 30

/-! ## Steps -/

/-- Makes one request of the disk; a fault ends the attempt. -/
def ask (r : Disk.Request) : Attempt Disk.effects r.Yield :=
  ExceptT.mk (do return Except.mapError .disk (← Program.request (E := Disk.effects) r))

/-- Makes one request of the disk and goes on with a fault as well. -/
def attempt (r : Disk.Request) : Attempt Disk.effects (Except Disk.Fault r.Yield) :=
  Attempt.request (E := Disk.effects) r

/-- Removes the file at a location, if there is one. -/
def discardAt (l : Disk.Location) : Attempt Disk.effects Unit := do
  match ← attempt (.removeFile l) with
  | .ok () | .error .missing => return
  | .error fault => throw (.disk fault)

/-- Removes a file of a folder, if there is one. -/
def discard (d : Folder) (name : String) : Attempt Disk.effects Unit :=
  discardAt (d.file name)

/-- The lock record at a location, which is shown as a path. -/
def readLockAt (l : Disk.Location) (shown : String) : Attempt Disk.effects (Option Lock) := do
  match ← attempt (.read l) with
  | .ok bytes => match Lock.ofBytes? bytes with
    | some lock => return some lock
    | none => throw (.lock (.unreadableFile shown (Lock.fault bytes)))
  | .error .missing => return none
  | .error fault => throw (.disk fault)

/-- The lock record in a file of a folder. -/
def readLock (d : Folder) (name : String) : Attempt Disk.effects (Option Lock) :=
  readLockAt (d.file name) (d.path name)

/-- Writes a record under a name, unless there is something of that name. -/
def create (d : Folder) (name : String) (lock : Lock) : Attempt Disk.effects Bool := do
  let record := d.locate (recordFile lock)
  ask (.write record lock.toBytes)
  let linked ← attempt (.link record (d.file name))
  discardAt record
  match linked with
  | .ok () => return true
  | .error .alreadyThere => return false
  | .error fault => throw (.disk fault)

/-- What was found when a lock was to be removed. -/
inductive Taken where
  | removed
  | missing
  | other (lock : Lock)

/-- Removes the lock record if it has the token. The record is moved to the private path of the
claim and inspected there; another one's record is linked back. -/
def take (d : Folder) (claim : Lock) (token : String) : Attempt Disk.effects Taken := do
  let claimed := d.locate (claimFile claim)
  match ← attempt (.rename (d.file Target.lockFile) claimed) with
  | .error .missing => return .missing
  | .error fault => throw (.disk fault)
  | .ok () =>
    let found ← (readLockAt claimed (d.path (claimFile claim))).outcome
    if found.toOption.join.map Lock.token = some token then
      discardAt claimed
      return .removed
    let restored ← attempt (.link claimed (d.file Target.lockFile))
    discardAt claimed
    match restored with
    | .ok () | .error .alreadyThere => match ← Attempt.ofResult found with
      | some lock => return .other lock
      | none => return .missing
    | .error fault => throw (.disk fault)

/-! ## Stale locks -/

/-- Removes a stale lock while the marker stands, unless the record is another one by now. -/
def breakMarked (d : Folder) (target : String) (caller : Caller) (stale : Lock) :
    Attempt Disk.effects Unit := do
  match ← d.readLock Target.lockFile with
  | none => return
  | some current =>
    if current.token ≠ stale.token then throw (heldBy target current)
    match ← d.take (caller.lock 2) stale.token with
    | .removed | .missing => return
    | .other lock => throw (heldBy target lock)

/-- Removes a stale lock. A marker keeps others from doing the same; one that was left behind is
removed, and the next caller may try. -/
def breakStale (d : Folder) (target : String) (caller : Caller) (stale : Lock) :
    Attempt Disk.effects Unit := do
  if ← d.create markerFile (caller.lock 1) then
    let result ← (d.breakMarked target caller stale).outcome
    let cleared ← (d.discard markerFile).outcome
    Attempt.ofResult (result.bind fun _ => cleared)
  else
    if (← d.readLock markerFile).any (·.isStale caller.now markerStaleAfter) then
      d.discard markerFile
    throw (.lock (.beingBroken target))

/-! ## The operations -/

/-- Tries to take a lock with a fresh record. A stale record that is in the way is removed, if it
may be; without a record the lock is free by now. -/
def tryAcquire (d : Folder) (target : String) (caller : Caller) (fresh : Lock)
    (breaksAfter : Option Nat) : Attempt Disk.effects (Option Lock) := do
  if ← d.create Target.lockFile fresh then return some fresh
  match ← d.readLock Target.lockFile with
  | none => return none
  | some current =>
    if breaksAfter.any (current.isStale caller.now) then
      d.breakStale target caller current
      return none
    else throw (heldBy target current)

/-- Takes the lock of a target; only the first of two tries breaks a stale lock. -/
def acquire (root : Folder) (caller : Caller) (staleAfter : Nat) (target : String) :
    Attempt Disk.effects Lock := do
  let d ← Attempt.ofResult (root.target target)
  ask (.makeFolder d.way)
  match ← d.tryAcquire target caller (caller.lock 0) (some staleAfter) with
  | some lock => return lock
  | none => match ← d.tryAcquire target caller (caller.lock 3) none with
    | some lock => return lock
    | none => throw (.lock (.exhausted target))

/-- Gives up a lock. The folder of a target without a document is removed, if it is empty. -/
def release (root : Folder) (caller : Caller) (target : String) (lock : Lock) :
    Attempt Disk.effects Unit := do
  let d ← Attempt.ofResult (root.target target)
  match ← d.take (caller.lock 0) lock.token with
  | .removed =>
    unless ← ask (.probe (d.file Target.stateFile)) do
      let _ ← attempt (.removeFolder (root.file target))
  | .missing => throw (lost target none)
  | .other current => throw (lost target (some current))

/-- Refuses to go on without the lock. -/
def guard (d : Folder) (target : String) (lock : Lock) : Attempt Disk.effects Unit := do
  Attempt.ofResult (verify target lock (← d.readLock Target.lockFile))

/-- The document of a target. -/
def load (root : Folder) (target : String) : Attempt Disk.effects ByteArray := do
  let d ← Attempt.ofResult (root.target target)
  match ← attempt (.read (d.file Target.stateFile)) with
  | .ok bytes => return bytes
  | .error .missing => throw (.missing (.snapshot target))
  | .error fault => throw (.disk fault)

/-- Writes the document of a target, after a copy of the one before. -/
def persist (root : Folder) (target : String) (bytes : ByteArray) (lock : Lock) :
    Attempt Disk.effects Unit := do
  let d ← Attempt.ofResult (root.target target)
  d.guard target lock
  ask (.write (d.file stagingFile) bytes)
  if ← ask (.probe (d.file Target.stateFile)) then
    ask (.copy (d.file Target.stateFile) (d.file backupFile))
  ask (.rename (d.file stagingFile) (d.file Target.stateFile))

/-- Removes the document of a target and its backup. -/
def delete (root : Folder) (target : String) (lock : Lock) : Attempt Disk.effects Unit := do
  let d ← Attempt.ofResult (root.target target)
  d.guard target lock
  d.discard Target.stateFile
  d.discard backupFile

/-- The folders among the names that hold a document. -/
def targets (root : Folder) : List (String × Bool) → Attempt Disk.effects (List String)
  | [] => return []
  | (_, false) :: rest => root.targets rest
  | (name, true) :: rest => do
    let holds ← ask (.probe ((root.sub name).file Target.stateFile))
    let others ← root.targets rest
    return if holds then name :: others else others

/-- All targets in increasing order; there are none in a folder that does not exist, and none in one
that is not named at all. -/
def list (root : Folder) : Attempt Disk.effects (List String) := do
  if root.shown = "" then return []
  match ← attempt (.names root.way) with
  | .ok names => return (← root.targets names).mergeSort
  | .error .missing => return []
  | .error fault => throw (.disk fault)

/-- Carries out what is asked of the backend. -/
def perform (root : Folder) (caller : Caller) (staleAfter : Nat) :
    (r : Request) → Attempt Disk.effects r.Yield
  | .acquire target => root.acquire caller staleAfter target
  | .release target lock => root.release caller target lock
  | .load target => root.load target
  | .persist target bytes lock => root.persist target bytes lock
  | .delete target lock => root.delete target lock
  | .list => root.list

end Folder

end ClusterLedger.Backend
