import ClusterLedger.Proofs.Backend.Clients
import ClusterLedger.Proofs.Dict
import ClusterLedger.Proofs.Lock.Instant
import ClusterLedger.Proofs.Lock.Record

/-!
# The ledger that a storage keeps

What a storage holds for its targets is a ledger of locks and documents. However it is laid out, it
answers as the ledger does.
-/
namespace ClusterLedger.Backend

/-- The target that a request is about, if it names one. -/
def Request.target? : Request → Option String
  | acquire target | release target _ | load target | persist target _ _ | delete target _ =>
    some target
  | list => none

/-- The lock that a request is made for, with the target. -/
def Request.lock? : Request → Option (String × Lock)
  | release target lock | persist target _ lock | delete target lock => some (target, lock)
  | acquire _ | load _ | list => none

/-- The locks and the documents of all targets. -/
structure Ledger where
  locks : Dict Lock
  documents : Dict ByteArray

/-- What is left open: which of a caller's records is the lock when a stale one was in the way, and
what is said of a document that is not there. -/
structure Manner where
  second : Nat
  absent : String → Error

namespace Ledger

/-- Nothing is locked, and nothing is stored. -/
def empty : Ledger :=
  ⟨{}, {}⟩

def hold (l : Ledger) (target : String) (lock : Lock) : Ledger :=
  { l with locks := l.locks.insert target lock }

def free (l : Ledger) (target : String) : Ledger :=
  { l with locks := l.locks.erase target }

def put (l : Ledger) (target : String) (bytes : ByteArray) : Ledger :=
  { l with documents := l.documents.insert target bytes }

def drop (l : Ledger) (target : String) : Ledger :=
  { l with documents := l.documents.erase target }

section

variable (l : Ledger) (target : String) (lock : Lock) (bytes : ByteArray)

@[simp] theorem locks_hold : (l.hold target lock).locks = l.locks.insert target lock := rfl

@[simp] theorem locks_free : (l.free target).locks = l.locks.erase target := rfl

@[simp] theorem locks_put : (l.put target bytes).locks = l.locks := rfl

@[simp] theorem locks_drop : (l.drop target).locks = l.locks := rfl

@[simp] theorem documents_hold : (l.hold target lock).documents = l.documents := rfl

@[simp] theorem documents_free : (l.free target).documents = l.documents := rfl

@[simp] theorem documents_put :
    (l.put target bytes).documents = l.documents.insert target bytes := rfl

@[simp] theorem documents_drop : (l.drop target).documents = l.documents.erase target := rfl

end

/-- A lock is given out when there is none, and when there is a stale one. -/
def acquire (l : Ledger) (second : Nat) (caller : Caller) (staleAfter : Nat) (target : String) :
    Result Lock × Ledger :=
  match l.locks.get? target with
  | none => (.ok (caller.lock 0), l.hold target (caller.lock 0))
  | some current =>
    if current.isStale caller.now staleAfter then
      (.ok (caller.lock second), l.hold target (caller.lock second))
    else (.error (heldBy target current), l)

/-- A change is made for the lock on record. -/
def change (l : Ledger) (target : String) (lock : Lock) (changed : Ledger) : Result Unit × Ledger :=
  match verify target lock (l.locks.get? target) with
  | .ok () => (.ok (), changed)
  | .error e => (.error e, l)

/-- The document of a target. -/
def load (l : Ledger) (absent : String → Error) (target : String) : Result ByteArray :=
  match l.documents.get? target with
  | some bytes => .ok bytes
  | none => .error (absent target)

/-- Answers a request about targets and carries it out. -/
def perform (m : Manner) (caller : Caller) (staleAfter : Nat) :
    (r : Request) → Ledger → Result r.Yield × Ledger
  | .acquire target, l => l.acquire m.second caller staleAfter target
  | .release target lock, l => l.change target lock (l.free target)
  | .load target, l => (l.load m.absent target, l)
  | .persist target bytes lock, l => l.change target lock (l.put target bytes)
  | .delete target lock, l => l.change target lock (l.drop target)
  | .list, l => (.ok l.documents.keys, l)

/-- Answers a request and carries it out; a name that is no target is refused. -/
def answer (m : Manner) : Storage Ledger :=
  fun caller staleAfter r l => match r.target?.filter fun target => ¬Target.isValid target with
    | some target => (.error (.invalidTarget target), l)
    | none => perform m caller staleAfter r l

theorem answer_of_valid {m : Manner} {caller : Caller} {staleAfter : Nat} {r : Request} (l : Ledger)
    (h : ∀ target, r.target? = some target → Target.isValid target) :
    answer m caller staleAfter r l = perform m caller staleAfter r l := by
  have hfilter : r.target?.filter (fun target => ¬Target.isValid target) = none := by
    rw [Option.filter_eq_none_iff]
    intro target htarget
    simp [h target htarget]
  rw [answer, hfilter]

theorem answer_of_invalid {m : Manner} {caller : Caller} {staleAfter : Nat} {r : Request}
    {target : String} (l : Ledger) (htarget : r.target? = some target)
    (h : ¬Target.isValid target) :
    answer m caller staleAfter r l = (.error (.invalidTarget target), l) := by
  have hfilter : r.target?.filter (fun target => ¬Target.isValid target) = some target := by
    rw [htarget, Option.filter_some, if_pos (decide_eq_true h)]
  rw [answer, hfilter]

/-- What a request is made for is the lock on record, if it has the token of that lock. -/
def Genuine (l : Ledger) (r : Request) : Prop :=
  ∀ target lock current, r.lock? = some (target, lock) → l.locks.get? target = some current →
    current.token = lock.token → current = lock

/-- Only targets have locks and documents, and all locks are read back from their records. -/
structure Proper (l : Ledger) : Prop where
  locks : ∀ target lock, l.locks.get? target = some lock →
    Target.isValid target ∧ lock.acquiredAt.Shows
  documents : ∀ target bytes, l.documents.get? target = some bytes → Target.isValid target

theorem proper_empty : empty.Proper :=
  ⟨nofun, nofun⟩

section

variable {l : Ledger} {target : String} {lock : Lock} {bytes : ByteArray} {caller : Caller}
  {staleAfter : Nat}

theorem Proper.hold (h : l.Proper) (hvalid : Target.isValid target)
    (hshows : lock.acquiredAt.Shows) : (l.hold target lock).Proper := by
  refine ⟨fun name other hother => ?_, h.documents⟩
  rw [locks_hold, Dict.get?_insert] at hother
  split at hother
  · next he =>
    cases hother
    exact ⟨he ▸ hvalid, hshows⟩
  · exact h.locks name other hother

theorem Proper.free (h : l.Proper) (target : String) : (l.free target).Proper := by
  refine ⟨fun name other hother => ?_, h.documents⟩
  rw [locks_free, Dict.get?_erase] at hother
  split at hother
  · cases hother
  · exact h.locks name other hother

theorem Proper.put (h : l.Proper) (hvalid : Target.isValid target) (bytes : ByteArray) :
    (l.put target bytes).Proper := by
  refine ⟨h.locks, fun name other hother => ?_⟩
  rw [documents_put, Dict.get?_insert] at hother
  split at hother
  · next he => exact he ▸ hvalid
  · exact h.documents name other hother

theorem Proper.drop (h : l.Proper) (target : String) : (l.drop target).Proper := by
  refine ⟨h.locks, fun name other hother => ?_⟩
  rw [documents_drop, Dict.get?_erase] at hother
  split at hother
  · cases hother
  · exact h.documents name other hother

/-- A lock is read back from its record. -/
theorem Proper.ofBytes? (h : l.Proper) (hlock : l.locks.get? target = some lock) :
    Lock.ofBytes? lock.toBytes = some lock :=
  Lock.ofBytes?_toBytes_of_shows (h.locks target lock hlock).2

/-! ## What the files of a target hold -/

/-- The bytes of a file of a target. -/
def bytes? (l : Ledger) (target file : String) : Option ByteArray :=
  if file = Target.lockFile then (l.locks.get? target).map Lock.toBytes
  else if file = Target.stateFile then l.documents.get? target
  else none

theorem stateFile_ne_lockFile : Target.stateFile ≠ Target.lockFile := by
  decide

@[simp] theorem bytes?_lockFile (l : Ledger) (target : String) :
    l.bytes? target Target.lockFile = (l.locks.get? target).map Lock.toBytes :=
  if_pos rfl

@[simp] theorem bytes?_stateFile (l : Ledger) (target : String) :
    l.bytes? target Target.stateFile = l.documents.get? target := by
  rw [bytes?, if_neg stateFile_ne_lockFile, if_pos rfl]

/-- The files that a ledger is kept in are those of another one but for one of them. -/
def Replaces (l l' : Ledger) (target file : String) (value : Option ByteArray) : Prop :=
  ∀ target' file', l'.bytes? target' file' =
    if target = target' ∧ file = file' then value else l.bytes? target' file'

theorem replaces_hold (l : Ledger) (target : String) (lock : Lock) :
    l.Replaces (l.hold target lock) target Target.lockFile
      (some lock.toBytes) := by
  intro target' file'
  by_cases hfile : Target.lockFile = file'
  · subst hfile
    by_cases htarget : target = target'
    · simp [Dict.get?_insert, htarget]
    · simp [Dict.get?_insert, htarget]
  · simp [bytes?, Ne.symm hfile, hfile]

theorem replaces_free (l : Ledger) (target : String) :
    l.Replaces (l.free target) target Target.lockFile none := by
  intro target' file'
  by_cases hfile : Target.lockFile = file'
  · subst hfile
    by_cases htarget : target = target'
    · simp [Dict.get?_erase, htarget]
    · simp [Dict.get?_erase, htarget]
  · simp [bytes?, Ne.symm hfile, hfile]

theorem replaces_put (l : Ledger) (target : String) (bytes : ByteArray) :
    l.Replaces (l.put target bytes) target Target.stateFile
      (some bytes) := by
  intro target' file'
  by_cases hfile : Target.stateFile = file'
  · subst hfile
    by_cases htarget : target = target'
    · simp [Dict.get?_insert, htarget]
    · simp [Dict.get?_insert, htarget]
  · simp [bytes?, Ne.symm hfile, hfile]

theorem replaces_drop (l : Ledger) (target : String) :
    l.Replaces (l.drop target) target Target.stateFile none := by
  intro target' file'
  by_cases hfile : Target.stateFile = file'
  · subst hfile
    by_cases htarget : target = target'
    · simp [Dict.get?_erase, htarget]
    · simp [Dict.get?_erase, htarget]
  · simp [bytes?, Ne.symm hfile, hfile]

end

end Ledger

variable {σ : Type}

/-- A reply and a storage are those of a ledger. -/
def Follows {α : Type} (holds : σ → Ledger → Prop) (answer : Result α × Ledger)
    (reply : Result α) (s : σ) : Prop :=
  reply = answer.1 ∧ holds s answer.2

/-- A storage answers as the ledger does that it holds, as long as its requests are admitted. -/
structure Keeps (call : Storage σ) (m : Manner) (holds : σ → Ledger → Prop)
    (admits : Caller → Request → Prop) : Prop where
  proper : ∀ {s l}, holds s l → l.Proper
  answers : ∀ {s l caller r} (staleAfter : Nat), holds s l → caller.now.Shows → admits caller r →
    l.Genuine r → Follows holds (Ledger.answer m caller staleAfter r l)
      (call caller staleAfter r s).1 (call caller staleAfter r s).2

end ClusterLedger.Backend
