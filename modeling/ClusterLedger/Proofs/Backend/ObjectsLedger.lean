import ClusterLedger.Proofs.Backend.Keys
import ClusterLedger.Proofs.Backend.Ledger
import ClusterLedger.Proofs.Backend.Objects
import ClusterLedger.Proofs.Store.Memory

/-!
# The ledger in a store

In a store in memory every lock and every document is an object of its own, and there are no other
objects. A lock is told apart from another by its bytes, which is right as long as nobody has a lock
with the token of another one.
-/
namespace ClusterLedger.Backend.Objects

open Attempt (ends_bind ends_bind_of_run ends_ofResult)
open Store (Memory.answer)

variable {o : Objects} {s s' : Store.Memory.Objects} {l l' : Ledger} {caller : Caller}
  {target file : String} {lock : Lock} {bytes : ByteArray}

/-- How a store answers: the second record is the lock when a stale one was in the way. -/
def manner (o : Objects) : Manner where
  second := 1
  absent target := .missing (.object target (o.keyOf target Target.stateFile))

/-- The files of targets. -/
def IsFile (file : String) : Prop :=
  file = Target.lockFile ∨ file = Target.stateFile

/-- A store holds a ledger: its objects are the files of the targets. -/
structure Holds (o : Objects) (s : Store.Memory.Objects) (l : Ledger) : Prop where
  proper : l.Proper
  files : ∀ target file, Target.isValid target → IsFile file →
    s.get? (o.keyOf target file) = l.bytes? target file
  keys : ∀ key bytes, s.get? key = some bytes → ∃ target file, Target.isValid target ∧
    IsFile file ∧ key = o.keyOf target file

theorem holds_empty (o : Objects) : o.Holds {} .empty :=
  ⟨Ledger.proper_empty, fun target file _ _ => by
    rw [Ledger.bytes?]
    split
    · rfl
    · split <;> rfl, nofun⟩

/-- A store holds another ledger when one file of a target is another one. -/
theorem Holds.replace (h : o.Holds s l) (hproper : l'.Proper) (hvalid : Target.isValid target)
    (hfile : IsFile file) {value : Option ByteArray} (hl : l.Replaces l' target file value)
    (hs : ∀ key, s'.get? key = if o.keyOf target file = key then value else s.get? key) :
    o.Holds s' l' := by
  refine ⟨hproper, fun target' file' hvalid' hfile' => ?_, fun key bytes hkey => ?_⟩
  · rw [hs, hl, h.files target' file' hvalid' hfile']
    simp only [keyOf_inj hvalid hvalid']
  · rw [hs] at hkey
    split at hkey
    · next he => exact ⟨target, file, hvalid, hfile, he.symm⟩
    · exact h.keys key bytes hkey

theorem Holds.hold (h : o.Holds s l) (hvalid : Target.isValid target)
    (hshows : lock.acquiredAt.Shows) :
    o.Holds (s.insert (o.keyOf target Target.lockFile) lock.toBytes) (l.hold target lock) :=
  h.replace (h.proper.hold hvalid hshows) hvalid (.inl rfl) (l.replaces_hold target lock)
    fun key => Dict.get?_insert s _ _ key

theorem Holds.free (h : o.Holds s l) (hvalid : Target.isValid target) :
    o.Holds (s.erase (o.keyOf target Target.lockFile)) (l.free target) :=
  h.replace (h.proper.free target) hvalid (.inl rfl) (l.replaces_free target)
    fun key => Dict.get?_erase s _ key

theorem Holds.put (h : o.Holds s l) (hvalid : Target.isValid target) (bytes : ByteArray) :
    o.Holds (s.insert (o.keyOf target Target.stateFile) bytes) (l.put target bytes) :=
  h.replace (h.proper.put hvalid bytes) hvalid (.inr rfl) (l.replaces_put target bytes)
    fun key => Dict.get?_insert s _ _ key

theorem Holds.drop (h : o.Holds s l) (hvalid : Target.isValid target) :
    o.Holds (s.erase (o.keyOf target Target.stateFile)) (l.drop target) :=
  h.replace (h.proper.drop target) hvalid (.inr rfl) (l.replaces_drop target)
    fun key => Dict.get?_erase s _ key

theorem Holds.lockFile (h : o.Holds s l) (hvalid : Target.isValid target) :
    s.get? (o.keyOf target Target.lockFile) = (l.locks.get? target).map Lock.toBytes :=
  (h.files target _ hvalid (.inl rfl)).trans (l.bytes?_lockFile target)

theorem Holds.stateFile (h : o.Holds s l) (hvalid : Target.isValid target) :
    s.get? (o.keyOf target Target.stateFile) = l.documents.get? target :=
  (h.files target _ hvalid (.inr rfl)).trans (l.bytes?_stateFile target)

/-! ## Locks -/

theorem Holds.readLock (h : o.Holds s l) (hvalid : Target.isValid target) :
    (readLock (o.keyOf target Target.lockFile)).run Memory.answer s =
      (.ok ((l.locks.get? target).map fun lock => (lock.toBytes, lock)), s) := by
  have hlock := h.lockFile hvalid
  cases hget : l.locks.get? target with
  | none =>
    rw [hget] at hlock
    have hanswer : Memory.answer (.get (o.keyOf target Target.lockFile)) s = (.ok none, s) := by
      rw [Memory.answer, hlock]
      rfl
    exact ends_eq (ends_ask_bind hanswer ⟨rfl, rfl⟩)
  | some lock =>
    rw [hget] at hlock
    exact readLock_run hlock (h.proper.ofBytes? hget)

theorem Holds.guard (h : o.Holds s l) (hvalid : Target.isValid target) (lock : Lock) :
    (o.guard target lock).run Memory.answer s =
      (verify target lock (l.locks.get? target), s) := by
  refine ends_eq (ends_bind.2 (ends_ofResult.2 ?_))
  rw [key_of_isValid hvalid]
  refine ends_bind_of_run (h.readLock hvalid) (ends_ofResult.2 ⟨?_, rfl⟩)
  rw [Option.map_map]
  exact congrArg (verify target lock) Option.map_id'

/-- A lock that is not stale is not given to anybody else. -/
theorem Holds.acquire_held (h : o.Holds s l) (hvalid : Target.isValid target) {staleAfter : Nat}
    (hlock : l.locks.get? target = some lock) (hstale : ¬lock.isStale caller.now staleAfter) :
    (o.acquire caller staleAfter target).run Memory.answer s =
      (.error (heldBy target lock), s) := by
  have hget := h.lockFile hvalid
  rw [hlock] at hget
  have hput : Memory.answer
      (.putIfAbsent (o.keyOf target Target.lockFile) (caller.lock 0).toBytes) s = (.ok false, s) :=
    if_pos (by rw [Dict.contains, hget]; rfl)
  refine ends_eq (ends_bind.2 (ends_ofResult.2 ?_))
  rw [key_of_isValid hvalid]
  refine ends_bind.2 (ends_ask_bind hput (ends_bind_of_run (h.readLock hvalid) ?_))
  rw [hlock]
  show Attempt.Ends _ (if lock.isStale caller.now staleAfter = true then _ else _) _ _
  rw [if_neg hstale]
  exact ⟨rfl, rfl⟩

theorem Holds.acquire (h : o.Holds s l) (hvalid : Target.isValid target) (hshows : caller.now.Shows)
    (staleAfter : Nat) : (o.acquire caller staleAfter target).Ends Memory.answer s
      (Follows o.Holds (l.acquire 1 caller staleAfter target)) := by
  have hlock := h.lockFile hvalid
  unfold Attempt.Ends Ledger.acquire
  cases hget : l.locks.get? target with
  | none =>
    rw [hget] at hlock
    rw [acquire_free hvalid hlock]
    exact ⟨rfl, h.hold hvalid hshows⟩
  | some current =>
    rw [hget] at hlock
    by_cases hstale : current.isStale caller.now staleAfter
    · rw [acquire_stale hvalid hlock (h.proper.ofBytes? hget) hstale]
      simp only [if_pos hstale]
      refine ⟨rfl, h.replace (h.proper.hold hvalid hshows) hvalid (.inl rfl)
        (l.replaces_hold target (caller.lock 1)) fun key => ?_⟩
      rw [Dict.get?_insert, Dict.get?_erase]
      split <;> rfl
    · rw [h.acquire_held hvalid hget hstale]
      simp only [if_neg hstale]
      exact ⟨rfl, h⟩

/-- The bytes of the record are those of a lock exactly if it has the token of the lock. -/
theorem Holds.lockFile_eq (h : o.Holds s l) (hvalid : Target.isValid target)
    (hgenuine : ∀ current, l.locks.get? target = some current → current.token = lock.token →
      current = lock) :
    s.get? (o.keyOf target Target.lockFile) = some lock.toBytes ↔
      (l.locks.get? target).map Lock.token = some lock.token := by
  rw [h.lockFile hvalid]
  cases hget : l.locks.get? target with
  | none => exact iff_of_false nofun nofun
  | some current =>
    simp only [Option.map_some, Option.some.injEq]
    constructor
    · intro hbytes
      have hread := h.proper.ofBytes? hget
      rw [hbytes, Lock.ofBytes?_toBytes] at hread
      obtain ⟨time, -, rfl⟩ := Option.map_eq_some_iff.1 hread
      rfl
    · intro htoken
      rw [hgenuine current hget htoken]

theorem Holds.release (h : o.Holds s l) (hvalid : Target.isValid target)
    (hgenuine : ∀ current, l.locks.get? target = some current → current.token = lock.token →
      current = lock) : (o.release target lock).Ends Memory.answer s
      (Follows o.Holds (l.change target lock (l.free target))) := by
  refine ends_bind.2 (ends_ofResult.2 ?_)
  rw [key_of_isValid hvalid, Ledger.change, verify]
  by_cases htoken : (l.locks.get? target).map Lock.token = some lock.token
  · have hanswer : Memory.answer
        (.deleteIfMatches (o.keyOf target Target.lockFile) lock.toBytes) s =
          (.ok true, s.erase (o.keyOf target Target.lockFile)) :=
      if_pos ((h.lockFile_eq hvalid hgenuine).2 htoken)
    rw [if_pos htoken]
    exact ends_ask_bind hanswer ⟨rfl, h.free hvalid⟩
  · have hanswer : Memory.answer
        (.deleteIfMatches (o.keyOf target Target.lockFile) lock.toBytes) s = (.ok false, s) :=
      if_neg fun hbytes => htoken ((h.lockFile_eq hvalid hgenuine).1 hbytes)
    have hread : ((l.locks.get? target).map fun lock => (lock.toBytes, lock)).map (·.2) =
        l.locks.get? target := by
      rw [Option.map_map]
      exact Option.map_id'
    rw [if_neg htoken]
    refine ends_ask_bind hanswer (ends_bind_of_run (h.readLock hvalid) ?_)
    rw [hread]
    exact ⟨rfl, h⟩

/-! ## Documents -/

theorem Holds.ends_guard_bind {f : Unit → Attempt Store.effects Unit} (h : o.Holds s l)
    (hvalid : Target.isValid target)
    (hf : (f ()).Ends Memory.answer s fun r s' => r = .ok () ∧ o.Holds s' l') :
    (o.guard target lock >>= f).Ends Memory.answer s
      (Follows o.Holds (l.change target lock l')) := by
  refine ends_bind.2 ?_
  unfold Attempt.Ends Ledger.change
  rw [h.guard hvalid lock]
  cases verify target lock (l.locks.get? target) with
  | ok u => exact hf
  | error e => exact ⟨rfl, h⟩

theorem Holds.persist (h : o.Holds s l) (hvalid : Target.isValid target) (bytes : ByteArray) :
    (o.persist target bytes lock).Ends Memory.answer s
      (Follows o.Holds (l.change target lock (l.put target bytes))) :=
  h.ends_guard_bind hvalid ⟨rfl, h.put hvalid bytes⟩

theorem Holds.delete (h : o.Holds s l) (hvalid : Target.isValid target) :
    (o.delete target lock).Ends Memory.answer s
      (Follows o.Holds (l.change target lock (l.drop target))) :=
  h.ends_guard_bind hvalid ⟨rfl, h.drop hvalid⟩

theorem Holds.load (h : o.Holds s l) (hvalid : Target.isValid target) :
    (o.load target).Ends Memory.answer s
      (Follows o.Holds (l.load o.manner.absent target, l)) := by
  have hanswer : Memory.answer (.get (o.keyOf target Target.stateFile)) s =
      (.ok (l.documents.get? target), s) := by
    rw [Memory.answer, h.stateFile hvalid]
  refine ends_bind.2 (ends_ofResult.2 ?_)
  rw [key_of_isValid hvalid, Ledger.load]
  refine ends_ask_bind hanswer ?_
  cases l.documents.get? target <;> exact ⟨rfl, h⟩

/-! ## The listing -/

theorem folderKey_ofPath (path : String) :
    (Store.folderKey (ofPath path).path).toList = (ofPath path).placeChars := by
  rw [Store.folderKey, ofPath, Text.trimBoth_trimBoth, placeChars]
  split <;> simp

/-- The files of a target show as a folder of its name. -/
theorem child?_keyOf (hplace : (Store.folderKey o.path).toList = o.placeChars)
    (hvalid : Target.isValid target) (file : String) :
    Store.Memory.child? (Store.folderKey o.path) (o.keyOf target file) = some ⟨target, .folder⟩ := by
  have hkey : (o.keyOf target file).toList =
      (Store.folderKey o.path).toList ++ (target.toList ++ '/' :: file.toList) := by
    rw [hplace]
    exact o.toList_keyOf target file
  exact Store.Memory.child?_eq_folder (Target.not_mem_of_isValid hvalid) hkey

theorem Holds.child? (h : o.Holds s l) (hplace : (Store.folderKey o.path).toList = o.placeChars)
    {key name : String} (hkey : s.get? key = some bytes) :
    Store.Memory.child? (Store.folderKey o.path) key = some ⟨name, .folder⟩ ↔
      Target.isValid name ∧ ∃ file, IsFile file ∧ key = o.keyOf name file := by
  constructor
  · intro hchild
    obtain ⟨target, file, hvalid, hisFile, rfl⟩ := h.keys key bytes hkey
    rw [child?_keyOf hplace hvalid] at hchild
    cases hchild
    exact ⟨hvalid, file, hisFile, rfl⟩
  · rintro ⟨hvalid, file, -, rfl⟩
    exact child?_keyOf hplace hvalid file

/-- The folders of a listing that hold a document. -/
theorem Holds.targets (h : o.Holds s l) {names : List String}
    (hvalid : ∀ name ∈ names, Target.isValid name) :
    (o.targets (names.map fun name => ⟨name, .folder⟩)).run Memory.answer s =
      (.ok (names.filter fun name => l.documents.contains name), s) := by
  induction names with
  | nil => rfl
  | cons name names ih =>
    have hname := hvalid name List.mem_cons_self
    have hholds : (o.holdsState name).run Memory.answer s =
        (.ok (l.documents.contains name), s) := by
      refine ends_eq (ends_bind.2 (ends_ofResult.2 ?_))
      rw [key_of_isValid hname]
      refine ⟨?_, rfl⟩
      show Except.ok ((s.get? _).isSome) = _
      rw [h.stateFile hname]
      rfl
    refine ends_eq (ends_bind_of_run hholds (ends_bind_of_run
      (ih fun other hother => hvalid other (List.mem_cons_of_mem _ hother)) ?_))
    rw [List.filter_cons]
    exact ⟨rfl, rfl⟩

theorem Holds.list (h : o.Holds s l) (hplace : (Store.folderKey o.path).toList = o.placeChars) :
    o.list.Ends Memory.answer s (Follows o.Holds (.ok l.documents.keys, l)) := by
  obtain ⟨names, hsorted, hlist, hnames⟩ := Store.Memory.list_eq_folders fun key bytes hkey => by
    obtain ⟨target, file, hvalid, hfile, hkeyOf⟩ := h.keys key bytes hkey
    exact ⟨target, (h.child? hplace hkey).2 ⟨hvalid, file, hfile, hkeyOf⟩⟩
  have hvalid : ∀ name ∈ names, Target.isValid name := by
    intro name hname
    obtain ⟨key, bytes, hkey, hchild⟩ := (hnames name).1 hname
    exact ((h.child? hplace hkey).1 hchild).1
  have hfilter : (names.filter fun name => l.documents.contains name) = l.documents.keys := by
    refine Dict.eq_keys (hsorted.filter _) fun name => ?_
    rw [List.mem_filter, Dict.contains_eq_true]
    refine and_iff_right_of_imp ?_
    rintro ⟨bytes, hbytes⟩
    have hname := h.proper.documents name bytes hbytes
    have hkey := (h.stateFile hname).trans hbytes
    exact (hnames name).2 ⟨_, bytes, hkey, (h.child? hplace hkey).2 ⟨hname, _, .inr rfl, rfl⟩⟩
  have hanswer : Memory.answer (.list o.path) s =
      (.ok (names.map fun name => ⟨name, .folder⟩), s) := by
    rw [Memory.answer, hlist]
  refine ends_ask_bind hanswer (ends_bind_of_run (h.targets hvalid) ?_)
  rw [hfilter, Dict.mergeSort_of_sorted (Dict.keys_sorted _)]
  exact ⟨rfl, h⟩

/-! ## All requests -/

/-- A name that is no target is refused before anything is asked of the store. -/
theorem perform_of_invalid {staleAfter : Nat} {r : Request} (htarget : r.target? = some target)
    (hvalid : ¬Target.isValid target) (s : Store.Memory.Objects) :
    (o.perform caller staleAfter r).run Memory.answer s = (.error (.invalidTarget target), s) := by
  have hkey {β : Type} (file : String) (f : String → Attempt Store.effects β) :
      (Attempt.ofResult (o.key target file) >>= f).run Memory.answer s =
        (.error (.invalidTarget target), s) := by
    refine Attempt.run_bind_error _ ?_
    rw [key, Target.check, if_neg hvalid]
    rfl
  cases r with
  | list => cases htarget
  | acquire t => cases htarget; exact hkey _ _
  | release t lock => cases htarget; exact hkey _ _
  | load t => cases htarget; exact hkey _ _
  | persist t bytes lock => cases htarget; exact Attempt.run_bind_error _ (hkey _ _)
  | delete t lock => cases htarget; exact Attempt.run_bind_error _ (hkey _ _)

theorem follows_of_invalid {r : Request} (o : Objects) (htarget : r.target? = some target)
    (hvalid : ¬Target.isValid target) {staleAfter : Nat} (h : o.Holds s l) :
    Follows o.Holds (.error (.invalidTarget target), l) (o.storage caller staleAfter r s).1
      (o.storage caller staleAfter r s).2 := by
  rw [storage, perform_of_invalid htarget hvalid]
  exact ⟨rfl, h⟩

/-- A store in memory answers as the ledger does that is in it. -/
theorem keeps (path : String) :
    Keeps (ofPath path).storage (ofPath path).manner (ofPath path).Holds fun _ _ => True where
  proper h := h.proper
  answers := by
    intro s l caller r staleAfter h hshows _ hgenuine
    by_cases hvalid : ∀ target, r.target? = some target → Target.isValid target
    · rw [Ledger.answer_of_valid l hvalid]
      cases r with
      | acquire target => exact h.acquire (hvalid target rfl) hshows staleAfter
      | release target lock =>
        exact h.release (hvalid target rfl) fun current => hgenuine target lock current rfl
      | load target => exact h.load (hvalid target rfl)
      | persist target bytes lock => exact h.persist (hvalid target rfl) bytes
      | delete target lock => exact h.delete (hvalid target rfl)
      | list => exact h.list (folderKey_ofPath path)
    · simp only [not_forall] at hvalid
      obtain ⟨target, htarget, hvalid⟩ := hvalid
      rw [Ledger.answer_of_invalid l htarget hvalid]
      exact (ofPath path).follows_of_invalid htarget hvalid h

end ClusterLedger.Backend.Objects
