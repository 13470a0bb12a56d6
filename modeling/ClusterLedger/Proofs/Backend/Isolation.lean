import ClusterLedger.Proofs.Backend.Place
import ClusterLedger.Proofs.Backend.Restrained
import ClusterLedger.Proofs.Disk.Siblings

/-!
# Targets beside each other

A call about one target touches nothing but what belongs to that target: in a folder some files of
known names in the folder of the target, in a store two objects. Calls about another target do not
notice it, as long as the way to the targets does not depend on them. In a folder this is said of
callers whose tokens have no slash: the private files of others may be anywhere.
-/
namespace ClusterLedger

namespace Store.Memory

variable {q : Request} {key key' : String} {s s' : Objects}

/-- A request about one object leaves the others alone. -/
theorem get?_answer_of_ne (h : q.IsAbout key) (hne : key ≠ key') (s : Objects) :
    (answer q s).2.get? key' = s.get? key' := by
  cases q with
  | get k => rfl
  | contains k => rfl
  | list path => exact h.elim
  | put k bytes =>
    obtain rfl : k = key := h
    exact (Dict.get?_insert ..).trans (if_neg hne)
  | delete k =>
    obtain rfl : k = key := h
    exact (Dict.get?_erase ..).trans (if_neg hne)
  | putIfAbsent k bytes =>
    obtain rfl : k = key := h
    rw [answer]
    split
    · rfl
    · exact (Dict.get?_insert ..).trans (if_neg hne)
  | deleteIfMatches k bytes =>
    obtain rfl : k = key := h
    rw [answer]
    split
    · exact (Dict.get?_erase ..).trans (if_neg hne)
    · rfl

/-- What a request about one object is answered, and leaves there, depends on that object. -/
theorem answer_congr (h : q.IsAbout key) (hs : s'.get? key = s.get? key) :
    (answer q s').1 = (answer q s).1 ∧ (answer q s').2.get? key = (answer q s).2.get? key := by
  cases q with
  | list path => exact h.elim
  | get k =>
    obtain rfl : k = key := h
    exact ⟨congrArg Except.ok hs, hs⟩
  | contains k =>
    obtain rfl : k = key := h
    refine ⟨?_, hs⟩
    rw [answer, answer, Dict.contains, Dict.contains, hs]
  | put k bytes =>
    obtain rfl : k = key := h
    refine ⟨rfl, ?_⟩
    simp only [answer, Dict.get?_insert, if_true]
  | delete k =>
    obtain rfl : k = key := h
    refine ⟨rfl, ?_⟩
    simp only [answer, Dict.get?_erase, if_true]
  | putIfAbsent k bytes =>
    obtain rfl : k = key := h
    rw [answer, answer, Dict.contains, Dict.contains, hs]
    split
    · exact ⟨rfl, hs⟩
    · exact ⟨rfl, by simp only [Dict.get?_insert, if_true]⟩
  | deleteIfMatches k bytes =>
    obtain rfl : k = key := h
    rw [answer, answer, hs]
    split
    · exact ⟨rfl, by simp only [Dict.get?_erase, if_true]⟩
    · exact ⟨rfl, hs⟩

/-- On stores with the same objects of some keys, a request about one of them is answered alike. -/
theorem answer_alike {Q : String → Prop} (hkey : Q key) (h : q.IsAbout key)
    (hs : ∀ k, Q k → s'.get? k = s.get? k) :
    (answer q s').1 = (answer q s).1 ∧
      ∀ k, Q k → (answer q s').2.get? k = (answer q s).2.get? k := by
  obtain ⟨hreply, hobject⟩ := answer_congr h (hs key hkey)
  refine ⟨hreply, fun k hk => ?_⟩
  by_cases hne : key = k
  · subst hne
    exact hobject
  · rw [get?_answer_of_ne h hne, get?_answer_of_ne h hne, hs k hk]

end Store.Memory

/-- No token of a call has a slash, so that its private files are in the folder of the target. -/
def Caller.Slashless (caller : Caller) : Prop :=
  ∀ k < 4, '/' ∉ (caller.token k).toList

namespace Backend

/-- The requests about locks, which make private files. -/
def Request.IsOfLock : Request → Prop
  | acquire _ | release _ _ => True
  | load _ | persist _ _ _ | delete _ _ | list => False

/-! ## In a folder -/

namespace Folder

open Disk (Entry Frame)
open Attempt

variable {root : Folder} {caller : Caller} {staleAfter : Nat} {r : Request} {α : Type}
  {P : Disk.Request → Prop} {target target' name token : String} {lock : Lock}
  {names : List String} {disk disk' : Entry}

theorem asks_ask {q : Disk.Request} (h : P q) : (ask q).Asks P :=
  Program.asks_one h _

/-- What is asked about files in the folder of a target. -/
abbrev AsksFor (root : Folder) (target : String) (names : List String)
    (a : Attempt Disk.effects α) : Prop :=
  a.Asks (Disk.Request.Concerns root.way target names)

theorem discard_asks (hn : name ∈ names) :
    root.AsksFor target names ((root.sub target).discard name) := by
  refine Asks.bind (asks_request (.removeFile hn)) fun reply => ?_
  cases reply with
  | ok u => exact asks_pure ()
  | error fault => cases fault <;> first | exact asks_pure () | exact asks_throw _

theorem readLock_asks (hn : name ∈ names) :
    root.AsksFor target names ((root.sub target).readLock name) := by
  refine Asks.bind (asks_request (.read hn)) fun reply => ?_
  cases reply with
  | ok bytes =>
    simp only
    cases Lock.ofBytes? bytes with
    | some lock => exact asks_pure _
    | none => exact asks_throw _
  | error fault => cases fault <;> first | exact asks_pure _ | exact asks_throw _

theorem create_asks (hn : name ∈ names) (hrecord : recordFile lock ∈ names)
    (hsingle : '/' ∉ lock.token.toList) :
    root.AsksFor target names ((root.sub target).create name lock) := by
  rw [create, locate_recordFile _ hsingle]
  refine Asks.bind (asks_ask (.write hrecord)) fun _ => ?_
  refine Asks.bind (asks_request (.link hrecord hn)) fun linked => ?_
  refine Asks.bind (discard_asks hrecord) fun _ => ?_
  cases linked with
  | ok u => exact asks_pure _
  | error fault => cases fault <;> first | exact asks_pure _ | exact asks_throw _

theorem take_asks {claim : Lock} (hlock : Target.lockFile ∈ names)
    (hclaim : claimFile claim ∈ names) (hsingle : '/' ∉ claim.token.toList) :
    root.AsksFor target names ((root.sub target).take claim token) := by
  rw [take, locate_claimFile _ hsingle]
  refine Asks.bind (asks_request (.rename hlock hclaim)) fun moved => ?_
  cases moved with
  | error fault => cases fault <;> first | exact asks_pure _ | exact asks_throw _
  | ok u =>
    refine Asks.bind (readLock_asks hclaim).outcome fun found => ?_
    refine Asks.ite (Asks.bind (discard_asks hclaim) fun _ => asks_pure _) ?_
    refine Asks.bind (asks_request (.link hclaim hlock)) fun restored => ?_
    refine Asks.bind (discard_asks hclaim) fun _ => ?_
    -- Only if the record is back in its place it is told what was found.
    split
    all_goals first
      | exact asks_throw _
      | refine Asks.bind (asks_ofResult found) fun found => ?_
    all_goals cases found <;> exact asks_pure _

/-! ### Locks -/

theorem breakMarked_asks (root : Folder) (target : String) (hcaller : caller.Slashless)
    (stale : Lock) :
    root.AsksFor target (callFiles caller)
      ((root.sub target).breakMarked target caller stale) := by
  have hlock : Target.lockFile ∈ callFiles caller := by simp [callFiles]
  have hclaim := claimFile_mem_callFiles caller (by decide : 2 < 4)
  refine Asks.bind (readLock_asks hlock) fun found => ?_
  cases found with
  | none => exact asks_pure ()
  | some current =>
    refine Asks.ite (asks_throw _) (Asks.bind (take_asks hlock hclaim (hcaller 2 (by decide)))
      fun taken => ?_)
    cases taken with
    | removed => exact asks_pure ()
    | missing => exact asks_pure ()
    | other lock => exact asks_throw _

theorem breakStale_asks (root : Folder) (target : String) (hcaller : caller.Slashless)
    (stale : Lock) :
    root.AsksFor target (callFiles caller)
      ((root.sub target).breakStale target caller stale) := by
  have hmarker : markerFile ∈ callFiles caller := by simp [callFiles]
  have hrecord := recordFile_mem_callFiles caller (by decide : 1 < 4)
  refine Asks.bind (create_asks hmarker hrecord (hcaller 1 (by decide))) fun created => ?_
  cases created with
  | true =>
    refine Asks.bind (breakMarked_asks root target hcaller stale).outcome fun result => ?_
    exact Asks.bind (discard_asks hmarker).outcome fun cleared => asks_ofResult _
  | false =>
    refine Asks.bind (readLock_asks hmarker) fun marker => ?_
    exact Asks.ite (Asks.bind (discard_asks hmarker) fun _ => asks_throw _) (asks_throw _)

theorem tryAcquire_asks (root : Folder) (target : String) (hcaller : caller.Slashless) {k : Nat}
    (hk : k < 4) (breaksAfter : Option Nat) : root.AsksFor target (callFiles caller)
      ((root.sub target).tryAcquire target caller (caller.lock k) breaksAfter) := by
  have hlock : Target.lockFile ∈ callFiles caller := by simp [callFiles]
  have hrecord := recordFile_mem_callFiles caller hk
  refine Asks.bind (create_asks hlock hrecord (hcaller k hk)) fun created => ?_
  refine Asks.ite (asks_pure _) (Asks.bind (readLock_asks hlock) fun found => ?_)
  cases found with
  | none => exact asks_pure _
  | some current =>
    exact Asks.ite (Asks.bind (breakStale_asks root target hcaller current) fun _ => asks_pure _)
      (asks_throw _)

/-! ### Operations -/

theorem asks_target_bind (hvalid : Target.isValid target = true)
    {f : Folder → Attempt Disk.effects α} (hf : (f (root.sub target)).Asks P) :
    (ofResult (root.target target) >>= f).Asks P := by
  rw [target_of_isValid hvalid]
  exact hf

theorem acquire_asks (root : Folder) (hcaller : caller.Slashless) (staleAfter : Nat)
    (hvalid : Target.isValid target = true) :
    root.AsksFor target (callFiles caller) (root.acquire caller staleAfter target) := by
  refine asks_target_bind hvalid (Asks.bind (asks_ask .makeFolder) fun _ => ?_)
  refine Asks.bind (tryAcquire_asks root target hcaller (by decide) _) fun first => ?_
  cases first with
  | some lock => exact asks_pure _
  | none =>
    refine Asks.bind (tryAcquire_asks root target hcaller (by decide) _) fun second => ?_
    cases second with
    | some lock => exact asks_pure _
    | none => exact asks_throw _

theorem release_asks (root : Folder) (hcaller : caller.Slashless)
    (hvalid : Target.isValid target = true) (lock : Lock) :
    root.AsksFor target (callFiles caller) (root.release caller target lock) := by
  have hlock : Target.lockFile ∈ callFiles caller := by simp [callFiles]
  have hstate : Target.stateFile ∈ callFiles caller := by simp [callFiles]
  have hclaim := claimFile_mem_callFiles caller (by decide : 0 < 4)
  refine asks_target_bind hvalid
    (Asks.bind (take_asks hlock hclaim (hcaller 0 (by decide))) fun taken => ?_)
  cases taken with
  | removed =>
    refine Asks.bind (asks_ask (.probe hstate)) fun holds => ?_
    exact Asks.ite (asks_pure _) (Asks.bind (asks_request .removeFolder) fun _ => asks_pure _)
  | missing => exact asks_throw _
  | other current => exact asks_throw _

theorem guard_asks (root : Folder) (target : String) (caller : Caller) (lock : Lock) :
    root.AsksFor target (callFiles caller) ((root.sub target).guard target lock) :=
  Asks.bind (readLock_asks (by simp [callFiles])) fun _ => asks_ofResult _

theorem load_asks (root : Folder) (caller : Caller) (hvalid : Target.isValid target = true) :
    root.AsksFor target (callFiles caller) (root.load target) := by
  refine asks_target_bind hvalid
    (Asks.bind (asks_request (.read (by simp [callFiles]))) fun reply => ?_)
  cases reply with
  | ok bytes => exact asks_pure _
  | error fault => cases fault <;> exact asks_throw _

theorem persist_asks (root : Folder) (caller : Caller) (hvalid : Target.isValid target = true)
    (bytes : ByteArray) (lock : Lock) :
    root.AsksFor target (callFiles caller) (root.persist target bytes lock) := by
  have hstate : Target.stateFile ∈ callFiles caller := by simp [callFiles]
  have hstaging : stagingFile ∈ callFiles caller := by simp [callFiles]
  have hbackup : backupFile ∈ callFiles caller := by simp [callFiles]
  refine asks_target_bind hvalid (Asks.bind (guard_asks root target caller lock) fun _ => ?_)
  refine Asks.bind (asks_ask (.write hstaging)) fun _ => ?_
  refine Asks.bind (asks_ask (.probe hstate)) fun holds => ?_
  have hrename := asks_ask (.rename hstaging hstate : Disk.Request.Concerns root.way target
    (callFiles caller) _)
  exact Asks.ite (Asks.bind (asks_ask (.copy hstate hbackup)) fun _ => hrename) hrename

theorem delete_asks (root : Folder) (caller : Caller) (hvalid : Target.isValid target = true)
    (lock : Lock) : root.AsksFor target (callFiles caller) (root.delete target lock) := by
  refine asks_target_bind hvalid (Asks.bind (guard_asks root target caller lock) fun _ => ?_)
  exact Asks.bind (discard_asks (by simp [callFiles])) fun _ => discard_asks (by simp [callFiles])

/-- A call about a target asks about its folder and about files of known names in it. -/
theorem perform_asks (root : Folder) (hcaller : r.IsOfLock → caller.Slashless)
    (staleAfter : Nat) (hr : r.About target) (hvalid : Target.isValid target = true) :
    root.AsksFor target (callFiles caller) (root.perform caller staleAfter r) := by
  cases hr with
  | acquire => exact acquire_asks root (hcaller trivial) staleAfter hvalid
  | release lock => exact release_asks root (hcaller trivial) hvalid lock
  | load => exact load_asks root caller hvalid
  | persist bytes lock => exact persist_asks root caller hvalid bytes lock
  | delete lock => exact delete_asks root caller hvalid lock

/-! ### What is kept -/

/-- A call about a target reaches only what it may. -/
theorem perform_frame (root : Folder) (hcaller : r.IsOfLock → caller.Slashless)
    (staleAfter : Nat) (hr : r.About target) (hvalid : Target.isValid target = true)
    (disk : Entry) :
    Frame root.way target (callFiles caller) disk
      ((root.perform caller staleAfter r).run Disk.answer disk).2 := by
  have hchains : Chains (Frame root.way target (callFiles caller)) :=
    ⟨Frame.refl root.way target (callFiles caller), Frame.trans⟩
  refine Program.Asks.run_keeps hchains (fun q disk hq => ?_)
    (perform_asks root hcaller staleAfter hr hvalid) disk
  have heffect := Disk.effect_of_answer (fun _ => plain_of_mem_callFiles) hq disk
  exact Disk.frame_of_effect (plain_of_isValid hvalid) heffect

/-- What a call about a target may change: what it reaches, and no files but those directly in the
folder of the target, unless a folder stands under one of their names. -/
structure OnlyChanges (root : Folder) (target : String) (names : List String)
    (disk disk' : Entry) : Prop where
  frame : Frame root.way target names disk disk'
  directly : Disk.Outside root.way →
    (∀ n ∈ names, disk.shape? (Disk.placeOf root.way ++ [target, n]) ≠ .ok none) →
      ∀ place, disk'.file? place = disk.file? place ∨
        ∃ n ∈ names, place = Disk.placeOf root.way ++ [target, n]

theorem perform_changes (root : Folder) (hcaller : r.IsOfLock → caller.Slashless)
    (staleAfter : Nat) (hr : r.About target) (hvalid : Target.isValid target = true)
    (disk : Entry) :
    root.OnlyChanges target (callFiles caller) disk
      ((root.perform caller staleAfter r).run Disk.answer disk).2 :=
  ⟨root.perform_frame hcaller staleAfter hr hvalid disk,
    (root.perform_frame hcaller staleAfter hr hvalid disk).file?_eq⟩

/-- No file of another target changes. -/
theorem file?_of_frame (hvalid : Target.isValid target' = true) (hne : target ≠ target')
    (h : Frame root.way target names disk disk') (file : String) :
    disk'.file? ((root.sub target').file file).place =
      disk.file? ((root.sub target').file file).place := by
  have hplace : ((root.sub target').file file).place = Disk.placeOf root.way ++ [target', file] := by
    show Disk.placeOf (root.way ++ [target']) ++ [file] = _
    rw [Disk.placeOf_of_plain (plain_of_isValid hvalid), List.append_assoc]
    rfl
  rw [hplace]
  -- The place is under no name in the other folder, and a folder that is made there is no file.
  rcases h.reached (Disk.placeOf root.way ++ [target', file]) with hsame | hreached
  · exact Entry.file?_of_shape? hsame
  · cases hreached with
    | @file n hn hbelow =>
      rw [List.prefix_append_right_inj, List.cons_prefix_cons] at hbelow
      exact absurd hbelow.1 hne
    | made hfront hat hmade => exact hmade.file?
    | removed hat before after =>
      have hlength := congrArg List.length hat
      simp at hlength

/-- A call about a target is not noticed by another one. -/
theorem perform_alike (root : Folder) (hcaller : r.IsOfLock → caller.Slashless)
    (staleAfter : Nat) (hr : r.About target) (hvalid : Target.isValid target = true)
    (hne : target ≠ target') (h : Disk.Settled root.way target' disk) :
    Disk.Alike root.way target' disk
      ((root.perform caller staleAfter r).run Disk.answer disk).2 := by
  -- Every step needs the target to be settled, which the step before has kept.
  have hchains : Chains fun disk disk' : Entry =>
      Disk.Settled root.way target' disk → Disk.Alike root.way target' disk disk' :=
    ⟨fun disk h => ⟨h, h, rfl⟩, fun h h' hsettled =>
      (h hsettled).trans (h' (h hsettled).settled')⟩
  refine Program.Asks.run_keeps hchains (fun q disk hq hsettled => ?_)
    (perform_asks root hcaller staleAfter hr hvalid) disk h
  exact Disk.alike_of_concerns (fun _ => plain_of_mem_callFiles) (plain_of_isValid hvalid) hne
    hsettled hq

/-- What a call about a target comes to depends on what stands in its place. -/
theorem perform_congr (root : Folder) (hcaller : r.IsOfLock → caller.Slashless)
    (staleAfter : Nat) (hr : r.About target) (hvalid : Target.isValid target = true)
    (h : Disk.Alike root.way target disk disk') :
    ((root.perform caller staleAfter r).run Disk.answer disk').1 =
      ((root.perform caller staleAfter r).run Disk.answer disk).1 := by
  have hstep (q : Disk.Request) (disk disk' : Entry)
      (hq : q.Concerns root.way target (callFiles caller))
      (halike : Disk.Alike root.way target disk disk') :=
    Disk.alike_answer (plain_of_isValid hvalid) halike (fun _ => plain_of_mem_callFiles) hq
  exact (Program.Asks.run_alike hstep (perform_asks root hcaller staleAfter hr hvalid) h).1

end Folder

/-! ## In a store -/

namespace Objects

open Store (Memory.answer)

variable {o : Objects} {r : Request} {target key : String} {s s' : Store.Memory.Objects}

/-- A request about the lock record or the document of a target. -/
def Concerns (o : Objects) (target : String) (q : Store.Request) : Prop :=
  q.IsAbout (o.keyOf target Target.lockFile) ∨ q.IsAbout (o.keyOf target Target.stateFile)

/-- The key of a file of a target. -/
def IsKey (o : Objects) (target key : String) : Prop :=
  ∃ file, o.keyOf target file = key

theorem perform_asks (o : Objects) (caller : Caller) (staleAfter : Nat) (hr : r.About target) :
    (o.perform caller staleAfter r).Asks (o.Concerns target) :=
  fun _ _ h e he => (trace_restrained h).keys target hr e he

/-- A call about a target changes no other objects. -/
theorem perform_get? (o : Objects) (caller : Caller) (staleAfter : Nat) (hr : r.About target)
    (hlock : key ≠ o.keyOf target Target.lockFile) (hstate : key ≠ o.keyOf target Target.stateFile)
    (s : Store.Memory.Objects) :
    ((o.perform caller staleAfter r).run Memory.answer s).2.get? key = s.get? key := by
  have hchains : Attempt.Chains fun s s' : Store.Memory.Objects => s'.get? key = s.get? key :=
    ⟨fun _ => rfl, fun h h' => h'.trans h⟩
  refine Program.Asks.run_keeps hchains (fun q s hq => ?_) (perform_asks o caller staleAfter hr) s
  rcases hq with hq | hq
  · exact Store.Memory.get?_answer_of_ne hq hlock.symm s
  · exact Store.Memory.get?_answer_of_ne hq hstate.symm s

/-- What a call about a target comes to depends on the objects of the target. -/
theorem perform_congr (caller : Caller) (staleAfter : Nat) (hr : r.About target)
    (hs : ∀ file, s'.get? (o.keyOf target file) = s.get? (o.keyOf target file)) :
    ((o.perform caller staleAfter r).run Memory.answer s').1 =
      ((o.perform caller staleAfter r).run Memory.answer s).1 := by
  have hstep (q : Store.Request) (s s' : Store.Memory.Objects) (hq : o.Concerns target q)
      (hs : ∀ k, o.IsKey target k → s'.get? k = s.get? k) :
      (Memory.answer q s').1 = (Memory.answer q s).1 ∧
        ∀ k, o.IsKey target k → (Memory.answer q s').2.get? k = (Memory.answer q s).2.get? k := by
    rcases hq with hq | hq
    · exact Store.Memory.answer_alike ⟨Target.lockFile, rfl⟩ hq hs
    · exact Store.Memory.answer_alike ⟨Target.stateFile, rfl⟩ hq hs
  refine (Program.Asks.run_alike hstep (perform_asks o caller staleAfter hr) ?_).1
  rintro - ⟨file, rfl⟩
  exact hs file

end Objects

/-! ## In either place -/

namespace Place

/-- Nothing has changed but what a call about a target may change: in a folder, files of the names
that a call uses, in the folder of the target, and this folder; in a store, two objects. -/
def OnlyChanges : (p : Place) → Caller → String → p.State → p.State → Prop
  | folder root, caller, target => root.OnlyChanges target (Folder.callFiles caller)
  | objects path, _, target => fun s s' => ∀ key,
    key ≠ (Objects.ofPath path).keyOf target Target.lockFile →
      key ≠ (Objects.ofPath path).keyOf target Target.stateFile → s'.get? key = s.get? key

/-- The way to a target does not depend on other targets: it does not lead through the folder of the
targets, and this is a folder, or there is none of it but no name on the way leads up or is too long. -/
def Straight : (p : Place) → p.State → String → Prop
  | folder root, disk, target => Disk.Settled root.way target disk
  | objects _, _, _ => True

/-- Whether the private files of a call are beside the other files of its target. -/
def Confines : Place → Caller → Request → Prop
  | folder _, caller, r => r.IsOfLock → caller.Slashless
  | objects _, _, _ => True

variable {p : Place} {s s' : p.State} {caller : Caller} {r : Request} {target target' : String}

/-- What a target does not notice: its lock record stays, and whatever is called comes to the same
as before. -/
structure Unnoticed (p : Place) (target : String) (s s' : p.State) : Prop where
  lockRecord : p.lockRecord? s' target = p.lockRecord? s target
  results : p.Straight s target → ∀ (caller : Caller) (staleAfter : Nat) (r : Request),
    p.Confines caller r → r.About target →
      (p.storage caller staleAfter r s').1 = (p.storage caller staleAfter r s).1

theorem About.target?_eq (h : r.About target) : r.target? = some target := by
  cases h <;> rfl

/-- What is no target is refused, and everything stays as it is. A call about a target changes what
belongs to it, and no other target notices it, as long as private files stay beside the others. -/
theorem isolates (p : Place) (caller : Caller) (staleAfter : Nat) (s : p.State)
    (hr : r.About target) :
    (¬Target.isValid target →
      p.storage caller staleAfter r s = (.error (.invalidTarget target), s)) ∧
    (Target.isValid target → p.Confines caller r →
      p.OnlyChanges caller target s (p.storage caller staleAfter r s).2 ∧
      ∀ target', Target.isValid target' → target' ≠ target →
        p.Unnoticed target' s (p.storage caller staleAfter r s).2) := by
  cases p with
  | folder root =>
    refine ⟨fun hvalid => Folder.perform_of_invalid (About.target?_eq hr) hvalid s,
      fun hvalid hcaller => ?_⟩
    have hchanges := root.perform_changes hcaller staleAfter hr hvalid s
    refine ⟨hchanges, fun target' hvalid' hne =>
      ⟨Folder.file?_of_frame hvalid' hne.symm hchanges.frame _,
        fun hsettled caller' staleAfter' r' hcaller' hr' => ?_⟩⟩
    exact root.perform_congr hcaller' staleAfter' hr' hvalid'
      (root.perform_alike hcaller staleAfter hr hvalid hne.symm hsettled)
  | objects path =>
    refine ⟨fun hvalid => Objects.perform_of_invalid (About.target?_eq hr) hvalid s,
      fun hvalid _ => ?_⟩
    have hchanges (key : String) (hlock) (hstate) :=
      @Objects.perform_get? r target key (Objects.ofPath path) caller staleAfter hr hlock hstate s
    have hkept (target' file : String) (hvalid' : Target.isValid target') (hne : target' ≠ target) :=
      hchanges ((Objects.ofPath path).keyOf target' file)
        (fun he => hne ((Objects.keyOf_inj hvalid' hvalid).1 he).1)
        (fun he => hne ((Objects.keyOf_inj hvalid' hvalid).1 he).1)
    refine ⟨hchanges, fun target' hvalid' hne => ⟨hkept target' _ hvalid' hne,
      fun _ caller' staleAfter' r' _ hr' => ?_⟩⟩
    exact Objects.perform_congr caller' staleAfter' hr' fun file => hkept target' file hvalid' hne

theorem slashless_reader : reader.Slashless :=
  fun _ _ => (by decide : '/' ∉ "".toList)

/-- A disk with a document of one target. -/
def oneDocument : Disk.Entry :=
  .folder [("b", .folder [("main.tf.json", .file ByteArray.empty)])]

theorem isolates_acquire :
    (folder ⟨[], "."⟩).OnlyChanges reader "prod" oneDocument
        ((folder ⟨[], "."⟩).storage reader 0 (.acquire "prod") oneDocument).2 ∧
      ((folder ⟨[], "."⟩).storage reader 0 (.load "b")
          ((folder ⟨[], "."⟩).storage reader 0 (.acquire "prod") oneDocument).2).1 =
        .ok ByteArray.empty := by
  obtain ⟨hchanges, hothers⟩ :=
    (isolates (folder ⟨[], "."⟩) reader 0 oneDocument (.acquire : Request.About "prod" _)).2
      (by decide) fun _ => slashless_reader
  have hstraight : (folder ⟨[], "."⟩).Straight oneDocument "b" :=
    ⟨Disk.outside_of_descends (by decide), .inr (by decide)⟩
  exact ⟨hchanges, (hothers "b" (by decide) (by decide)).results hstraight reader 0 _ nofun .load⟩

/-- A name that is too long is not noticed before there is a folder. -/
theorem load_of_long (hvalid : Target.isValid target = true)
    (hlong : Disk.nameLimit < target.utf8ByteSize)
    (hcheck : Disk.Entry.check ["s", target, Target.stateFile] = .ok ()) :
    (folder ⟨["s"], "s"⟩).load (.folder []) target = .error (.missing (.snapshot target)) ∧
      (folder ⟨["s"], "s"⟩).load
          ((folder ⟨["s"], "s"⟩).storage reader 0 (.acquire "prod") (.folder [])).2 target =
        .error (.disk .nameTooLong) := by
  have hload (disk : Disk.Entry) {fault : Disk.Fault}
      (hlook : disk.look? ⟨["s", target], Target.stateFile⟩ = .error fault) :
      (folder ⟨["s"], "s"⟩).load disk target = Folder.documentOf target (.error fault) := by
    have hread : Disk.read disk ⟨["s", target], Target.stateFile⟩ = .error fault := by
      rw [Disk.read, hlook]
    show ((Folder.load ⟨["s"], "s"⟩ target).run Disk.answer disk).1 = _
    rw [← hread, Folder.load_run, Folder.document, Folder.target_of_isValid hvalid]
    rfl
  have hbefore : Disk.Entry.look? (.folder []) ⟨["s", target], Target.stateFile⟩ =
      .error .missing := by
    have hfollow : Disk.Entry.follow? (.folder []) ["s", target, Target.stateFile] =
        .error .missing :=
      Disk.Entry.follow?_of_check hcheck
    simp only [Disk.Entry.look?, Disk.Location.way, List.cons_append, List.nil_append, hfollow]
  obtain ⟨es, hroot⟩ : ∃ es, Disk.Entry.LeadsTo
      ((folder ⟨["s"], "s"⟩).storage reader 0 (.acquire "prod") (.folder [])).2 ["s"] es :=
    ⟨_, rfl, rfl⟩
  have hafter := hroot.look?_of_long (Folder.plain_of_isValid hvalid) hlong hcheck
  exact ⟨hload _ hbefore, hload _ hafter⟩

/-- A disk where a folder stands in the place of a record. -/
def recordFolder : Disk.Entry :=
  .folder [("prod", .folder [("lock.json", .folder [("x", .file ByteArray.empty)])])]

/-- A lock of one target is noticed by another one if the way to both leads through the first, or if
the other has a name that is too long for the folder that is made. A folder in the place of a record
is moved with what is in it. -/
theorem calls_noticed :
    ((folder ⟨["prod", ".."], "prod/.."⟩).load oneDocument "b" =
        .error (.missing (.snapshot "b")) ∧
      (folder ⟨["prod", ".."], "prod/.."⟩).load
          ((folder ⟨["prod", ".."], "prod/.."⟩).storage reader 0 (.acquire "prod") oneDocument).2
          "b" = .ok ByteArray.empty) ∧
    ((folder ⟨["s"], "s"⟩).load (.folder []) (lettered 300) =
        .error (.missing (.snapshot (lettered 300))) ∧
      (folder ⟨["s"], "s"⟩).load
          ((folder ⟨["s"], "s"⟩).storage reader 0 (.acquire "prod") (.folder [])).2 (lettered 300) =
        .error (.disk .nameTooLong)) ∧
    (Disk.Entry.file? recordFolder ["prod", "lock.json", "x"] = some ByteArray.empty ∧
      Disk.Entry.file? ((folder ⟨[], "."⟩).storage reader 0
        (.release "prod" ⟨"ann", 1, "t", ⟨0, 0⟩⟩) recordFolder).2
          ["prod", "lock.json", "x"] = none) := by
  refine ⟨⟨rfl, rfl⟩, load_of_long (isValid_lettered (Nat.zero_lt_succ 299)) ?_ ?_, rfl, rfl⟩
  · rw [utf8ByteSize_lettered]
    decide
  · exact check_lettered (by decide) (by decide) (by decide)

end Place

end Backend

end ClusterLedger
