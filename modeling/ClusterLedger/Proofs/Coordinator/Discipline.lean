import ClusterLedger.Proofs.Coordinator.Course
import ClusterLedger.Proofs.Except

/-!
# Commit discipline

Whatever a backend and a provisioner answer, a run writes only while it holds the lock, at most
once, and only after the provisioner made real what is written.
-/
namespace ClusterLedger.Coordinator

open Program (Event)

variable {α σ : Type}

/-! ## What a call is -/

/-- Whether a call takes a lock or gives one up. -/
def Call.movesLock : Call → Bool
  | storage (.acquire _) | storage (.release _ _) => true
  | _ => false

/-- Whether a call changes a stored document. -/
def Call.isWrite : Call → Bool
  | storage (.persist _ _ _) | storage (.delete _ _) => true
  | _ => false

/-- Whether a run goes on after a call: a load has to lead to a plan, so a mutation or a selection
that fails counts here. -/
def Operation.Succeeds (op : Operation α) (target : String) : Event effects → Prop
  | ⟨.storage (.load _), reply⟩ => ∃ p, op.plan target reply = .ok p
  | ⟨.storage (.acquire _), reply⟩ => ∃ lock, reply = .ok lock
  | ⟨.storage (.release _ _), reply⟩ => reply = .ok ()
  | ⟨.storage (.persist _ _ _), reply⟩ => reply = .ok ()
  | ⟨.storage (.delete _ _), reply⟩ => reply = .ok ()
  | ⟨.storage .list, reply⟩ => ∃ names, reply = .ok names
  | ⟨.provision _, reply⟩ => reply = .ok ()

/-- What has to have happened before a write for a lock: the provisioner succeeded with the bytes
that are stored, or with taking down what is no longer stored. -/
def Operation.Justifies (target : String) (lock : Lock) (before : List (Event effects)) (c : Call) :
    {α : Type} → Operation α → Prop
  | _, apply _ _ => ∃ bytes, c = .storage (.persist target bytes lock) ∧
      ⟨.provision (.apply bytes), .ok ()⟩ ∈ before
  | _, destroyTarget => ∃ stored document, c = .storage (.delete target lock) ∧
      ⟨.storage (.load target), .ok stored⟩ ∈ before ∧ Document.load stored = .ok document ∧
      ⟨.provision (.destroy document.bytes []), .ok ()⟩ ∈ before
  | _, destroyModules _ => ∃ stored document names,
      c = .storage (.persist target (document.removeAll names).bytes lock) ∧
      ⟨.storage (.load target), .ok stored⟩ ∈ before ∧ Document.load stored = .ok document ∧
      ⟨.provision (.destroy document.bytes names), .ok ()⟩ ∈ before

/-- The discipline that the calls of a run and its result keep. -/
structure Operation.Disciplined (op : Operation α) (target : String) (calls : List (Event effects))
    (result : Result (Outcome α)) : Prop where
  /-- Nobody is asked anything about a name that is no target. -/
  refuses : ¬Target.isValid target → calls = []
  /-- The lock is asked for first, and nothing happens without it. -/
  acquires : Target.isValid target → ∃ reply rest,
    calls = ⟨.storage (.acquire target), reply⟩ :: rest ∧ ∀ e, reply = .error e → rest = []
  /-- The lock that was taken is given up once, and that is the last call. -/
  releases : ∀ lock, ⟨.storage (.acquire target), .ok lock⟩ ∈ calls → ∃ work released,
    calls = around target lock released work ∧ ∀ e ∈ work, ¬e.1.movesLock
  writesOnce : (calls.countP fun e => e.1.isWrite) ≤ 1
  justified : ∀ before e after, calls = before ++ e :: after → e.1.isWrite → ∃ lock,
    ⟨.storage (.acquire target), .ok lock⟩ ∈ before ∧ op.Justifies target lock before e.1
  /-- Where something is written, only the write and giving up the lock can have failed. -/
  unwritten : ∀ e ∈ calls, ¬op.Succeeds target e → (∃ w ∈ calls, w.1.isWrite) →
    e.1.isWrite ∨ ∃ lock, e.1 = .storage (.release target lock)
  succeeds : (∃ outcome, result = .ok outcome) ↔
    Target.isValid target ∧ ∀ e ∈ calls, op.Succeeds target e
  /-- A lock that could not be given up shows in the result. -/
  unreleased : ∀ lock c, ⟨.storage (.release target lock), .error c⟩ ∈ calls →
    result = .error c ∨ ∃ e, result = .error (.cleanup e c)

/-! ## The calls of the work -/

section Work

variable {op : Operation α} {target : String} {lock : Lock} {es : List (Event effects)}
  {r : Result (Outcome α)}

theorem Write.not_movesLock_event (w : Write) (answer : Result Unit) :
    ¬(w.event target lock answer).1.movesLock := by
  cases w <;> exact Bool.false_ne_true

theorem Operation.succeeds_load {reply : Result ByteArray} :
    op.Succeeds target ⟨.storage (.load target), reply⟩ ↔ ∃ p, op.plan target reply = .ok p :=
  Iff.rfl

theorem Operation.succeeds_provision {r : Provisioner.Request} :
    op.Succeeds target ⟨.provision r, .ok ()⟩ :=
  rfl

theorem Operation.not_succeeds_provision {r : Provisioner.Request} {e : Error} :
    ¬op.Succeeds target ⟨.provision r, .error e⟩ :=
  nofun

theorem Operation.succeeds_write {w : Write} {answer : Result Unit} :
    op.Succeeds target (w.event target lock answer) ↔ answer = .ok () := by
  cases w <;> rfl

theorem Operation.Progress.not_movesLock (h : op.Progress target lock es r) :
    ∀ e ∈ es, ¬e.1.movesLock := by
  have hw := @Write.not_movesLock_event target lock
  cases h <;> simp_all [Call.movesLock]

/-- What is written comes last, when the plan was provisioned. -/
theorem Operation.Progress.eq_of_isWrite (h : op.Progress target lock es r) {e : Event effects}
    (he : e ∈ es) (hw : e.1.isWrite) :
    ∃ reply p answer, op.plan target reply = .ok p ∧ e = p.write.event target lock answer ∧
      es = [⟨.storage (.load target), reply⟩, ⟨.provision p.change, .ok ()⟩, e] := by
  cases h with
  | unprepared h => cases List.mem_singleton.1 he; cases hw
  | discarded h cause =>
    rcases List.mem_cons.1 he with rfl | he
    · cases hw
    · cases List.mem_singleton.1 he; cases hw
  | @written reply p h answer =>
    rcases List.mem_cons.1 he with rfl | he
    · cases hw
    rcases List.mem_cons.1 he with rfl | he
    · cases hw
    cases List.mem_singleton.1 he
    exact ⟨reply, p, answer, h, rfl, rfl⟩

theorem Operation.Progress.countP_isWrite (h : op.Progress target lock es r) :
    (es.countP fun e => e.1.isWrite) ≤ 1 := by
  cases h with
  | unprepared h => exact Nat.zero_le 1
  | discarded h e => exact Nat.zero_le 1
  | written h answer =>
    rw [List.countP_cons_of_neg Bool.false_ne_true, List.countP_cons_of_neg Bool.false_ne_true]
    exact List.countP_le_length

/-- Work has a result exactly when no call stopped it. -/
theorem Operation.Progress.succeeds_iff (h : op.Progress target lock es r) :
    (∃ outcome, r = .ok outcome) ↔ ∀ e ∈ es, op.Succeeds target e := by
  cases h with
  | unprepared h => simp [succeeds_load, h]
  | discarded h e => simpa [succeeds_load, h] using not_succeeds_provision
  | written h answer =>
    cases answer with
    | error e => simp [succeeds_write, Except.mapError_error, Except.map]
    | ok u =>
      simpa [succeeds_load, succeeds_write, h, Except.mapError_ok, Except.map] using
        succeeds_provision

theorem Operation.Progress.unwritten (h : op.Progress target lock es r) {e w : Event effects}
    (he : e ∈ es) (hw : w ∈ es) (hwrite : w.1.isWrite) (hstop : ¬op.Succeeds target e) :
    e.1.isWrite := by
  obtain ⟨reply, p, answer, hplan, -, rfl⟩ := h.eq_of_isWrite hw hwrite
  rcases List.mem_cons.1 he with rfl | he
  · exact absurd (succeeds_load.2 ⟨p, hplan⟩) hstop
  rcases List.mem_cons.1 he with rfl | he
  · exact absurd succeeds_provision hstop
  cases List.mem_singleton.1 he
  exact hwrite

theorem loaded_requireExisting {reply : Result ByteArray} {document : Document}
    (h : loaded .requireExisting reply = .ok document) :
    ∃ stored, reply = .ok stored ∧ Document.load stored = .ok document := by
  cases reply with
  | ok stored => exact ⟨stored, rfl, h⟩
  | error e => simp [loaded] at h

/-- A plan that was provisioned justifies its write. -/
theorem Operation.justifies_of_plan {reply : Result ByteArray} {p : Plan α} {answer : Result Unit}
    {before : List (Event effects)} (h : op.plan target reply = .ok p)
    (hload : ⟨.storage (.load target), reply⟩ ∈ before)
    (hprov : ⟨.provision p.change, .ok ()⟩ ∈ before) :
    op.Justifies target lock before (p.write.event target lock answer).1 := by
  obtain ⟨document, hdoc, hp⟩ := Except.bind_eq_ok.1 h
  cases op with
  | apply mode change =>
    obtain ⟨value, -, rfl⟩ := Except.map_eq_ok.1 hp
    exact ⟨_, rfl, hprov⟩
  | destroyTarget =>
    obtain ⟨stored, rfl, hstored⟩ := loaded_requireExisting hdoc
    cases hp
    exact ⟨stored, document, rfl, hload, hstored, hprov⟩
  | destroyModules select =>
    obtain ⟨stored, rfl, hstored⟩ := loaded_requireExisting hdoc
    obtain ⟨selected, -, rfl⟩ := Except.map_eq_ok.1 hp
    exact ⟨stored, document, selected, rfl, hload, hstored, hprov⟩

end Work

/-! ## The calls of a run -/

section Run

variable {op : Operation α} {target : String} {calls : List (Event effects)}
  {result : Result (Outcome α)}

theorem settle_eq_ok {r : Result α} {released : Result Unit} {a : α} :
    settle r released = .ok a ↔ r = .ok a ∧ released = .ok () := by
  cases r <;> cases released <;> simp [settle]

theorem settle_error (r : Result α) (c : Error) :
    settle r (.error c) = .error c ∨ ∃ e, settle r (.error c) = .error (.cleanup e c) := by
  cases r with
  | ok a => exact .inl rfl
  | error e => exact .inr ⟨e, rfl⟩

/-- A run that acquired its lock is one that worked under it. -/
theorem Operation.Course.locked_of_mem (h : op.Course target calls result) {lock : Lock}
    (hm : ⟨.storage (.acquire target), .ok lock⟩ ∈ calls) :
    ∃ es r released, op.Progress target lock es r ∧ calls = around target lock released es ∧
      result = settle r released := by
  cases h with
  | refused h => cases hm
  | unlocked h e => cases List.mem_singleton.1 hm
  | @locked h lock' es r work released =>
    rcases mem_around.1 hm with he | he | he
    · cases he
      exact ⟨es, r, released, work, rfl, rfl⟩
    · exact absurd rfl (work.not_movesLock _ he)
    · cases he

theorem mem_work_of_isWrite {lock : Lock} {released : Result Unit}
    {work : List (Event effects)} {e : Event effects} (he : e ∈ around target lock released work)
    (hw : e.1.isWrite) : e ∈ work := by
  rcases mem_around.1 he with rfl | he | rfl
  · cases hw
  · exact he
  · cases hw

/-- Where one element only satisfies `p`, nothing but the list before it stands before it. -/
theorem eq_of_split {β : Type} {p : β → Bool} {xs ys before after : List β} {w e : β}
    (h : xs ++ w :: ys = before ++ e :: after) (hxs : ∀ x ∈ xs, ¬p x) (hys : ∀ y ∈ ys, ¬p y)
    (he : p e) : before = xs := by
  induction xs generalizing before with
  | nil =>
    cases before with
    | nil => rfl
    | cons b bs =>
      rw [List.nil_append, List.cons_append, List.cons.injEq] at h
      have : e ∈ ys := h.2 ▸ List.mem_append_right bs List.mem_cons_self
      exact absurd he (hys e this)
  | cons x xs ih =>
    cases before with
    | nil =>
      rw [List.cons_append, List.nil_append, List.cons.injEq] at h
      exact absurd he (h.1 ▸ hxs x List.mem_cons_self)
    | cons b bs =>
      rw [List.cons_append, List.cons_append, List.cons.injEq] at h
      rw [h.1, ih h.2 fun x hx => hxs x (List.mem_cons_of_mem _ hx)]

theorem Operation.Course.justified (h : op.Course target calls result)
    {before after : List (Event effects)} {e : Event effects} (hc : calls = before ++ e :: after)
    (hw : e.1.isWrite) : ∃ lock, ⟨.storage (.acquire target), .ok lock⟩ ∈ before ∧
      op.Justifies target lock before e.1 := by
  have he : e ∈ calls := hc ▸ List.mem_append_right before List.mem_cons_self
  cases h with
  | refused h => cases he
  | unlocked h e => cases List.mem_singleton.1 he; cases hw
  | locked h lock work released =>
    obtain ⟨reply, p, answer, hplan, rfl, rfl⟩ := work.eq_of_isWrite (mem_work_of_isWrite he hw) hw
    -- The write comes behind the acquisition, the load and the provisioning.
    have hbefore : before = [⟨.storage (.acquire target), .ok lock⟩,
        ⟨.storage (.load target), reply⟩, ⟨.provision p.change, .ok ()⟩] :=
      eq_of_split (p := fun e => e.1.isWrite) hc (by simp [Call.isWrite])
        (by simp [Call.isWrite]) hw
    rw [hbefore]
    exact ⟨lock, by simp, justifies_of_plan hplan (by simp) (by simp)⟩

theorem Operation.Course.unwritten (h : op.Course target calls result) {e w : Event effects}
    (he : e ∈ calls) (hstop : ¬op.Succeeds target e) (hw : w ∈ calls) (hwrite : w.1.isWrite) :
    e.1.isWrite ∨ ∃ lock, e.1 = .storage (.release target lock) := by
  cases h with
  | refused h => cases he
  | unlocked h e => cases List.mem_singleton.1 hw; cases hwrite
  | locked h lock work released =>
    rcases mem_around.1 he with rfl | he | rfl
    · exact absurd ⟨lock, rfl⟩ hstop
    · exact .inl (work.unwritten he (mem_work_of_isWrite hw hwrite) hwrite hstop)
    · exact .inr ⟨lock, rfl⟩

theorem Operation.Course.succeeds (h : op.Course target calls result) :
    (∃ outcome, result = .ok outcome) ↔
      Target.isValid target ∧ ∀ e ∈ calls, op.Succeeds target e := by
  cases h with
  | refused h => simp [h]
  | unlocked h e => simp [Succeeds]
  | locked h lock work released =>
    simp only [settle_eq_ok, exists_and_right, work.succeeds_iff, h, true_and, mem_around]
    constructor
    · rintro ⟨hwork, rfl⟩ e (rfl | he | rfl)
      · exact ⟨lock, rfl⟩
      · exact hwork e he
      · rfl
    · intro hall
      exact ⟨fun e he => hall e (.inr (.inl he)), hall _ (.inr (.inr rfl))⟩

theorem Operation.Course.disciplined (h : op.Course target calls result) :
    op.Disciplined target calls result where
  refuses hv := by
    cases h with
    | refused h => rfl
    | unlocked h e => exact absurd h hv
    | locked h lock work released => exact absurd h hv
  acquires hv := by
    cases h with
    | refused h => exact absurd hv h
    | unlocked h e => exact ⟨.error e, [], rfl, fun _ _ => rfl⟩
    | locked h lock work released => exact ⟨.ok lock, _, rfl, nofun⟩
  releases lock hm := by
    obtain ⟨es, r, released, work, rfl, -⟩ := h.locked_of_mem hm
    exact ⟨es, released, rfl, work.not_movesLock⟩
  writesOnce := by
    cases h with
    | refused h => exact Nat.zero_le 1
    | unlocked h e => exact Nat.zero_le 1
    | locked h lock work released =>
      simpa [around, List.countP_append, Call.isWrite] using work.countP_isWrite
  justified _ _ _ hc hw := h.justified hc hw
  unwritten _ he hstop := fun ⟨_, hw, hwrite⟩ => h.unwritten he hstop hw hwrite
  succeeds := h.succeeds
  unreleased lock c hm := by
    cases h with
    | refused h => cases hm
    | unlocked h e => cases List.mem_singleton.1 hm
    | @locked h lock' es r work released =>
      rcases mem_around.1 hm with he | he | he
      · cases he
      · exact absurd rfl (work.not_movesLock _ he)
      · cases he
        exact settle_error r c

end Run

/-- Every run keeps the discipline, whatever its backend and its provisioner answer. -/
theorem Operation.run_disciplined (op : Operation α) (target : String)
    (answer : (c : Call) → σ → Result c.Yield × σ) (s : σ) :
    op.Disciplined target ((op.run target).program.calls answer s)
      ((op.run target).run answer s).1 :=
  (trace_run (Program.trace_calls answer _ s)).disciplined

end ClusterLedger.Coordinator
