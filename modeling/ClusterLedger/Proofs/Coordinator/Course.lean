import ClusterLedger.Coordinator
import ClusterLedger.Proofs.Trace

/-!
# The course of a run

All runs have one form: under the lock they load, make a plan, have it provisioned and write. So a
run has few courses, whatever a backend and a provisioner answer.
-/
namespace ClusterLedger.Coordinator

open Program (Event)

variable {α σ : Type}

/-! ## Operations -/

/-- What can be done with a target. -/
inductive Operation : Type → Type 1
  | apply {α : Type} (mode : Mode) (change : Change α) : Operation α
  | destroyTarget : Operation (List String)
  | destroyModules (select : Document → Result (List String)) : Operation (List String)

/-- The run of an operation on a target. -/
def Operation.run (target : String) : {α : Type} → Operation α → Attempt effects (Outcome α)
  | _, apply mode change => Coordinator.apply target mode change
  | _, destroyTarget => Coordinator.destroyTarget target
  | _, destroyModules select => Coordinator.destroyModules target select

/-- What is done with the stored document in the end. -/
inductive Write where
  | persist (bytes : ByteArray)
  | delete

/-- What a run is about to do once it knows the document. -/
structure Plan (α : Type) where
  change : Provisioner.Request
  write : Write
  outcome : Outcome α

/-- What becomes of a target without a document. -/
def Operation.mode : {α : Type} → Operation α → Mode
  | _, apply mode _ => mode
  | _, destroyTarget => .requireExisting
  | _, destroyModules _ => .requireExisting

/-- What a run is about to do with a document: the mutation or the selection can fail. -/
def Operation.intend (target : String) : {α : Type} → Operation α → Document → Result (Plan α)
  | _, apply _ change, d => (change d).1.map fun value =>
    ⟨.apply (change d).2.bytes, .persist (change d).2.bytes, ⟨(change d).2, value⟩⟩
  | _, destroyTarget, d => .ok ⟨.destroy d.bytes [], .delete, ⟨.empty, d.moduleNames⟩⟩
  | _, destroyModules select, d => ((select d).bind (d.expandSelection target)).map fun selected =>
    ⟨.destroy d.bytes selected, .persist (d.removeAll selected).bytes,
      ⟨d.removeAll selected, selected⟩⟩

/-- What a run is about to do after the answer to its load, or why it does nothing. -/
def Operation.plan (target : String) (op : Operation α) (reply : Result ByteArray) :
    Result (Plan α) :=
  (loaded op.mode reply).bind (op.intend target)

/-- Makes a write for a lock. -/
def store (target : String) (lock : Lock) : Write → Attempt effects Unit
  | .persist bytes => commit target (.persist target bytes lock)
  | .delete => commit target (.delete target lock)

/-- What an operation does while it holds the lock. -/
def Operation.work (op : Operation α) (target : String) (lock : Lock) :
    Attempt effects (Outcome α) := do
  let reply ← (ask (.storage (.load target))).outcome
  let plan ← Attempt.ofResult (op.plan target reply)
  provision plan.change
  store target lock plan.write
  return plan.outcome

/-! ## One form of all runs -/

theorem locked_congr {target : String} {f g : Lock → Attempt effects α}
    (h : Target.check target = .ok () → ∀ lock, f lock = g lock) :
    locked target f = locked target g := by
  cases hc : Target.check target with
  | error e => rw [locked, locked, hc]; rfl
  | ok u =>
    have hfg : f = g := funext (h hc)
    rw [hfg]

theorem load_of_target {target : String} (h : Target.check target = .ok ()) (mode : Mode) :
    load target mode =
      (ask (.storage (.load target))).outcome >>= fun r => Attempt.ofResult (loaded mode r) := by
  rw [load, h]
  rfl

/-- Every run does the work of its operation under the lock of its target. -/
theorem Operation.run_eq (op : Operation α) (target : String) :
    op.run target = locked target (op.work target) := by
  cases op with
  | apply mode change =>
    refine locked_congr fun h lock => ?_
    rw [load_of_target h, bind_assoc, work]
    congr 1
    funext reply
    simp only [plan, Operation.mode]
    cases loaded mode reply with
    | error e => rfl
    | ok document =>
      simp only [Except.bind, intend, Attempt.ofResult_ok_bind]
      rcases change document with ⟨_ | value, changed⟩ <;> rfl
  | destroyTarget =>
    refine locked_congr fun h lock => ?_
    rw [load_of_target h, bind_assoc, work]
    congr 1
    funext reply
    simp only [plan, Operation.mode]
    cases loaded .requireExisting reply <;> rfl
  | destroyModules select =>
    refine locked_congr fun h lock => ?_
    rw [load_of_target h, bind_assoc, work]
    congr 1
    funext reply
    simp only [plan, Operation.mode]
    cases loaded .requireExisting reply with
    | error e => rfl
    | ok document =>
      simp only [Except.bind, intend, Attempt.ofResult_ok_bind]
      cases select document with
      | error e => rfl
      | ok names =>
        dsimp only
        cases document.expandSelection target names <;> rfl

/-! ## The traces of a run -/

theorem trace_call {c : Call} {es : List (Event effects)} {r : Result c.Yield} :
    Attempt.Trace (ask c) es r ↔ es = [⟨c, r⟩] :=
  Program.trace_request

/-- A write with its answer. -/
def Write.event (target : String) (lock : Lock) (answer : Result Unit) : Write → Event effects
  | persist bytes => ⟨.storage (.persist target bytes lock), answer⟩
  | delete => ⟨.storage (.delete target lock), answer⟩

theorem trace_store {target : String} {lock : Lock} {w : Write} {es : List (Event effects)}
    {r : Result Unit} :
    Attempt.Trace (store target lock w) es r ↔
      ∃ answer, r = answer.mapError (fun e => .unsaved target e.message) ∧
        es = [w.event target lock answer] := by
  cases w <;>
    exact Attempt.trace_mapError.trans (exists_congr fun _ => and_congr_right fun _ => trace_call)

/-- How far the work of an operation gets, with what is asked for and how it ends. -/
inductive Operation.Progress (op : Operation α) (target : String) (lock : Lock) :
    List (Event effects) → Result (Outcome α) → Prop
  | unprepared {reply : Result ByteArray} {e : Error} (h : op.plan target reply = .error e) :
      Progress op target lock [⟨.storage (.load target), reply⟩] (.error e)
  | discarded {reply : Result ByteArray} {p : Plan α} (h : op.plan target reply = .ok p)
      (e : Error) :
      Progress op target lock [⟨.storage (.load target), reply⟩, ⟨.provision p.change, .error e⟩]
        (.error (applyFailure e))
  | written {reply : Result ByteArray} {p : Plan α} (h : op.plan target reply = .ok p)
      (answer : Result Unit) :
      Progress op target lock
        [⟨.storage (.load target), reply⟩, ⟨.provision p.change, .ok ()⟩,
          p.write.event target lock answer]
        ((answer.mapError fun e => .unsaved target e.message).map fun _ => p.outcome)

theorem trace_provision {r : Provisioner.Request} {es : List (Event effects)} {x : Result Unit} :
    Attempt.Trace (provision r) es x ↔
      ∃ answer : Result Unit, x = answer.mapError applyFailure ∧ es = [⟨.provision r, answer⟩] :=
  Attempt.trace_mapError.trans (exists_congr fun _ => and_congr_right fun _ => trace_call)

theorem Operation.trace_work {op : Operation α} {target : String} {lock : Lock}
    {es : List (Event effects)} {r : Result (Outcome α)} (h : (op.work target lock).Trace es r) :
    op.Progress target lock es r := by
  rw [work, Attempt.trace_outcome_bind] at h
  obtain ⟨first, reply, es, rfl, hload, h⟩ := h
  rw [trace_call.1 hload]
  rcases Attempt.trace_ofResult_bind.1 h with ⟨e, hplan, rfl, rfl⟩ | ⟨p, hplan, h⟩
  · exact .unprepared hplan
  rcases Attempt.trace_bind.1 h with ⟨e, rfl, hprov⟩ | ⟨first, _, es, rfl, hprov, hrest⟩
  · obtain ⟨answer, hanswer, rfl⟩ := trace_provision.1 hprov
    cases answer <;> cases hanswer
    exact .discarded hplan _
  obtain ⟨answer, hanswer, rfl⟩ := trace_provision.1 hprov
  cases answer <;> cases hanswer
  rcases Attempt.trace_bind.1 hrest with ⟨e, rfl, hstore⟩ | ⟨first, _, es, rfl, hstore, hend⟩
  · obtain ⟨answer, hanswer, rfl⟩ := trace_store.1 hstore
    cases answer <;> cases hanswer
    exact .written hplan (.error _)
  · obtain ⟨answer, hanswer, rfl⟩ := trace_store.1 hstore
    obtain ⟨rfl, rfl⟩ := Attempt.trace_pure.1 hend
    cases answer <;> cases hanswer
    exact .written hplan (.ok ())

/-- The calls around the work under a lock. -/
def around (target : String) (lock : Lock) (released : Result Unit) (work : List (Event effects)) :
    List (Event effects) :=
  ⟨.storage (.acquire target), .ok lock⟩ :: work ++ [⟨.storage (.release target lock), released⟩]

theorem mem_around {target : String} {lock : Lock} {released : Result Unit}
    {work : List (Event effects)} {e : Event effects} :
    e ∈ around target lock released work ↔ e = ⟨.storage (.acquire target), .ok lock⟩ ∨ e ∈ work ∨
      e = ⟨.storage (.release target lock), released⟩ := by
  simp [around]

/-- How a run goes: it is refused, it gets no lock, or it works and gives the lock up again. -/
inductive Operation.Course (op : Operation α) (target : String) :
    List (Event effects) → Result (Outcome α) → Prop
  | refused (h : ¬Target.isValid target) : Course op target [] (.error (.invalidTarget target))
  | unlocked (h : Target.isValid target) (e : Error) :
      Course op target [⟨.storage (.acquire target), .error e⟩] (.error e)
  | locked (h : Target.isValid target) (lock : Lock) {es : List (Event effects)}
      {r : Result (Outcome α)} (work : op.Progress target lock es r) (released : Result Unit) :
      Course op target (around target lock released es) (settle r released)

theorem Operation.trace_run {op : Operation α} {target : String} {es : List (Event effects)}
    {r : Result (Outcome α)} (h : (op.run target).Trace es r) : op.Course target es r := by
  rw [run_eq, Coordinator.locked, Target.check] at h
  by_cases hv : Target.isValid target
  · rw [if_pos hv, Attempt.ofResult_ok_bind, Attempt.trace_bind] at h
    rcases h with ⟨e, rfl, hacquire⟩ | ⟨first, lock, es, rfl, hacquire, h⟩
    · rw [trace_call.1 hacquire]
      exact .unlocked hv e
    rw [trace_call.1 hacquire]
    obtain ⟨done, result, es, rfl, hwork, hrest⟩ := Attempt.trace_outcome_bind.1 h
    obtain ⟨last, released, es, rfl, hrelease, hend⟩ := Attempt.trace_outcome_bind.1 hrest
    obtain ⟨rfl, rfl⟩ := Attempt.trace_ofResult.1 hend
    rw [trace_call.1 hrelease, List.append_nil]
    exact .locked hv lock (trace_work hwork) released
  · rw [if_neg hv, Attempt.ofResult_error_bind] at h
    obtain ⟨rfl, rfl⟩ := Attempt.trace_ofResult.1 h
    exact .refused hv

end ClusterLedger.Coordinator
