import ClusterLedger.Proofs.Backend.Ledger
import ClusterLedger.Proofs.Coordinator.Course
import ClusterLedger.Proofs.Coordinator.Discipline
import ClusterLedger.Proofs.Except

/-!
# Runs on a ledger

The storage of a run keeps a ledger, and the provisioner succeeds or fails as it likes. What a run
leaves in the ledger is told by its result.
-/
namespace ClusterLedger.Coordinator

open Backend (Storage Manner Ledger Keeps)
open Attempt (ends_bind ends_outcome ends_ofResult ends_mapError)

variable {α σ ρ : Type}

/-! ## The world of runs -/

/-- What runs rely on: those who ask the storage, the age at which locks are stale, and the
provisioner. -/
structure Setting (ρ : Type) where
  callers : Nat → Caller
  staleAfter : Nat
  provision : Provisioner.Request → ρ → Result Unit × ρ

/-- A storage and a provisioner, and how often the storage has been asked. -/
structure World (σ ρ : Type) where
  storage : σ
  provisioner : ρ
  asked : Nat

/-- Answers a call of a run; the `n`-th one for the storage is of the `n`-th caller. -/
def answer (call : Storage σ) (x : Setting ρ) : (c : Call) → World σ ρ → Result c.Yield × World σ ρ
  | .storage r, w =>
    let reply := call (x.callers w.asked) x.staleAfter r w.storage
    (reply.1, ⟨reply.2, w.provisioner, w.asked + 1⟩)
  | .provision r, w =>
    let reply := x.provision r w.provisioner
    (reply.1, ⟨w.storage, reply.2, w.asked⟩)

/-- An operation on a target. -/
structure Job where
  Value : Type
  target : String
  operation : Operation Value

/-- The run of a job. -/
def Job.run (job : Job) : Attempt effects (Outcome job.Value) :=
  job.operation.run job.target

/-- The document that an operation leaves behind. -/
def Operation.kept? : {α : Type} → Operation α → Outcome α → Option ByteArray
  | _, apply _ _, outcome => some outcome.document.bytes
  | _, destroyTarget, _ => none
  | _, destroyModules _, outcome => some outcome.document.bytes

/-- The documents after a job, by its result alone. -/
def Job.leave (job : Job) (result : Result (Outcome job.Value)) (documents : Dict ByteArray) :
    Dict ByteArray :=
  match result with
  | .error _ => documents
  | .ok outcome => match job.operation.kept? outcome with
    | some bytes => documents.insert job.target bytes
    | none => documents.erase job.target

/-! ## Calls on a ledger -/

/-- Whoever asks for a target reads the time and is admitted. -/
structure Served (x : Setting ρ) (admits : Caller → Backend.Request → Prop) (target : String) :
    Prop where
  shows : ∀ n, (x.callers n).now.Shows
  admits : ∀ n r, Backend.Request.target? r = some target → admits (x.callers n) r

/-- A run has the lock of a target, and nobody else has one. -/
def held (target : String) (lock : Lock) (documents : Dict ByteArray) : Ledger :=
  ⟨Dict.empty.insert target lock, documents⟩

/-- The documents after a write. -/
def Write.written (target : String) (documents : Dict ByteArray) : Write → Dict ByteArray
  | persist bytes => documents.insert target bytes
  | delete => documents.erase target

section Calls

variable {call : Storage σ} {x : Setting ρ} {m : Manner} {holds : σ → Ledger → Prop}
  {admits : Caller → Backend.Request → Prop} {w : World σ ρ} {l : Ledger}
  {documents : Dict ByteArray} {target : String} {lock : Lock}

theorem held_locks (target : String) (lock : Lock) (documents : Dict ByteArray) :
    (held target lock documents).locks.get? target = some lock := by
  rw [held, Dict.get?_insert, if_pos rfl]

/-- The holder of the lock may change what it likes. -/
theorem change_held (target : String) (lock : Lock) (documents : Dict ByteArray) (l : Ledger) :
    (held target lock documents).change target lock l = (.ok (), l) := by
  rw [Ledger.change, held_locks, Backend.verify, Option.map_some, if_pos rfl]

theorem genuine_held {r : Backend.Request} (hr : ∀ p, r.lock? = some p → p = (target, lock)) :
    (held target lock documents).Genuine r := by
  intro t other current hlock hget _
  cases hr (t, other) hlock
  exact Option.some.inj (hget.symm.trans (held_locks _ _ _))

theorem genuine_unlocked (r : Backend.Request) : (⟨{}, documents⟩ : Ledger).Genuine r :=
  fun _ _ _ _ hget => nomatch hget

variable (hk : Keeps call m holds admits) (hx : Served x admits target)
  (hvalid : Target.isValid target = true)
include hk hx hvalid

/-- A request for a target is answered from the ledger. -/
theorem ends_storage (hw : holds w.storage l) {r : Backend.Request} (hr : r.target? = some target)
    (hgenuine : l.Genuine r) :
    (ask (.storage r)).Ends (answer call x) w fun reply w' =>
      reply = (Ledger.perform m (x.callers w.asked) x.staleAfter r l).1 ∧
        holds w'.storage (Ledger.perform m (x.callers w.asked) x.staleAfter r l).2 := by
  have htargets : ∀ t, r.target? = some t → Target.isValid t := by
    intro t ht
    rw [← Option.some.inj (hr.symm.trans ht)]
    exact hvalid
  have hfollows := hk.answers x.staleAfter hw (hx.shows w.asked) (hx.admits w.asked r hr) hgenuine
  rw [Ledger.answer_of_valid l htargets] at hfollows
  exact hfollows

theorem ends_acquire (hw : holds w.storage ⟨{}, documents⟩) :
    (ask (.storage (.acquire target))).Ends (answer call x) w fun reply w' =>
      ∃ lock, reply = .ok lock ∧ holds w'.storage (held target lock documents) :=
  (ends_storage hk hx hvalid hw rfl (genuine_unlocked _)).imp fun _ _ h => ⟨_, h⟩

theorem ends_load (hw : holds w.storage (held target lock documents)) :
    (ask (.storage (.load target))).Ends (answer call x) w fun _ w' =>
      holds w'.storage (held target lock documents) :=
  (ends_storage hk hx hvalid hw rfl (genuine_held fun _ h => by cases h)).imp fun _ _ h => h.2

theorem ends_store (hw : holds w.storage (held target lock documents)) (write : Write) :
    (store target lock write).Ends (answer call x) w fun reply w' =>
      reply = .ok () ∧ holds w'.storage (held target lock (write.written target documents)) := by
  cases write with
  | persist bytes =>
    have hask := ends_storage hk hx hvalid hw (r := .persist target bytes lock) rfl
      (genuine_held fun _ h => (Option.some.inj h).symm)
    rw [Ledger.perform, change_held] at hask
    exact ends_mapError.2 (hask.imp fun _ _ h => ⟨congrArg _ h.1, h.2⟩)
  | delete =>
    have hask := ends_storage hk hx hvalid hw (r := .delete target lock) rfl
      (genuine_held fun _ h => (Option.some.inj h).symm)
    rw [Ledger.perform, change_held] at hask
    exact ends_mapError.2 (hask.imp fun _ _ h => ⟨congrArg _ h.1, h.2⟩)

theorem ends_release (hw : holds w.storage (held target lock documents)) :
    (ask (.storage (.release target lock))).Ends (answer call x) w fun reply w' =>
      reply = .ok () ∧ holds w'.storage ⟨{}, documents⟩ := by
  have hfree : (held target lock documents).free target = ⟨{}, documents⟩ :=
    congrArg (Ledger.mk · documents) (Dict.erase_insert rfl)
  have hask := ends_storage hk hx hvalid hw (r := .release target lock) rfl
    (genuine_held fun _ h => (Option.some.inj h).symm)
  rw [Ledger.perform, change_held, hfree] at hask
  exact hask

end Calls

/-! ## Runs on a ledger -/

theorem ends_provision {call : Storage σ} {x : Setting ρ} {w : World σ ρ}
    (r : Provisioner.Request) :
    (provision r).Ends (answer call x) w fun _ w' => w'.storage = w.storage :=
  ends_mapError.2 rfl

/-- What is written is the document that is kept. -/
theorem Operation.write_of_plan {op : Operation α} {target : String} {reply : Result ByteArray}
    {plan : Plan α} (h : op.plan target reply = .ok plan) :
    plan.write = match op.kept? plan.outcome with
      | some bytes => .persist bytes
      | none => .delete := by
  obtain ⟨document, -, hplan⟩ := Except.bind_eq_ok.1 h
  cases op with
  | apply mode change => obtain ⟨value, -, rfl⟩ := Except.map_eq_ok.1 hplan; rfl
  | destroyTarget => cases hplan; rfl
  | destroyModules select => obtain ⟨selected, -, rfl⟩ := Except.map_eq_ok.1 hplan; rfl

theorem Job.leave_of_plan {job : Job} {reply : Result ByteArray} {plan : Plan job.Value}
    (h : job.operation.plan job.target reply = .ok plan) (documents : Dict ByteArray) :
    job.leave (.ok plan.outcome) documents = plan.write.written job.target documents := by
  rw [Operation.write_of_plan h, Job.leave]
  cases job.operation.kept? plan.outcome <;> rfl

section Runs

variable {call : Storage σ} {x : Setting ρ} {m : Manner} {holds : σ → Ledger → Prop}
  {admits : Caller → Backend.Request → Prop} {w : World σ ρ} {documents : Dict ByteArray}
  {job : Job} {lock : Lock}

/-- The work under the lock changes the document if it succeeds, and only then. -/
theorem ends_work (hk : Keeps call m holds admits) (hx : Served x admits job.target)
    (hvalid : Target.isValid job.target = true)
    (hw : holds w.storage (held job.target lock documents)) :
    (job.operation.work job.target lock).Ends (answer call x) w fun result w' =>
      holds w'.storage (held job.target lock (job.leave result documents)) := by
  refine ends_bind.2 (ends_outcome.2 ((ends_load hk hx hvalid hw).imp fun reply w₁ hw₁ => ?_))
  refine ends_bind.2 (ends_ofResult.2 ?_)
  cases hplan : job.operation.plan job.target reply with
  | error e => exact hw₁
  | ok plan =>
    refine ends_bind.2 ((ends_provision plan.change).imp ?_)
    rintro (e | _) w₂ hw₂
    · show holds w₂.storage _
      rw [hw₂]
      exact hw₁
    · rw [← hw₂] at hw₁
      refine ends_bind.2 ((ends_store hk hx hvalid hw₁ plan.write).imp ?_)
      rintro - w₃ ⟨rfl, hw₃⟩
      show holds w₃.storage (held job.target lock (job.leave (.ok plan.outcome) documents))
      rw [Job.leave_of_plan hplan]
      exact hw₃

theorem settle_released (r : Result α) : settle r (.ok ()) = r := by
  cases r <;> rfl

/-- A run leaves no lock, and changes the documents if it succeeds, and only then. -/
theorem ends_run (hk : Keeps call m holds admits) (hx : Served x admits job.target)
    (hw : holds w.storage ⟨{}, documents⟩) :
    job.run.Ends (answer call x) w fun result w' =>
      holds w'.storage ⟨{}, job.leave result documents⟩ := by
  rw [Job.run, Operation.run_eq]
  refine ends_bind.2 (ends_ofResult.2 ?_)
  by_cases hvalid : Target.isValid job.target
  · rw [Target.check, if_pos hvalid]
    refine ends_bind.2 ((ends_acquire hk hx hvalid hw).imp ?_)
    rintro - w₁ ⟨lock, rfl, hw₁⟩
    refine ends_bind.2 (ends_outcome.2 ((ends_work hk hx hvalid hw₁).imp fun result w₂ hw₂ => ?_))
    refine ends_bind.2 (ends_outcome.2 ((ends_release hk hx hvalid hw₂).imp ?_))
    rintro - w₃ ⟨rfl, hw₃⟩
    refine ends_ofResult.2 ?_
    rw [settle_released]
    exact hw₃
  · rw [Target.check, if_neg hvalid]
    exact hw

end Runs

end ClusterLedger.Coordinator
