import ClusterLedger.Attempt

/-!
# How attempts end

From a state an attempt ends in one way. What holds of that end is found request by request.
-/
namespace ClusterLedger.Attempt

variable {E : Effects} {α β σ : Type} {answer : (r : E.Request) → σ → E.Reply r × σ}

/-- What an attempt yields from a state, and the state then, are related. -/
def Ends (answer : (r : E.Request) → σ → E.Reply r × σ) (a : Attempt E α) (s : σ)
    (Q : Result α → σ → Prop) : Prop :=
  Q (a.run answer s).1 (a.run answer s).2

variable {a : Attempt E α} {s : σ} {Q R : Result α → σ → Prop}

theorem Ends.imp (h : a.Ends answer s Q) (hqr : ∀ r s', Q r s' → R r s') : a.Ends answer s R :=
  hqr _ _ h

theorem ends_pure {v : α} : (pure v : Attempt E α).Ends answer s Q ↔ Q (.ok v) s :=
  Iff.rfl

theorem ends_ofResult {r : Result α} : (ofResult r : Attempt E α).Ends answer s Q ↔ Q r s :=
  Iff.rfl

/-- What comes after an attempt starts where it ended, unless it failed. -/
theorem ends_bind {f : α → Attempt E β} {P : Result β → σ → Prop} :
    (a >>= f).Ends answer s P ↔ a.Ends answer s fun r s' => match r with
      | .ok v => (f v).Ends answer s' P
      | .error e => P (.error e) s' := by
  simp only [Ends]
  cases h : a.run answer s with
  | mk r s' =>
    cases r with
    | ok v => rw [run_bind_ok answer h]
    | error e => rw [run_bind_error answer h]

/-- What comes after an attempt whose run is known. -/
theorem ends_bind_of_run {f : α → Attempt E β} {P : Result β → σ → Prop} {v : α} {s' : σ}
    (ha : a.run answer s = (.ok v, s')) (h : (f v).Ends answer s' P) :
    (a >>= f).Ends answer s P := by
  rw [Ends, run_bind_ok answer ha]
  exact h

theorem program_outcome (a : Attempt E α) :
    a.outcome.program = a.program >>= fun x => .done (.ok x) :=
  rfl

theorem run_outcome (a : Attempt E α) (s : σ) :
    a.outcome.run answer s = (.ok (a.run answer s).1, (a.run answer s).2) := by
  rw [run, program_outcome, Program.run_bind]
  rfl

theorem run_outcome_of_run {r : Result α} {s' : σ} (h : a.run answer s = (r, s')) :
    a.outcome.run answer s = (.ok r, s') := by
  rw [run_outcome, h]

theorem ends_outcome {P : Result (Result α) → σ → Prop} :
    a.outcome.Ends answer s P ↔ a.Ends answer s fun r s' => P (.ok r) s' := by
  rw [Ends, run_outcome]
  rfl

theorem program_mapError (a : Attempt E α) (f : Error → Error) :
    (tryCatch a fun e => throw (f e) : Attempt E α).program =
      a.program >>= fun x => .done (x.mapError f) := by
  change Program.bind _ _ = Program.bind _ _
  congr 1
  funext x
  cases x <;> rfl

theorem ends_mapError {f : Error → Error} :
    (tryCatch a fun e => throw (f e) : Attempt E α).Ends answer s Q ↔
      a.Ends answer s fun r s' => Q (r.mapError f) s' := by
  rw [Ends, run, program_mapError, Program.run_bind]
  rfl

/-! ## What all steps keep -/

/-- Whatever an attempt yields, the state before it and the state after it are related. -/
def Within (answer : (r : E.Request) → σ → E.Reply r × σ) (R : σ → σ → Prop) (a : Attempt E α) :
    Prop :=
  ∀ s, a.Ends answer s fun _ s' => R s s'

/-- A relation that holds for the first and the last state if it holds for every two states in a
row. -/
structure Chains (R : σ → σ → Prop) : Prop where
  refl : ∀ s, R s s
  trans : ∀ {s s' s''}, R s s' → R s' s'' → R s s''

section Chains

variable {R : σ → σ → Prop} (hR : Chains R)
include hR

theorem Chains.pure (v : α) : (Pure.pure v : Attempt E α).Within answer R :=
  hR.refl

theorem Chains.throw (e : Error) : (throw e : Attempt E α).Within answer R :=
  hR.refl

theorem Chains.throw_bind (e : Error) (f : α → Attempt E β) :
    ((MonadExcept.throw e : Attempt E α) >>= f).Within answer R :=
  hR.refl

theorem Chains.ofResult (r : Result α) : (ofResult r : Attempt E α).Within answer R :=
  hR.refl

theorem Chains.bind {f : α → Attempt E β} (ha : a.Within answer R)
    (hf : ∀ v, (f v).Within answer R) : (a >>= f).Within answer R := by
  intro s
  rw [ends_bind]
  refine (ha s).imp fun r s' h => ?_
  cases r with
  | ok v => exact (hf v s').imp fun r s'' h' => hR.trans h h'
  | error e => exact h

end Chains

theorem Within.outcome {R : σ → σ → Prop} (ha : a.Within answer R) :
    a.outcome.Within answer R :=
  fun s => ends_outcome.2 (ha s)

theorem Within.mono {R R' : σ → σ → Prop} (ha : a.Within answer R) (h : ∀ s s', R s s' → R' s s') :
    a.Within answer R' :=
  fun s => (ha s).imp fun _ s' => h s s'

end ClusterLedger.Attempt
