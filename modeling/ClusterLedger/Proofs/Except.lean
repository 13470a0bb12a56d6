/-!
# Results that are not errors

What is known when a step after another, or a function of a result, has a value.
-/
namespace ClusterLedger

variable {ε ε' α β : Type}

theorem Except.bind_eq_ok {x : Except ε α} {f : α → Except ε β} {b : β} :
    x.bind f = .ok b ↔ ∃ a, x = .ok a ∧ f a = .ok b := by
  cases x <;> simp [Except.bind]

theorem Except.do_eq_ok {x : Except ε α} {f : α → Except ε β} {b : β} :
    (x >>= f) = .ok b ↔ ∃ a, x = .ok a ∧ f a = .ok b :=
  bind_eq_ok

theorem Except.map_eq_ok {x : Except ε α} {f : α → β} {b : β} :
    x.map f = .ok b ↔ ∃ a, x = .ok a ∧ f a = b := by
  cases x <;> simp [Except.map]

theorem Except.map_eq_error {x : Except ε α} {f : α → β} {e : ε} :
    x.map f = .error e ↔ x = .error e := by
  cases x <;> simp [Except.map]

theorem Except.mapError_ok (f : ε → ε') (a : α) : (Except.ok a).mapError f = .ok a :=
  rfl

theorem Except.mapError_error (f : ε → ε') (e : ε) :
    (Except.error e : Except ε α).mapError f = .error (f e) :=
  rfl

theorem Except.mapError_eq_ok {x : Except ε α} {f : ε → ε'} {a : α} :
    x.mapError f = .ok a ↔ x = .ok a := by
  cases x with
  | ok v => rw [mapError_ok]; simp
  | error e => rw [mapError_error]; simp

/-- What every step keeps, all of them keep. -/
theorem foldlM_keeps {f : β → α → Option β} {P : β → Prop} {xs : List α}
    (hstep : ∀ b, ∀ x ∈ xs, ∀ b', P b → f b x = some b' → P b') {b b' : β} (hb : P b)
    (h : xs.foldlM f b = some b') : P b' := by
  induction xs generalizing b with
  | nil => cases h; exact hb
  | cons x xs ih =>
    obtain ⟨c, hc, hrest⟩ := Option.bind_eq_some_iff.1 h
    have hkeep := hstep b x List.mem_cons_self c hb hc
    exact ih (fun b x hx => hstep b x (List.mem_cons_of_mem _ hx)) hkeep hrest

theorem Except.foldlM_keeps {f : β → α → Except ε β} {P : β → Prop} {xs : List α}
    (hstep : ∀ b, ∀ x ∈ xs, ∀ b', P b → f b x = .ok b' → P b') {b b' : β} (hb : P b)
    (h : xs.foldlM f b = .ok b') : P b' := by
  induction xs generalizing b with
  | nil => cases h; exact hb
  | cons x xs ih =>
    obtain ⟨c, hc, hrest⟩ := bind_eq_ok.1 h
    have hkeep := hstep b x List.mem_cons_self c hb hc
    exact ih (fun b x hx => hstep b x (List.mem_cons_of_mem _ hx)) hkeep hrest

/-- A list of steps has a value when each has one. -/
theorem Except.mapM_eq_ok {f : α → Except ε β} {xs : List α} {ys : List β} :
    xs.mapM f = .ok ys ↔ xs.map f = ys.map .ok := by
  induction xs generalizing ys with
  | nil =>
    cases ys with
    | nil => simp [pure, Except.pure]
    | cons y ys => simp [pure, Except.pure]
  | cons x xs ih =>
    rw [List.mapM_cons, do_eq_ok]
    constructor
    · rintro ⟨y, hy, hrest⟩
      obtain ⟨ys', hys, he⟩ := do_eq_ok.1 hrest
      cases he
      rw [List.map_cons, List.map_cons, hy, ih.1 hys]
    · intro h
      cases ys with
      | nil => cases h
      | cons y ys =>
        simp only [List.map_cons, List.cons.injEq] at h
        exact ⟨y, h.1, do_eq_ok.2 ⟨ys, ih.2 h.2, rfl⟩⟩

theorem Except.exists_of_mem_mapM {f : α → Except ε β} {xs : List α} {ys : List β} {y : β}
    (h : xs.mapM f = .ok ys) (hy : y ∈ ys) : ∃ x ∈ xs, f x = .ok y := by
  have hmem := List.mem_map_of_mem (f := fun y => (Except.ok y : Except ε β)) hy
  rw [← mapM_eq_ok.1 h] at hmem
  exact List.mem_map.1 hmem

/-- A list of steps that fails does so in one of them. -/
theorem Except.exists_of_mapM_error {f : α → Except ε β} {xs : List α} {e : ε}
    (h : xs.mapM f = .error e) : ∃ x ∈ xs, f x = .error e := by
  induction xs with
  | nil => cases h
  | cons x xs ih =>
    rw [List.mapM_cons] at h
    cases hx : f x with
    | error e' =>
      rw [hx] at h
      cases h
      exact ⟨x, List.mem_cons_self, hx⟩
    | ok y =>
      cases hxs : xs.mapM f with
      | error e' =>
        rw [hx, hxs] at h
        cases h
        obtain ⟨x', hmem, he⟩ := ih hxs
        exact ⟨x', List.mem_cons_of_mem x hmem, he⟩
      | ok ys =>
        rw [hx, hxs] at h
        cases h

/-- A list of checks passes when each does. -/
theorem Except.mapM_check_eq_ok {p : α → Prop} [DecidablePred p] {f : α → ε} {g : α → β}
    {xs : List α} {ys : List β} :
    (xs.mapM fun x => if ¬p x then .error (f x) else .ok (g x) : Except ε (List β)) = .ok ys ↔
      (∀ x ∈ xs, p x) ∧ ys = xs.map g := by
  rw [mapM_eq_ok]
  induction xs generalizing ys with
  | nil => simp [eq_comm]
  | cons x xs ih =>
    cases ys with
    | nil => simp
    | cons y ys =>
      by_cases hx : p x
      · rw [List.map_cons, List.map_cons, List.cons.injEq, ih, List.forall_mem_cons]
        simp [hx, and_left_comm, eq_comm]
      · simp [hx]

end ClusterLedger
