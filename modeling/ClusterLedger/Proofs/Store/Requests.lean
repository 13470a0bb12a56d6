import ClusterLedger.Proofs.Trace
import ClusterLedger.Store.Basic

/-!
# Requests of a store

Which object a request is about, and how an attempt goes on that does nothing but ask a store.
-/
namespace ClusterLedger.Store

/-- A request about the object of a key. -/
def Request.IsAbout (key : String) : Request → Prop
  | get k | put k _ | putIfAbsent k _ | delete k | deleteIfMatches k _ | contains k => k = key
  | list _ => False

/-- A request with what was answered. -/
abbrev Call := Program.Event effects

variable {α β : Type} {q : Request} {past : List Call}

/-! ## Going on -/

section

variable {P : List Call → Request → Prop} {f : q.Yield → Attempt effects β}

theorem trace_ask {es : List Call} {r : Result q.Yield} :
    (ask q).Trace es r ↔ es = [⟨q, r⟩] :=
  Program.trace_request

theorem obeys_ask {Q : List Call → Result q.Yield → Prop} :
    (ask q).Obeys P Q past ↔ P past q ∧ ∀ reply : Result q.Yield, Q (past ++ [⟨q, reply⟩]) reply :=
  Iff.rfl

/-- A request is answered, and the rest is done unless it failed. -/
theorem obeys_ask_bind {Q : List Call → Result β → Prop} (hq : P past q)
    (hok : ∀ v, (f v).Obeys P Q (past ++ [⟨q, .ok v⟩]))
    (herror : ∀ e, Q (past ++ [⟨q, .error e⟩]) (.error e)) : (ask q >>= f).Obeys P Q past := by
  refine Attempt.obeys_bind.2 (obeys_ask.2 ⟨hq, fun reply => ?_⟩)
  cases reply with
  | ok v => exact hok v
  | error e => exact herror e

end

/-! ## Stopping -/

/-- An error that is answered is the last answer, and the result. -/
def Stops (a : Attempt effects α) : Prop :=
  ∀ (es : List Call) (r : Result α), a.Trace es r → ∀ before q e after,
    es = before ++ ⟨q, .error e⟩ :: after → after = [] ∧ r = .error e

theorem stops_ofResult (r : Result α) : Stops (.ofResult r) := by
  intro es x h before q e after hes
  obtain ⟨rfl, -⟩ := Attempt.trace_ofResult.1 h
  simp at hes

theorem stops_pure (a : α) : Stops (pure a) :=
  stops_ofResult (.ok a)

theorem stops_throw (e : Error) : Stops (throw e : Attempt effects α) :=
  stops_ofResult (.error e)

theorem stops_ask (q : Request) : Stops (ask q) := by
  intro es r h before q' e after hes
  rw [trace_ask.1 h] at hes
  cases before with
  | nil =>
    cases hes
    exact ⟨rfl, rfl⟩
  | cons c before => simp at hes

theorem Stops.bind {a : Attempt effects α} {f : α → Attempt effects β} (ha : Stops a)
    (hf : ∀ v, Stops (f v)) : Stops (a >>= f) := by
  intro es r h before q e after hes
  rcases Attempt.trace_bind.1 h with ⟨x, rfl, hfirst⟩ | ⟨first, v, rest, rfl, hfirst, hrest⟩
  · obtain ⟨hafter, hx⟩ := ha _ _ hfirst before q e after hes
    cases hx
    exact ⟨hafter, rfl⟩
  · rcases List.append_eq_append_iff.1 hes with ⟨mid, rfl, hmid⟩ | ⟨mid, rfl, hmid⟩
    · exact hf v _ _ hrest mid q e after hmid
    · -- An error in the first part would have been its result.
      cases mid with
      | nil => exact hf v _ _ hrest [] q e after hmid.symm
      | cons c mid =>
        rw [List.cons_append, List.cons.injEq] at hmid
        obtain ⟨rfl, -⟩ := hmid
        cases (ha _ _ hfirst before q e mid rfl).2

theorem Stops.ite {c : Prop} [Decidable c] {a b : Attempt effects α} (ha : Stops a) (hb : Stops b) :
    Stops (if c then a else b) := by
  split
  · exact ha
  · exact hb

end ClusterLedger.Store
