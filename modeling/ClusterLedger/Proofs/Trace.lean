import ClusterLedger.Proofs.Attempt

/-!
# Traces

A trace lists the requests that a program makes, each with the answer that it got. A program has one
trace for every way in which it can be answered.
-/
namespace ClusterLedger

namespace Program

variable {E : Effects} {α β σ : Type}

/-- The program makes these requests when it gets these answers, and is done with this value. -/
inductive Trace : Program E α → List (Event E) → α → Prop
  | done (a : α) : Trace (.done a) [] a
  | ask {r : E.Request} {next : E.Reply r → Program E α} {es : List (Event E)} {a : α}
      (reply : E.Reply r) (rest : Trace (next reply) es a) :
      Trace (.ask r next) (⟨r, reply⟩ :: es) a

theorem trace_done {a b : α} {es : List (Event E)} :
    Trace (.done a : Program E α) es b ↔ es = [] ∧ b = a := by
  constructor
  · intro h
    cases h
    exact ⟨rfl, rfl⟩
  · rintro ⟨rfl, rfl⟩
    exact .done b

theorem trace_ask {r : E.Request} {next : E.Reply r → Program E α} {es : List (Event E)} {a : α} :
    Trace (.ask r next) es a ↔
      ∃ reply rest, es = ⟨r, reply⟩ :: rest ∧ Trace (next reply) rest a := by
  constructor
  · intro h
    cases h with
    | ask reply rest => exact ⟨reply, _, rfl, rest⟩
  · rintro ⟨reply, rest, rfl, h⟩
    exact .ask reply h

theorem trace_request {r : E.Request} {es : List (Event E)} {a : E.Reply r} :
    Trace (request r) es a ↔ es = [⟨r, a⟩] := by
  rw [request, trace_ask]
  constructor
  · rintro ⟨reply, rest, rfl, h⟩
    obtain ⟨rfl, rfl⟩ := trace_done.1 h
    rfl
  · rintro rfl
    exact ⟨a, [], rfl, .done a⟩

theorem trace_bind {p : Program E α} {f : α → Program E β} {es : List (Event E)} {b : β} :
    Trace (p >>= f) es b ↔
      ∃ first a rest, es = first ++ rest ∧ Trace p first a ∧ Trace (f a) rest b := by
  induction p generalizing es with
  | done a =>
    rw [done_bind]
    constructor
    · intro h
      exact ⟨[], a, es, rfl, .done a, h⟩
    · rintro ⟨first, a', rest, rfl, hp, h⟩
      obtain ⟨rfl, rfl⟩ := trace_done.1 hp
      exact h
  | ask r next ih =>
    rw [ask_bind, trace_ask]
    constructor
    · rintro ⟨reply, es, rfl, h⟩
      obtain ⟨first, a, rest, rfl, hp, hf⟩ := (ih reply).1 h
      exact ⟨⟨r, reply⟩ :: first, a, rest, rfl, .ask reply hp, hf⟩
    · rintro ⟨first, a, rest, rfl, hp, hf⟩
      obtain ⟨reply, tail, rfl, ht⟩ := trace_ask.1 hp
      exact ⟨reply, tail ++ rest, rfl, (ih reply).2 ⟨tail, a, rest, rfl, ht, hf⟩⟩

/-! ## What is asked after what -/

/-- Every request has a property that may depend on what was asked and answered before it, and so has
the value in the end. -/
def Obeys (P : List (Event E) → E.Request → Prop) (Q : List (Event E) → α → Prop) :
    List (Event E) → Program E α → Prop
  | past, .done a => Q past a
  | past, .ask r next => P past r ∧ ∀ reply, (next reply).Obeys P Q (past ++ [⟨r, reply⟩])

variable {P : List (Event E) → E.Request → Prop} {Q : List (Event E) → α → Prop}
  {past : List (Event E)}

theorem obeys_bind {p : Program E α} {f : α → Program E β} {Q : List (Event E) → β → Prop} :
    (p >>= f).Obeys P Q past ↔ p.Obeys P (fun past a => (f a).Obeys P Q past) past := by
  induction p generalizing past with
  | done a => exact Iff.rfl
  | ask r next ih =>
    rw [ask_bind]
    simp only [Obeys, ih]

theorem Obeys.imp {p : Program E α} {Q' : List (Event E) → α → Prop} (h : p.Obeys P Q past)
    (himp : ∀ past a, Q past a → Q' past a) : p.Obeys P Q' past := by
  induction p generalizing past with
  | done a => exact himp past a h
  | ask r next ih => exact ⟨h.1, fun reply => ih reply (h.2 reply)⟩

/-- What is obeyed shows in every trace. -/
theorem Obeys.trace {p : Program E α} (h : p.Obeys P Q past) {es : List (Event E)} {a : α}
    (ht : Trace p es a) : (∀ before e after, es = before ++ e :: after → P (past ++ before) e.1) ∧
      Q (past ++ es) a := by
  induction ht generalizing past with
  | done a =>
    rw [List.append_nil]
    exact ⟨fun before e after he => by simp at he, h⟩
  | ask reply rest ih =>
    obtain ⟨hlater, hend⟩ := ih (h.2 reply)
    rw [List.append_assoc] at hend
    refine ⟨fun before e after he => ?_, hend⟩
    cases before with
    | nil =>
      cases he
      rw [List.append_nil]
      exact h.1
    | cons b before =>
      rw [List.cons_append, List.cons.injEq] at he
      obtain ⟨rfl, he⟩ := he
      have hbefore := hlater before e after he
      rw [List.append_assoc] at hbefore
      exact hbefore

/-! ## The trace of a run -/

/-- The requests that a run makes with their answers, the first one first. -/
def calls (answer : (r : E.Request) → σ → E.Reply r × σ) (p : Program E α) (s : σ) :
    List (Event E) :=
  (p.run (noting answer) (s, [])).2.2.reverse

theorem run_noting (answer : (r : E.Request) → σ → E.Reply r × σ) (p : Program E α) (s : σ)
    (past : List (Event E)) :
    (p.run (noting answer) (s, past)).2.2 = (p.run (noting answer) (s, [])).2.2 ++ past := by
  induction p generalizing s past with
  | done a => rfl
  | ask r next ih =>
    have hrest (past : List (Event E)) :=
      ih (answer r s).1 (answer r s).2 (⟨r, (answer r s).1⟩ :: past)
    simp only [run, noting] at hrest ⊢
    rw [hrest past, hrest [], List.append_assoc]
    rfl

theorem calls_ask (answer : (r : E.Request) → σ → E.Reply r × σ) (r : E.Request)
    (next : E.Reply r → Program E α) (s : σ) :
    (ask r next).calls answer s =
      ⟨r, (answer r s).1⟩ :: (next (answer r s).1).calls answer (answer r s).2 := by
  rw [calls, run, noting, run_noting, List.reverse_append]
  rfl

theorem trace_calls (answer : (r : E.Request) → σ → E.Reply r × σ) (p : Program E α) (s : σ) :
    Trace p (p.calls answer s) (p.run answer s).1 := by
  induction p generalizing s with
  | done a => exact .done a
  | ask r next ih =>
    rw [calls_ask]
    exact .ask _ (ih _ _)

/-- The state behind requests that are answered one after the other. -/
def behind (answer : (r : E.Request) → σ → E.Reply r × σ) (s : σ) (es : List (Event E)) : σ :=
  es.foldl (fun s e => (answer e.1 s).2) s

theorem behind_calls (answer : (r : E.Request) → σ → E.Reply r × σ) (p : Program E α) (s : σ) :
    behind answer s (p.calls answer s) = (p.run answer s).2 := by
  induction p generalizing s with
  | done a => rfl
  | ask r next ih =>
    rw [calls_ask]
    exact ih _ _

theorem behind_append (answer : (r : E.Request) → σ → E.Reply r × σ) (s : σ)
    (es fs : List (Event E)) :
    behind answer s (es ++ fs) = behind answer (behind answer s es) fs :=
  List.foldl_append

/-- Every request gets its answer in the state behind the requests before it. -/
def Answered (answer : (r : E.Request) → σ → E.Reply r × σ) : σ → List (Event E) → Prop
  | _, [] => True
  | s, e :: es => (answer e.1 s).1 = e.2 ∧ Answered answer (answer e.1 s).2 es

theorem answered_append {answer : (r : E.Request) → σ → E.Reply r × σ} {s : σ}
    {es fs : List (Event E)} :
    Answered answer s (es ++ fs) ↔ Answered answer s es ∧ Answered answer (behind answer s es) fs := by
  induction es generalizing s with
  | nil => simp [Answered, behind]
  | cons e es ih =>
    rw [List.cons_append, Answered, Answered, ih, and_assoc]
    rfl

theorem answered_calls (answer : (r : E.Request) → σ → E.Reply r × σ) (p : Program E α) (s : σ) :
    Answered answer s (p.calls answer s) := by
  induction p generalizing s with
  | done a => trivial
  | ask r next ih =>
    rw [calls_ask]
    exact ⟨rfl, ih _ _⟩

/-! ## What all requests keep -/

/-- All requests of a program have a property, whatever is answered. -/
def Asks (P : E.Request → Prop) (p : Program E α) : Prop :=
  ∀ (es : List (Event E)) (a : α), Trace p es a → ∀ e ∈ es, P e.1

/-- One request is made, and then the program is done. -/
theorem asks_one {P : E.Request → Prop} {r : E.Request} (h : P r) (f : E.Reply r → α) :
    (ask r fun reply => .done (f reply)).Asks P := by
  intro es a htrace e he
  obtain ⟨reply, rest, rfl, hrest⟩ := trace_ask.1 htrace
  obtain ⟨rfl, -⟩ := trace_done.1 hrest
  cases List.mem_singleton.1 he
  exact h

section

variable {P : E.Request → Prop} {r : E.Request} {next : E.Reply r → Program E α}
  (h : (ask r next).Asks P)
include h

theorem Asks.rest (reply : E.Reply r) : (next reply).Asks P :=
  fun _ _ ht e he => h _ _ (.ask reply ht) e (List.mem_cons_of_mem _ he)

/-- The first request has the property, if it can be answered. -/
theorem Asks.first (answer : (r : E.Request) → σ → E.Reply r × σ) (s : σ) : P r :=
  h _ _ (.ask (answer r s).1 (trace_calls answer (next (answer r s).1) s)) _ List.mem_cons_self

end

/-- What every request keeps of two states, with the same answers, a run keeps with the same value. -/
theorem Asks.run_alike {P : E.Request → Prop} {R : σ → σ → Prop}
    {answer : (r : E.Request) → σ → E.Reply r × σ}
    (hstep : ∀ r s s', P r → R s s' →
      (answer r s').1 = (answer r s).1 ∧ R (answer r s).2 (answer r s').2)
    {p : Program E α} (hp : p.Asks P) {s s' : σ} (h : R s s') :
    (p.run answer s').1 = (p.run answer s).1 ∧ R (p.run answer s).2 (p.run answer s').2 := by
  induction p generalizing s s' with
  | done a => exact ⟨rfl, h⟩
  | ask r next ih =>
    obtain ⟨hreply, hnext⟩ := hstep r s s' (hp.first answer s) h
    rw [run, run, hreply]
    exact ih _ (hp.rest _) hnext

/-- What chains, and holds of the states before and after every request, holds of those before and
after a run. -/
theorem Asks.run_keeps {P : E.Request → Prop} {R : σ → σ → Prop} (hR : Attempt.Chains R)
    {answer : (r : E.Request) → σ → E.Reply r × σ} (hstep : ∀ r s, P r → R s (answer r s).2)
    {p : Program E α} (hp : p.Asks P) (s : σ) : R s (p.run answer s).2 := by
  induction p generalizing s with
  | done a => exact hR.refl s
  | ask r next ih => exact hR.trans (hstep r s (hp.first answer s)) (ih _ (hp.rest _) _)

end Program

namespace Attempt

variable {E : Effects} {α β : Type}

/-- The attempt makes these requests when it gets these answers, and ends in this result. -/
abbrev Trace (a : Attempt E α) (es : List (Program.Event E)) (r : Result α) : Prop :=
  Program.Trace a.program es r

@[simp] theorem ofResult_ok_bind (a : α) (f : α → Attempt E β) : (ofResult (.ok a) >>= f) = f a :=
  rfl

@[simp] theorem ofResult_error_bind (e : Error) (f : α → Attempt E β) :
    (ofResult (.error e) >>= f) = ofResult (.error e) :=
  rfl

theorem trace_ofResult {x r : Result α} {es : List (Program.Event E)} :
    Trace (ofResult x : Attempt E α) es r ↔ es = [] ∧ r = x :=
  Program.trace_done

theorem trace_pure {a : α} {r : Result α} {es : List (Program.Event E)} :
    Trace (pure a : Attempt E α) es r ↔ es = [] ∧ r = .ok a :=
  Program.trace_done

/-- An attempt that goes on either ends in the error of its first part, or is answered like both
parts one after the other. -/
theorem trace_bind {a : Attempt E α} {f : α → Attempt E β} {es : List (Program.Event E)}
    {r : Result β} :
    Trace (a >>= f) es r ↔ (∃ e, r = .error e ∧ Trace a es (.error e)) ∨
      ∃ first v rest, es = first ++ rest ∧ Trace a first (.ok v) ∧ Trace (f v) rest r := by
  rw [Trace, program_bind, Program.trace_bind]
  constructor
  · rintro ⟨first, x, rest, rfl, ha, hf⟩
    cases x with
    | ok v => exact .inr ⟨first, v, rest, rfl, ha, hf⟩
    | error e =>
      obtain ⟨rfl, rfl⟩ := Program.trace_done.1 hf
      exact .inl ⟨e, rfl, by rwa [List.append_nil]⟩
  · rintro (⟨e, rfl, ha⟩ | ⟨first, v, rest, rfl, ha, hf⟩)
    · exact ⟨es, .error e, [], (List.append_nil es).symm, ha, .done _⟩
    · exact ⟨first, .ok v, rest, rfl, ha, hf⟩

theorem trace_ofResult_bind {x : Result α} {f : α → Attempt E β} {es : List (Program.Event E)}
    {r : Result β} :
    Trace (ofResult x >>= f) es r ↔ (∃ e, x = .error e ∧ es = [] ∧ r = .error e) ∨
      ∃ v, x = .ok v ∧ Trace (f v) es r := by
  cases x with
  | error e => simp [trace_ofResult]
  | ok v => simp

/-- An error that is a value does not end the attempt. -/
theorem trace_outcome {a : Attempt E α} {es : List (Program.Event E)} {r : Result (Result α)} :
    Trace a.outcome es r ↔ ∃ x, r = .ok x ∧ Trace a es x := by
  rw [Trace, program_outcome, Program.trace_bind]
  constructor
  · rintro ⟨first, x, rest, rfl, ha, hd⟩
    obtain ⟨rfl, rfl⟩ := Program.trace_done.1 hd
    exact ⟨x, rfl, by rwa [List.append_nil]⟩
  · rintro ⟨x, rfl, ha⟩
    exact ⟨es, x, [], (List.append_nil es).symm, ha, .done _⟩

theorem trace_outcome_bind {a : Attempt E α} {f : Result α → Attempt E β}
    {es : List (Program.Event E)} {r : Result β} :
    Trace (a.outcome >>= f) es r ↔
      ∃ first x rest, es = first ++ rest ∧ Trace a first x ∧ Trace (f x) rest r := by
  rw [trace_bind]
  constructor
  · rintro (⟨e, -, ha⟩ | ⟨first, v, rest, rfl, ha, hf⟩)
    · obtain ⟨x, hx, -⟩ := trace_outcome.1 ha
      cases hx
    · obtain ⟨x, hx, ha⟩ := trace_outcome.1 ha
      cases hx
      exact ⟨first, v, rest, rfl, ha, hf⟩
  · rintro ⟨first, x, rest, rfl, ha, hf⟩
    exact .inr ⟨first, x, rest, rfl, trace_outcome.2 ⟨x, rfl, ha⟩, hf⟩

/-- Replacing the error of an attempt leaves its requests alone. -/
theorem trace_mapError {a : Attempt E α} {f : Error → Error} {es : List (Program.Event E)}
    {r : Result α} :
    Trace (tryCatch a fun e => throw (f e)) es r ↔ ∃ x, r = x.mapError f ∧ Trace a es x := by
  rw [Trace, program_mapError, Program.trace_bind]
  constructor
  · rintro ⟨first, x, rest, rfl, ha, hd⟩
    obtain ⟨rfl, rfl⟩ := Program.trace_done.1 hd
    exact ⟨x, rfl, by rwa [List.append_nil]⟩
  · rintro ⟨x, rfl, ha⟩
    exact ⟨es, x, [], (List.append_nil es).symm, ha, .done _⟩

/-! ## What is asked -/

/-- Every request has a property that may depend on what was asked and answered before it, and so has
the result. -/
def Obeys (P : List (Program.Event E) → E.Request → Prop)
    (Q : List (Program.Event E) → Result α → Prop) (past : List (Program.Event E))
    (a : Attempt E α) : Prop :=
  a.program.Obeys P Q past

/-- What comes after an attempt is asked behind it, unless the attempt failed. -/
theorem obeys_bind {P : List (Program.Event E) → E.Request → Prop}
    {Q : List (Program.Event E) → Result β → Prop} {past : List (Program.Event E)}
    {a : Attempt E α} {f : α → Attempt E β} :
    (a >>= f).Obeys P Q past ↔ a.Obeys P (fun past r => match r with
      | .ok v => (f v).Obeys P Q past
      | .error e => Q past (.error e)) past := by
  rw [Obeys, program_bind, Program.obeys_bind]
  refine iff_of_eq (congrArg (fun Q => a.program.Obeys P Q past) ?_)
  funext past r
  cases r <;> rfl

/-- All requests of the attempt have a property, whatever is answered. -/
def Asks (P : E.Request → Prop) (a : Attempt E α) : Prop :=
  a.program.Asks P

variable {P : E.Request → Prop}

theorem asks_ofResult (r : Result α) : (ofResult r : Attempt E α).Asks P := by
  intro es x h e he
  obtain ⟨rfl, -⟩ := trace_ofResult.1 h
  cases he

theorem asks_pure (a : α) : (pure a : Attempt E α).Asks P :=
  asks_ofResult (.ok a)

theorem asks_throw (e : Error) : (throw e : Attempt E α).Asks P :=
  asks_ofResult (.error e)

theorem asks_request {r : E.Request} (h : P r) : (request r : Attempt E (E.Reply r)).Asks P :=
  Program.asks_one h fun reply => Except.ok reply

theorem Asks.bind {a : Attempt E α} {f : α → Attempt E β} (ha : a.Asks P)
    (hf : ∀ v, (f v).Asks P) : (a >>= f).Asks P := by
  intro es r h e he
  rcases trace_bind.1 h with ⟨x, -, htrace⟩ | ⟨first, v, rest, rfl, htrace, hrest⟩
  · exact ha _ _ htrace e he
  · rcases List.mem_append.1 he with he | he
    · exact ha _ _ htrace e he
    · exact hf v _ _ hrest e he

/-- An attempt whose errors are values, or other errors, asks the same. -/
theorem Asks.done_bind {a : Attempt E α} (ha : a.Asks P) {f : Result α → Result β} :
    (ExceptT.mk (a.program >>= fun x => .done (f x)) : Attempt E β).Asks P := by
  intro es r h e he
  obtain ⟨first, x, rest, rfl, htrace, hrest⟩ := Program.trace_bind.1 h
  obtain ⟨rfl, -⟩ := Program.trace_done.1 hrest
  rw [List.append_nil] at he
  exact ha _ _ htrace e he

theorem Asks.outcome {a : Attempt E α} (ha : a.Asks P) : a.outcome.Asks P :=
  ha.done_bind

theorem Asks.ite {c : Prop} [Decidable c] {a b : Attempt E α} (ha : a.Asks P) (hb : b.Asks P) :
    (if c then a else b).Asks P := by
  split
  · exact ha
  · exact hb

end Attempt

end ClusterLedger
