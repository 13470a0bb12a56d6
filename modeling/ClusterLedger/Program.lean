/-!
# Programs that ask

A program either is done or makes a request and goes on with the answer. It does nothing by itself:
`run` answers its requests from a state, `handle` answers them by further programs.
-/
namespace ClusterLedger

/-- A kind of effect: what can be requested and what answers a request. -/
structure Effects where
  Request : Type
  Reply : Request → Type

/-- A computation that makes requests. -/
inductive Program (E : Effects) (α : Type) where
  | done (value : α)
  | ask (request : E.Request) (next : E.Reply request → Program E α)

namespace Program

variable {E F : Effects} {α β γ σ : Type}

/-- Goes on with another program where the first one is done. -/
def bind : Program E α → (α → Program E β) → Program E β
  | done a, f => f a
  | ask r next, f => ask r fun reply => (next reply).bind f

instance : Monad (Program E) where
  pure := done
  bind := bind

/-- The program that makes one request and returns the answer. -/
def request (r : E.Request) : Program E (E.Reply r) :=
  ask r done

@[simp] theorem pure_eq (a : α) : (pure a : Program E α) = done a := rfl

@[simp] theorem done_bind (a : α) (f : α → Program E β) : (done a >>= f) = f a := rfl

@[simp] theorem ask_bind (r : E.Request) (next : E.Reply r → Program E α) (f : α → Program E β) :
    (ask r next >>= f) = ask r fun reply => next reply >>= f := rfl

theorem bind_done (p : Program E α) : p.bind done = p := by
  induction p with
  | done a => rfl
  | ask r next ih => simp only [bind, ih]

theorem bind_assoc (p : Program E α) (f : α → Program E β) (g : β → Program E γ) :
    (p.bind f).bind g = p.bind fun a => (f a).bind g := by
  induction p with
  | done a => rfl
  | ask r next ih => simp only [bind, ih]

instance : LawfulMonad (Program E) :=
  LawfulMonad.mk' (Program E) bind_done (fun _ _ => rfl) bind_assoc

/-! ## Answering requests -/

/-- Answers every request from a state, which the answer may change. -/
def run (answer : (r : E.Request) → σ → E.Reply r × σ) : Program E α → σ → α × σ
  | done a, s => (a, s)
  | ask r next, s => (next (answer r s).1).run answer (answer r s).2

@[simp] theorem run_done (answer : (r : E.Request) → σ → E.Reply r × σ) (a : α) (s : σ) :
    (done a : Program E α).run answer s = (a, s) := rfl

theorem run_bind (answer : (r : E.Request) → σ → E.Reply r × σ) (p : Program E α)
    (f : α → Program E β) (s : σ) :
    (p >>= f).run answer s = (f (p.run answer s).1).run answer (p.run answer s).2 := by
  induction p generalizing s with
  | done a => rfl
  | ask r next ih => exact ih (answer r s).1 (answer r s).2

/-- Answers every request by a program that makes requests of another kind. -/
def handle (answer : (r : E.Request) → Program F (E.Reply r)) : Program E α → Program F α
  | done a => done a
  | ask r next => (answer r).bind fun reply => (next reply).handle answer

/-- A request together with its answer. -/
abbrev Event (E : Effects) := (r : E.Request) × E.Reply r

/-- Answers requests from a state and notes each of them with its answer, the last one first. -/
def noting (answer : (r : E.Request) → σ → E.Reply r × σ) (r : E.Request) (s : σ × List (Event E)) :
    E.Reply r × (σ × List (Event E)) :=
  ((answer r s.1).1, ((answer r s.1).2, ⟨r, (answer r s.1).1⟩ :: s.2))

end Program

end ClusterLedger
