import ClusterLedger.Bytes
import ClusterLedger.Error

/-!
# Programs that can fail

An `Attempt` is a program that yields a value or an error; after an error it makes no request.
-/
namespace ClusterLedger

/-- A program that yields a value or an error. -/
abbrev Attempt (E : Effects) := ExceptT Error (Program E)

namespace Attempt

variable {E F : Effects} {α β σ : Type}

/-- The program with its errors as values. -/
def program (a : Attempt E α) : Program E (Result α) :=
  ExceptT.run a

/-- The attempt that makes one request and goes on with the answer, whatever it is. -/
def request (r : E.Request) : Attempt E (E.Reply r) :=
  ExceptT.lift (Program.request r)

/-- The attempt that makes no request. -/
def ofResult (r : Result α) : Attempt E α :=
  ExceptT.mk (.done r)

/-- Goes on with what came of an attempt, an error being a value. -/
def outcome (a : Attempt E α) : Attempt E (Result α) :=
  ExceptT.lift a.program

@[simp] theorem program_pure (a : α) : (pure a : Attempt E α).program = .done (.ok a) := rfl

@[simp] theorem program_throw (e : Error) :
    (throw e : Attempt E α).program = .done (.error e) := rfl

@[simp] theorem program_ofResult (r : Result α) : (ofResult r : Attempt E α).program = .done r :=
  rfl

theorem program_bind (a : Attempt E α) (f : α → Attempt E β) :
    (a >>= f).program = a.program >>= fun
      | .ok v => (f v).program
      | .error e => .done (.error e) := by
  change Program.bind _ _ = Program.bind _ _
  congr 1
  funext r
  cases r <;> rfl

/-- Answers the requests of an attempt from a state. -/
def run (answer : (r : E.Request) → σ → E.Reply r × σ) (a : Attempt E α) (s : σ) : Result α × σ :=
  a.program.run answer s

theorem run_bind_ok (answer : (r : E.Request) → σ → E.Reply r × σ) {a : Attempt E α}
    {f : α → Attempt E β} {s s' : σ} {v : α} (h : a.run answer s = (.ok v, s')) :
    (a >>= f).run answer s = (f v).run answer s' := by
  rw [run] at h
  rw [run, program_bind, Program.run_bind, h]
  rfl

theorem run_bind_error (answer : (r : E.Request) → σ → E.Reply r × σ) {a : Attempt E α}
    {f : α → Attempt E β} {s s' : σ} {e : Error} (h : a.run answer s = (.error e, s')) :
    (a >>= f).run answer s = (.error e, s') := by
  rw [run] at h
  rw [run, program_bind, Program.run_bind, h]
  rfl

end Attempt

end ClusterLedger
