import ClusterLedger.Proofs.Backend.Place
import ClusterLedger.Proofs.Coordinator.Discipline
import ClusterLedger.Proofs.Coordinator.LedgerRuns

/-!
# Runs that change all or nothing

Jobs are carried out one after the other at a place that is empty at first, and the provisioner
succeeds or fails as it likes. A run that fails leaves everything as it was, one that succeeds
changes the document of its target, and none leaves a lock behind.
-/
namespace ClusterLedger.Coordinator

open Program (Event)
open Backend (Storage Place)

variable {α σ ρ : Type}

/-! ## Jobs one after the other -/

section

variable (call : Storage σ) (x : Setting ρ)

def Job.result (job : Job) (w : World σ ρ) : Result (Outcome job.Value) :=
  (job.run.run (answer call x) w).1

def Job.after (job : Job) (w : World σ ρ) : World σ ρ :=
  (job.run.run (answer call x) w).2

/-- What a job asks for, with the answers. -/
def Job.calls (job : Job) (w : World σ ρ) : List (Event effects) :=
  job.run.program.calls (answer call x) w

/-- The world after jobs. -/
def carryOut : List Job → World σ ρ → World σ ρ
  | [], w => w
  | job :: jobs, w => carryOut jobs (job.after call x w)

/-- A job that was carried out, with its result. -/
structure Report where
  job : Job
  result : Result (Outcome job.Value)

/-- The reports of jobs, the first one first. -/
def reports : List Job → World σ ρ → List Report
  | [], _ => []
  | job :: jobs, w => ⟨job, job.result call x w⟩ :: reports jobs (job.after call x w)

end

/-- Documents after jobs, of which those that failed are passed over. -/
def leaveAll (reports : List Report) (documents : Dict ByteArray) : Dict ByteArray :=
  reports.foldl (fun documents report => report.job.leave report.result documents) documents

/-! ## Atomic runs -/

/-- Whether a call is for the provisioner. -/
def Call.isProvision : Call → Bool
  | provision _ => true
  | storage _ => false

/-- What is stored for a target after an operation that succeeded. -/
def Operation.Stored (p : Place) (s : p.State) (target : String) (calls : List (Event effects)) :
    {α : Type} → Operation α → Outcome α → Prop
  | _, apply _ _, outcome => p.load s target = .ok outcome.document.bytes ∧
      calls.filter (·.1.isProvision) = [⟨.provision (.apply outcome.document.bytes), .ok ()⟩]
  | _, destroyTarget, _ => (∃ e, p.load s target = .error e ∧ e.isMissing) ∧
      ∃ names, p.list s = .ok names ∧ target ∉ names
  | _, destroyModules _, outcome => p.load s target = .ok outcome.document.bytes

/-- A run of a job at a place does all of its work or nothing. -/
structure Job.Atomic (job : Job) (p : Place) (x : Setting ρ) (w : World p.State ρ) : Prop where
  unlocked : ∀ target, Target.isValid target →
    p.lockRecord? (job.after p.storage x w).storage target = none
  /-- Nothing is changed by a failure. -/
  failed : ∀ e, job.result p.storage x w = .error e →
    p.list (job.after p.storage x w).storage = p.list w.storage ∧
      ∀ target, p.load (job.after p.storage x w).storage target = p.load w.storage target
  /-- Other targets are left alone. -/
  others : ∃ names names', p.list w.storage = .ok names ∧
    p.list (job.after p.storage x w).storage = .ok names' ∧ ∀ target ≠ job.target,
      (target ∈ names' ↔ target ∈ names) ∧
        p.load (job.after p.storage x w).storage target = p.load w.storage target
  stored : ∀ outcome, job.result p.storage x w = .ok outcome →
    job.operation.Stored p (job.after p.storage x w).storage job.target
      (job.calls p.storage x w) outcome

/-- Each of several jobs is atomic, and they leave what the results say. -/
structure AllOrNothing (p : Place) (x : Setting ρ) (jobs : List Job) (start : World p.State ρ) :
    Prop where
  atomic : ∀ before job after, jobs = before ++ job :: after →
    job.Atomic p x (carryOut p.storage x before start)
  listed : p.list (carryOut p.storage x jobs start).storage =
    .ok (leaveAll (reports p.storage x jobs start) .empty).keys
  loaded : ∀ target, (p.load (carryOut p.storage x jobs start).storage target).toOption =
    (leaveAll (reports p.storage x jobs start) .empty).get? target

/-! ## What runs leave -/

/-- A run that succeeds has a plan, and nothing but the plan is provisioned. -/
theorem Operation.Course.provisioned {op : Operation α} {target : String}
    {calls : List (Event effects)} {result : Result (Outcome α)} {outcome : Outcome α}
    (h : op.Course target calls result) (hok : result = .ok outcome) :
    Target.isValid target ∧ ∃ reply plan, op.plan target reply = .ok plan ∧
      plan.outcome = outcome ∧
      calls.filter (·.1.isProvision) = [⟨.provision plan.change, .ok ()⟩] := by
  cases h with
  | refused hvalid => cases hok
  | unlocked hvalid e => cases hok
  | locked hvalid lock work released =>
    obtain ⟨hwork, rfl⟩ := settle_eq_ok.1 hok
    cases work with
    | unprepared hplan => cases hwork
    | discarded hplan e => cases hwork
    | @written reply plan hplan answer =>
      cases answer with
      | error e => cases hwork
      | ok u =>
        cases hwork
        refine ⟨hvalid, reply, plan, hplan, rfl, ?_⟩
        cases hwrite : plan.write <;> simp [around, Write.event, Call.isProvision]

theorem Operation.change_of_plan {mode : Mode} {change : Change α} {target : String}
    {reply : Result ByteArray} {plan : Plan α}
    (h : (apply mode change).plan target reply = .ok plan) :
    plan.change = .apply plan.outcome.document.bytes := by
  obtain ⟨document, -, hplan⟩ := Except.bind_eq_ok.1 h
  obtain ⟨value, -, rfl⟩ := Except.map_eq_ok.1 hplan
  rfl

theorem Job.get?_leave {job : Job} {target : String} (h : target ≠ job.target)
    (result : Result (Outcome job.Value)) (documents : Dict ByteArray) :
    (job.leave result documents).get? target = documents.get? target := by
  cases result with
  | error e => rfl
  | ok outcome =>
    rw [Job.leave]
    cases job.operation.kept? outcome with
    | none => rw [Dict.get?_erase, if_neg h.symm]
    | some bytes => rw [Dict.get?_insert, if_neg h.symm]

section Place

variable {p : Place} {x : Setting ρ} {w : World p.State ρ} {s : p.State} {l : Backend.Ledger}
  {documents : Dict ByteArray} {job : Job} {target : String}

/-- After a run that succeeds its target has the document that is told by the outcome. -/
theorem Operation.stored_of_course {op : Operation α} {calls : List (Event effects)}
    {outcome : Outcome α} (h : op.Course target calls (.ok outcome)) (hs : p.Holds s l)
    (hadmits : Target.isValid target → ∃ caller, p.Admits caller target)
    (hget : l.documents.get? target = op.kept? outcome) :
    op.Stored p s target calls outcome := by
  obtain ⟨hvalid, reply, plan, hplan, rfl, hcalls⟩ := h.provisioned rfl
  have hload := Backend.Place.load_eq hs target
  rw [if_pos hvalid, Backend.Ledger.load, hget] at hload
  cases op with
  | apply mode change =>
    rw [change_of_plan hplan] at hcalls
    exact ⟨hload, hcalls⟩
  | destroyTarget =>
    obtain ⟨caller, hcaller⟩ := hadmits hvalid
    refine ⟨⟨_, hload, Backend.Place.absent_isMissing hcaller hvalid⟩, _,
      Backend.Place.list_eq hs, fun hmem => ?_⟩
    obtain ⟨bytes, hbytes⟩ := Dict.mem_keys.1 hmem
    cases hbytes.symm.trans hget
  | destroyModules select => exact hload

theorem Job.atomic (hw : p.Holds w.storage ⟨{}, documents⟩)
    (hx : Served x p.AdmitsCall job.target)
    (hadmits : Target.isValid job.target → ∃ caller, p.Admits caller job.target) :
    job.Atomic p x w := by
  have hafter : p.Holds (job.after p.storage x w).storage
      ⟨{}, job.leave (job.result p.storage x w) documents⟩ := ends_run p.keeps hx hw
  refine ⟨fun target hvalid => ?_, fun e he => ?_, ?_, fun outcome hok => ?_⟩
  · rw [Place.lockRecord?_eq hafter hvalid]
    rfl
  · rw [he] at hafter
    rw [Place.list_eq hafter, Place.list_eq hw]
    exact ⟨rfl, fun target => Place.load_congr hw hafter rfl⟩
  · refine ⟨_, _, Place.list_eq hw, Place.list_eq hafter, fun target hne => ?_⟩
    have hget := Job.get?_leave hne (job.result p.storage x w) documents
    refine ⟨?_, Place.load_congr hw hafter hget⟩
    rw [Dict.mem_keys, Dict.mem_keys, hget]
  · have hcourse : job.operation.Course job.target (job.calls p.storage x w)
        (job.result p.storage x w) := Operation.trace_run (Program.trace_calls _ _ w)
    rw [hok] at hcourse hafter
    refine Operation.stored_of_course hcourse hafter hadmits ?_
    rw [Job.leave]
    cases hkept : job.operation.kept? outcome with
    | none => rw [Dict.get?_erase, if_pos rfl]
    | some bytes => rw [Dict.get?_insert, if_pos rfl]

/-- After jobs there is no lock, and the documents are those that they left. -/
theorem holds_carryOut {jobs : List Job} (hx : ∀ job ∈ jobs, Served x p.AdmitsCall job.target)
    (hw : p.Holds w.storage ⟨{}, documents⟩) :
    p.Holds (carryOut p.storage x jobs w).storage
      ⟨{}, leaveAll (reports p.storage x jobs w) documents⟩ := by
  induction jobs generalizing w documents with
  | nil => exact hw
  | cons job jobs ih =>
    have hafter : p.Holds (job.after p.storage x w).storage
        ⟨{}, job.leave (job.result p.storage x w) documents⟩ :=
      ends_run p.keeps (hx job List.mem_cons_self) hw
    exact ih (fun other hother => hx other (List.mem_cons_of_mem _ hother)) hafter

end Place

/-- Runs at a place that is empty at first do all of their work or nothing. -/
theorem allOrNothing (p : Place) (x : Setting ρ) {jobs : List Job} {start : World p.State ρ}
    (hempty : p.IsEmpty start.storage) (hshows : ∀ n, (x.callers n).now.Shows)
    (hadmits : ∀ job ∈ jobs, Target.isValid job.target → ∀ n,
      p.Admits (x.callers n) job.target) :
    AllOrNothing p x jobs start := by
  have hserved : ∀ job ∈ jobs, Served x p.AdmitsCall job.target := by
    intro job hjob
    refine ⟨hshows, fun n r hr => Place.admitsCall_of_target fun t ht hvalid => ?_⟩
    obtain rfl := Option.some.inj (ht.symm.trans hr)
    exact hadmits job hjob hvalid n
  have hstart := Place.holds_empty hempty
  have hend := holds_carryOut hserved hstart
  refine ⟨fun before job after hjobs => ?_, Place.list_eq hend, Place.toOption_load hend⟩
  have hjob : job ∈ jobs := hjobs ▸ List.mem_append_right before List.mem_cons_self
  have hbefore : ∀ other ∈ before, Served x p.AdmitsCall other.target := fun other hother =>
    hserved other (hjobs ▸ List.mem_append_left _ hother)
  exact Job.atomic (holds_carryOut hbefore hstart) (hserved job hjob)
    fun hvalid => ⟨x.callers 0, hadmits job hjob hvalid 0⟩

/-- A provisioner that fails every other time. -/
def faltering : Setting Bool where
  callers _ := ⟨"ann", 1, ⟨0, 0⟩, fun k => String.ofList (List.replicate k 'k')⟩
  staleAfter := 3600
  provision
    | _, true => (.ok (), false)
    | _, false => (.error (.applyFailed "quota exceeded"), true)

/-- A target is set up and to be taken down, which fails. The last one is no target. -/
def setUpAndTakeDown : List Job :=
  [⟨Unit, "prod", .apply .createIfMissing fun document => (.ok (), document)⟩,
    ⟨List String, "prod", .destroyTarget⟩,
    ⟨List String, "../prod", .destroyModules fun document => .ok document.moduleNames⟩]

theorem allOrNothing_faltering :
    AllOrNothing (.folder ⟨["states"], "states"⟩) faltering setUpAndTakeDown
      ⟨Disk.Entry.folder [("states", .folder [])], true, 0⟩ := by
  have hempty : Place.IsEmpty (.folder ⟨["states"], "states"⟩)
      (Disk.Entry.folder [("states", .folder [])]) := ⟨by decide, rfl, rfl⟩
  have hstart : Instant.Shows ⟨0, 0⟩ := ⟨by decide, by decide⟩
  have hfiles : ∀ file ∈ Backend.Folder.callFiles (faltering.callers 0),
      file.utf8ByteSize ≤ Disk.nameLimit ∧
        Disk.Entry.check ["states", "prod", file] = .ok () := by
    decide +kernel
  have hprod (n : Nat) :
      (Place.folder ⟨["states"], "states"⟩).Admits (faltering.callers n) "prod" :=
    ⟨⟨by decide, by decide⟩, fun file hfile => ⟨(hfiles file hfile).1, (hfiles file hfile).2⟩⟩
  refine allOrNothing _ faltering hempty (fun _ => hstart) ?_
  simp only [setUpAndTakeDown, List.forall_mem_cons]
  exact ⟨fun _ => hprod, fun _ => hprod, fun hvalid => absurd hvalid (by decide), nofun⟩

end ClusterLedger.Coordinator
