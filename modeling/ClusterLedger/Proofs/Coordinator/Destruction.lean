import ClusterLedger.Proofs.Coordinator.Discipline
import ClusterLedger.Proofs.Document.Expansion
import ClusterLedger.Proofs.Terraform.Provision

/-!
# Destroying modules

What the tool is told to destroy, what is taken out of the document and what is stored are the same
modules. The tool takes no targets to mean everything, so a run never gives it none.
-/
namespace ClusterLedger

/-! ## Targets of the tool -/

namespace Terraform

theorem bareName_of_ofPath {s : String} (h : ModuleName.ofPath s = s) : bareName s = s := by
  rw [bareName, bareName.strip]
  split
  · next rest hrest =>
    have hs := congrArg String.ofList (Text.afterChars?_eq_some.1 hrest)
    rw [String.ofList_toList, String.ofList_append, String.ofList_toList] at hs
    exact absurd hs (ModuleName.ofPath_eq_self.1 h _)
  · exact String.ofList_toList

theorem destroyArguments_of_kind {targets : List String}
    (h : ∀ t ∈ targets, (ModuleName.kind? t).isSome) :
    destroyArguments targets =
      ["destroy", "-auto-approve"] ++ targets.map ("-target=module." ++ ·) := by
  rw [destroyArguments]
  congr 1
  apply List.map_congr_left
  intro t ht
  rw [bareName_of_ofPath (ModuleName.ofPath_of_kind (h t ht))]

/-- Targets that are names of modules are what the tool is told to destroy. -/
theorem course_of_destroy {t : Terraform} {document : ByteArray} {targets : List String}
    {es : List (Program.Event effects)} {result : Result Unit}
    (h : ∀ k ∈ targets, (ModuleName.kind? k).isSome)
    (htrace : Attempt.Trace (t.perform (.destroy document targets)) es result) :
    ∃ x, Course t document (["destroy", "-auto-approve"] ++ targets.map ("-target=module." ++ ·)) es x ∧
      result = x.mapError fun f => .applyFailed f.message := by
  obtain ⟨x, huse, hresult⟩ := use_of_perform htrace
  rw [use, destroyArguments_of_kind h] at huse
  exact ⟨x, trace_realize huse, hresult⟩

end Terraform

namespace Coordinator

open Program (Event)
open Document (Selection)

variable {α σ : Type} {target : String} {lock : Lock} {select : Document → Result (List String)}
  {op : Operation α} {es calls : List (Event effects)}

/-! ## The plan of a destruction -/

theorem plan_destroyModules {reply : Result ByteArray} {p : Plan (List String)}
    (h : (Operation.destroyModules select).plan target reply = .ok p) :
    ∃ stored d names selected, reply = .ok stored ∧ Document.load stored = .ok d ∧
      select d = .ok names ∧ d.expandSelection target names = .ok selected ∧
      p = ⟨.destroy d.bytes selected, .persist (d.removeAll selected).bytes,
        ⟨d.removeAll selected, selected⟩⟩ := by
  obtain ⟨d, hd, hintend⟩ := Except.bind_eq_ok.1 h
  obtain ⟨stored, rfl, hstored⟩ := loaded_requireExisting hd
  obtain ⟨selected, hselected, rfl⟩ := Except.map_eq_ok.1 hintend
  obtain ⟨names, hnames, hselected⟩ := Except.bind_eq_ok.1 hselected
  exact ⟨stored, d, names, selected, rfl, hstored, hnames, hselected, rfl⟩

theorem Operation.Progress.provision_of_mem {r : Result (Outcome α)}
    (h : op.Progress target lock es r) {c : Provisioner.Request} {reply : Result Unit}
    (hm : ⟨.provision c, reply⟩ ∈ es) :
    ∃ reply p, op.plan target reply = .ok p ∧ c = p.change := by
  cases h with
  | unprepared hplan => cases List.mem_singleton.1 hm
  | discarded hplan e =>
    simp only [List.mem_cons, List.not_mem_nil, or_false] at hm
    rcases hm with he | he <;> cases he
    exact ⟨_, _, hplan, rfl⟩
  | @written _ p hplan answer =>
    simp only [List.mem_cons, List.not_mem_nil, or_false] at hm
    rcases hm with he | he | he
    · cases he
    · cases he
      exact ⟨_, p, hplan, rfl⟩
    · cases hwrite : p.write <;> rw [hwrite] at he <;> cases he

theorem Operation.Course.provision_of_mem {result : Result (Outcome α)}
    (h : op.Course target calls result) {c : Provisioner.Request} {reply : Result Unit}
    (hm : ⟨.provision c, reply⟩ ∈ calls) :
    ∃ reply p, op.plan target reply = .ok p ∧ c = p.change := by
  cases h with
  | refused => cases hm
  | unlocked => cases List.mem_singleton.1 hm
  | locked hvalid lock work released =>
    rcases mem_around.1 hm with he | he | he
    · cases he
    · exact work.provision_of_mem he
    · cases he

theorem Operation.Progress.stopped_of_plan {r : Result (Outcome α)}
    (h : op.Progress target lock es r) {reply : Result ByteArray}
    (hm : ⟨.storage (.load target), reply⟩ ∈ es) {e : Error}
    (hplan : op.plan target reply = .error e) :
    es = [⟨.storage (.load target), reply⟩] ∧ r = .error e := by
  cases h with
  | unprepared hplan' =>
    cases List.mem_singleton.1 hm
    rw [hplan] at hplan'
    cases hplan'
    exact ⟨rfl, rfl⟩
  | discarded hplan' =>
    simp only [List.mem_cons, List.not_mem_nil, or_false] at hm
    rcases hm with he | he <;> cases he
    rw [hplan] at hplan'
    cases hplan'
  | @written _ p hplan' answer =>
    simp only [List.mem_cons, List.not_mem_nil, or_false] at hm
    rcases hm with he | he | he
    · cases he
      rw [hplan] at hplan'
      cases hplan'
    · cases he
    · cases hwrite : p.write <;> rw [hwrite] at he <;> cases he

/-! ## Empty selections -/

/-- A run that destroys modules names them to the provisioner, and stops if there are none. -/
structure Targeted (target : String) (select : Document → Result (List String))
    (calls : List (Event effects)) (result : Result (Outcome (List String))) : Prop where
  targets : ∀ c reply, ⟨.provision c, reply⟩ ∈ calls →
    ∃ bytes targets, c = .destroy bytes targets ∧ targets ≠ []
  stops : ∀ stored d, ⟨.storage (.load target), .ok stored⟩ ∈ calls →
    Document.load stored = .ok d → select d = .ok [] →
    (∃ released, result = settle (.error (.invalidInput .nothingSelected)) released) ∧
      ∀ c reply, ⟨.provision c, reply⟩ ∉ calls

theorem Operation.Course.targeted {result : Result (Outcome (List String))}
    (h : (destroyModules select).Course target calls result) :
    Targeted target select calls result := by
  constructor
  case targets =>
    intro c reply hm
    obtain ⟨_, p, hplan, rfl⟩ := h.provision_of_mem hm
    obtain ⟨stored, d, names, selected, -, -, -, hselected, rfl⟩ := plan_destroyModules hplan
    exact ⟨d.bytes, selected, rfl, Document.expanded_ne_nil hselected⟩
  case stops =>
    intro stored d hload hstored hselect
    have hplan : (destroyModules select).plan target (.ok stored) =
        .error (.invalidInput .nothingSelected) := by
      simp only [plan, loaded, hstored, Except.bind, intend, hselect]
      rfl
    cases h with
    | refused => cases hload
    | unlocked => cases List.mem_singleton.1 hload
    | locked hvalid lock work released =>
      rcases mem_around.1 hload with he | he | he
      · cases he
      · obtain ⟨rfl, rfl⟩ := work.stopped_of_plan he hplan
        refine ⟨⟨released, rfl⟩, ?_⟩
        intro c reply hm
        rcases mem_around.1 hm with he | he | he
        · cases he
        · cases List.mem_singleton.1 he
        · cases he
      · cases he

/-! ## Destructions that succeed -/

/-- The calls of a destruction that succeeds. -/
def destruction (target : String) (lock : Lock) (stored : ByteArray) (d : Document)
    (outcome : Outcome (List String)) : List (Event effects) :=
  around target lock (.ok ())
    [⟨.storage (.load target), .ok stored⟩, ⟨.provision (.destroy d.bytes outcome.value), .ok ()⟩,
      ⟨.storage (.persist target outcome.document.bytes lock), .ok ()⟩]

theorem Operation.Course.destruction {outcome : Outcome (List String)}
    (h : (destroyModules select).Course target calls (.ok outcome)) :
    ∃ lock stored d names, Document.load stored = .ok d ∧ select d = .ok names ∧
      d.expandSelection target names = .ok outcome.value ∧
      outcome.document = d.removeAll outcome.value ∧
      calls = Coordinator.destruction target lock stored d outcome := by
  generalize hresult : Except.ok outcome = result at h
  cases h with
  | refused => cases hresult
  | unlocked => cases hresult
  | locked hvalid lock work released =>
    obtain ⟨hwork, rfl⟩ := settle_eq_ok.1 hresult.symm
    cases work with
    | unprepared => cases hwork
    | discarded => cases hwork
    | written hplan answer =>
      obtain ⟨_, hanswer, rfl⟩ := Except.map_eq_ok.1 hwork
      cases Except.mapError_eq_ok.1 hanswer
      obtain ⟨stored, d, names, selected, rfl, hstored, hnames, hselected, rfl⟩ :=
        plan_destroyModules hplan
      exact ⟨lock, stored, d, names, hstored, hnames, hselected, rfl, rfl⟩

/-- A destruction that succeeded: `names` were selected in the stored document `d`. -/
structure Completed (target : String) (select : Document → Result (List String)) (lock : Lock)
    (stored : ByteArray) (d : Document) (names : List String) (outcome : Outcome (List String))
    (calls : List (Event effects)) : Prop where
  loads : Document.load stored = .ok d
  selects : select d = .ok names
  calls : calls = destruction target lock stored d outcome
  destroys : d.Destroys names outcome.value outcome.document
  /-- It does not matter in which order or how often a module is selected. -/
  alike : ∀ other, (∀ k, k ∈ other ↔ k ∈ names) →
    d.expandSelection target other = .ok outcome.value
  /-- However the tool is provided, these are the requests that the provisioning comes to, and the
  arguments of its runs. -/
  arguments : ∀ (t : Terraform) es result,
    Attempt.Trace (t.perform (.destroy d.bytes outcome.value)) es result →
    ∃ x, Terraform.Course t d.bytes
        (["destroy", "-auto-approve"] ++ outcome.value.map ("-target=module." ++ ·)) es x ∧
      result = x.mapError fun f => .applyFailed f.message

theorem Operation.Course.completed {selection : Selection} {outcome : Outcome (List String)}
    (h : (destroyModules selection.select).Course target calls (.ok outcome)) :
    ∃ lock stored d names, Completed target selection.select lock stored d names outcome calls := by
  obtain ⟨lock, stored, d, names, hstored, hnames, hselected, hdocument, hcalls⟩ := h.destruction
  have hdestroys := Document.destroys_removeAll hnames hselected
  rw [← hdocument] at hdestroys
  refine ⟨lock, stored, d, names, hstored, hnames, hcalls, hdestroys, ?_, ?_⟩
  · intro other hother
    exact Document.expandSelection_congr hselected hother
  · intro t es result
    refine Terraform.course_of_destroy fun k hk => ?_
    exact Document.kind_of_expanded (fun name => selection.kind_of_mem hnames) hselected hk

theorem Operation.run_course (op : Operation α) (target : String)
    (answer : (c : Call) → σ → Result c.Yield × σ) (s : σ) :
    op.Course target ((op.run target).program.calls answer s) ((op.run target).run answer s).1 :=
  trace_run (Program.trace_calls (E := effects) answer (op.run target).program s)

/-- A destruction of a selection that succeeds takes exactly those modules out of the document that
the tool was told to destroy, and no destruction tells the tool to destroy everything. -/
theorem destroyModules_exact (target : String) (answer : (c : Call) → σ → Result c.Yield × σ)
    (s : σ) :
    (∀ (selection : Selection) outcome,
      ((destroyModules target selection.select).run answer s).1 = .ok outcome →
      ∃ lock stored d names, Completed target selection.select lock stored d names outcome
        ((destroyModules target selection.select).program.calls answer s)) ∧
    ∀ select, Targeted target select ((destroyModules target select).program.calls answer s)
      ((destroyModules target select).run answer s).1 := by
  constructor
  · intro selection outcome hok
    have h := (Operation.destroyModules selection.select).run_course target answer s
    rw [Operation.run, hok] at h
    exact h.completed
  · intro select
    exact ((Operation.destroyModules select).run_course target answer s).targeted

/-- A storage and a provisioner that do whatever they are asked. -/
def willing (stored : ByteArray) : (c : Call) → Unit → Result c.Yield × Unit
  | .storage (.acquire _), _ => (.ok ⟨"ann", 1, "k", ⟨0, 0⟩⟩, ())
  | .storage (.load _), _ => (.ok stored, ())
  | .storage .list, _ => (.ok [], ())
  | .storage (.release _ _), _ | .storage (.persist _ _ _), _ | .storage (.delete _ _), _
  | .provision _, _ => (.ok (), ())

def twoModules : ByteArray :=
  ("\x7b\"module\":\x7b\"cluster_aws_a\":\x7b\x7d,\"node_aws_a_b\":\x7b" ++
    "\"rancher_environment_id\":\"$\x7bmodule.cluster_aws_a.rancher_environment_id\x7d\"\x7d\x7d\x7d").toUTF8

theorem destroyModules_exact_willing : ∃ outcome lock stored d names,
    outcome.value = ["cluster_aws_a", "node_aws_a_b"] ∧
    Completed "prod" (Selection.cluster "cluster_aws_a").select lock stored d names outcome
      ((destroyModules "prod" (Selection.cluster "cluster_aws_a").select).program.calls
        (willing twoModules) ()) := by
  have hvalue : ((destroyModules "prod" (Selection.cluster "cluster_aws_a").select).run
      (willing twoModules) ()).1.map Outcome.value = .ok ["cluster_aws_a", "node_aws_a_b"] := by
    decide +kernel
  obtain ⟨outcome, hok, hvalue⟩ := Except.map_eq_ok.1 hvalue
  obtain ⟨lock, stored, d, names, hcompleted⟩ :=
    (destroyModules_exact "prod" (willing twoModules) ()).1 (.cluster "cluster_aws_a") outcome hok
  exact ⟨outcome, lock, stored, d, names, hvalue, hcompleted⟩

end Coordinator

end ClusterLedger
