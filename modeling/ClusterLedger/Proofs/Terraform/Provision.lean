import ClusterLedger.Proofs.Dict
import ClusterLedger.Proofs.Except
import ClusterLedger.Proofs.Trace
import ClusterLedger.Terraform.Provision
import Mathlib.Data.List.Forall2

/-!
# Provisioning runs

A provisioning is at most five requests: for a directory, for the document in it, for two runs of the
tool, and for the removal of the directory. It ends early where one of the first three fails, but
never without the removal.
-/
namespace ClusterLedger.Terraform

open Program (Event Trace)

variable {α β : Type} {t : Terraform} {es : List (Event effects)}

/-! ## The requests of a use -/

theorem trace_bind {a : Use α} {f : α → Use β} {x : Except Fault β} :
    Trace (a >>= f).run es x ↔ (∃ e, x = .error e ∧ Trace a.run es (.error e)) ∨
      ∃ first v rest, es = first ++ rest ∧ Trace a.run first (.ok v) ∧ Trace (f v).run rest x := by
  rw [ExceptT.run_bind, Program.trace_bind]
  constructor
  · rintro ⟨first, y, rest, rfl, ha, hf⟩
    cases y with
    | ok v => exact .inr ⟨first, v, rest, rfl, ha, hf⟩
    | error e =>
      obtain ⟨rfl, rfl⟩ := Program.trace_done.1 hf
      exact .inl ⟨e, rfl, by rwa [List.append_nil]⟩
  · rintro (⟨e, rfl, ha⟩ | ⟨first, v, rest, rfl, ha, hf⟩)
    · exact ⟨es, .error e, [], (List.append_nil es).symm, ha, .done _⟩
    · exact ⟨first, .ok v, rest, rfl, ha, hf⟩

/-- A program that cannot fail goes on in any case. -/
theorem trace_lift_bind {p : Program effects α} {f : α → Use β} {x : Except Fault β} :
    Trace (ExceptT.lift p >>= f).run es x ↔
      ∃ first a rest, es = first ++ rest ∧ Trace p first a ∧ Trace (f a).run rest x := by
  have hrun : (ExceptT.lift p >>= f).run = p >>= fun a => (f a).run := by
    rw [ExceptT.run_bind, ExceptT.run_lift]
    simp
  rw [hrun, Program.trace_bind]

theorem trace_ask {r : Request} {x : Except Fault r.Yield} :
    Trace (ask r).run es x ↔
      ∃ reply : Except Disk.Fault r.Yield, es = [⟨r, reply⟩] ∧ x = reply.mapError .system := by
  refine Iff.trans Program.trace_ask ⟨?_, ?_⟩
  · rintro ⟨reply, rest, rfl, h⟩
    obtain ⟨rfl, rfl⟩ := Program.trace_done.1 h
    exact ⟨reply, rfl, rfl⟩
  · rintro ⟨reply, rfl, rfl⟩
    exact ⟨reply, [], rfl, .done _⟩

/-- What is done in a scratch directory stands between its making and its removal. -/
theorem trace_inScratch {work : String → Use α} {x : Except Fault α}
    (h : Trace (inScratch work).run es x) :
    (∃ fault, es = [⟨.makeScratch, .error fault⟩] ∧ x = .error (.system fault)) ∨
      ∃ d done removal, es = ⟨.makeScratch, .ok d⟩ :: (done ++ [⟨.removeScratch d, removal⟩]) ∧
        Trace (work d).run done x := by
  rcases trace_bind.1 h with ⟨e, rfl, hmake⟩ | ⟨first, d, rest, rfl, hmake, hrest⟩
  · obtain ⟨reply, rfl, hreply⟩ := trace_ask.1 hmake
    cases reply with
    | ok d => cases hreply
    | error fault =>
      cases hreply
      exact .inl ⟨fault, rfl, rfl⟩
  · obtain ⟨reply, rfl, hreply⟩ := trace_ask.1 hmake
    cases Except.mapError_eq_ok.1 hreply.symm
    obtain ⟨done, y, rest, rfl, hwork, hrest⟩ := trace_lift_bind.1 hrest
    obtain ⟨last, removal, rest, rfl, hremove, hend⟩ := trace_lift_bind.1 hrest
    obtain ⟨rfl, rfl⟩ := Program.trace_done.1 hend
    cases Program.trace_request.1 hremove
    exact .inr ⟨d, done, removal, rfl, hwork⟩

/-- A run of the tool that ended with status 0. -/
def Succeeded (reply : Except Disk.Fault Finished) : Prop :=
  ∃ finished, reply = .ok finished ∧ finished.exit = .status 0

theorem started_eq_ok {reply : Except Disk.Fault Finished} {finished : Finished} :
    t.started reply = .ok finished ↔ reply = .ok finished := by
  constructor
  · intro h
    unfold started at h
    split at h <;> cases h
    rfl
  · rintro rfl
    rfl

theorem trace_start {directory : Option String} {arguments : List String} {x : Except Fault Finished}
    (h : Trace (t.start directory arguments).run es x) :
    ∃ reply, es = [⟨.start (t.invocation directory arguments), reply⟩] ∧ x = t.started reply := by
  obtain ⟨reply, rest, rfl, hend⟩ := Program.trace_ask.1 h
  obtain ⟨rfl, rfl⟩ := Program.trace_done.1 hend
  exact ⟨reply, rfl, rfl⟩

/-- A run of the tool is one request, and it is a success exactly when it ended with status 0. -/
theorem trace_run {d : String} {arguments : List String} {x : Except Fault Unit}
    (h : Trace (t.run d arguments).run es x) :
    ∃ reply, es = [⟨.start (t.invocation (some d) arguments), reply⟩] ∧
      (x = .ok () ↔ Succeeded reply) := by
  rcases trace_bind.1 h with ⟨e, rfl, hstart⟩ | ⟨first, finished, rest, rfl, hstart, hend⟩
  · obtain ⟨reply, rfl, hreply⟩ := trace_start hstart
    refine ⟨reply, rfl, nofun, ?_⟩
    rintro ⟨finished, rfl, -⟩
    cases hreply
  · obtain ⟨reply, rfl, hreply⟩ := trace_start hstart
    cases started_eq_ok.1 hreply.symm
    by_cases hexit : finished.exit = .status 0
    · rw [if_neg (not_not_intro hexit)] at hend
      obtain ⟨rfl, rfl⟩ := Program.trace_done.1 hend
      exact ⟨_, rfl, fun _ => ⟨finished, rfl, hexit⟩, fun _ => rfl⟩
    · rw [if_pos hexit] at hend
      obtain ⟨rfl, rfl⟩ := Program.trace_done.1 hend
      refine ⟨_, rfl, nofun, ?_⟩
      rintro ⟨_, ⟨⟩, hstatus⟩
      exact absurd hstatus hexit

/-! ## How far a provisioning gets -/

/-- The work in a directory: the document is written, the tool is initialised, and the change is
made. -/
inductive Work (t : Terraform) (document : ByteArray) (change : List String) (d : String) :
    List (Event effects) → Except Fault Unit → Prop
  | unwritten (fault : Disk.Fault) (f : Fault) :
    Work t document change d [⟨.write d Target.stateFile document, .error fault⟩] (.error f)
  | uninitialised {init : Except Disk.Fault Finished} (hinit : ¬Succeeded init) (f : Fault) :
    Work t document change d
      [⟨.write d Target.stateFile document, .ok ()⟩,
        ⟨.start (t.invocation (some d) initArguments), init⟩] (.error f)
  | initialised {init reply : Except Disk.Fault Finished} (hinit : Succeeded init)
    {x : Except Fault Unit} (hx : x = .ok () ↔ Succeeded reply) :
    Work t document change d
      [⟨.write d Target.stateFile document, .ok ()⟩,
        ⟨.start (t.invocation (some d) initArguments), init⟩,
        ⟨.start (t.invocation (some d) change), reply⟩] x

/-- A provisioning gets no directory, or works in one that it removes afterwards. -/
inductive Course (t : Terraform) (document : ByteArray) (change : List String) :
    List (Event effects) → Except Fault Unit → Prop
  | unmade (fault : Disk.Fault) (f : Fault) :
    Course t document change [⟨.makeScratch, .error fault⟩] (.error f)
  | made {d : String} {work : List (Event effects)} {x : Except Fault Unit}
    (hwork : Work t document change d work x) (removal : Except Disk.Fault Unit) :
    Course t document change (⟨.makeScratch, .ok d⟩ :: (work ++ [⟨.removeScratch d, removal⟩])) x

theorem trace_realize {document : ByteArray} {change : List String} {x : Except Fault Unit}
    (h : Trace (t.realize document change).run es x) : Course t document change es x := by
  rcases trace_inScratch h with ⟨fault, rfl, rfl⟩ | ⟨d, work, removal, rfl, hwork⟩
  · exact .unmade fault _
  refine .made ?_ removal
  rcases trace_bind.1 hwork with ⟨f, rfl, hwrite⟩ | ⟨first, ⟨⟩, rest, rfl, hwrite, hrest⟩
  · obtain ⟨reply, rfl, hreply⟩ := trace_ask.1 hwrite
    cases reply with
    | ok => cases hreply
    | error fault => exact .unwritten fault f
  obtain ⟨reply, rfl, hreply⟩ := trace_ask.1 hwrite
  cases Except.mapError_eq_ok.1 hreply.symm
  rcases trace_bind.1 hrest with ⟨f, rfl, hinit⟩ | ⟨second, ⟨⟩, last, rfl, hinit, hchange⟩
  · obtain ⟨init, rfl, hx⟩ := trace_run hinit
    exact .uninitialised (fun h => nomatch hx.2 h) f
  · obtain ⟨init, rfl, hx⟩ := trace_run hinit
    obtain ⟨reply, rfl, hend⟩ := trace_run hchange
    exact .initialised (hx.1 rfl) hend

/-! ## What is asked of the tool -/

/-- The name of a target without any `module.` in front. -/
inductive Bare : String → String → Prop
  | plain {name : String} (h : ∀ rest, name ≠ "module." ++ rest) : Bare name name
  | prefixed {target name : String} (h : Bare target name) : Bare ("module." ++ target) name

/-- The document and the arguments that make the change that a request wants. -/
inductive Wanted : Provisioner.Request → ByteArray → List String → Prop
  | apply (document : ByteArray) : Wanted (.apply document) document ["apply", "-auto-approve"]
  | destroy (document : ByteArray) {targets names : List String}
    (bare : List.Forall₂ Bare targets names) :
    Wanted (.destroy document targets) document
      (["destroy", "-auto-approve"] ++ names.map ("-target=module." ++ ·))

theorem bare_strip (cs : List Char) :
    Bare (String.ofList cs) (String.ofList (bareName.strip cs)) := by
  fun_induction bareName.strip cs with
  | case1 cs rest h _ ih =>
    have hcs : String.ofList cs = "module." ++ String.ofList rest := by
      rw [← String.toList_inj, String.toList_ofList, Text.afterChars?_eq_some.1 h]
      simp [String.toList_append]
    rw [hcs]
    exact .prefixed ih
  | case2 cs h =>
    refine .plain fun rest hcs => ?_
    have hlist : cs = "module.".toList ++ rest.toList := by
      rw [← String.toList_append, ← hcs, String.toList_ofList]
    rw [Text.afterChars?_eq_some.2 hlist] at h
    cases h

theorem bare_bareName (target : String) : Bare target (bareName target) := by
  have h := bare_strip target.toList
  rwa [String.ofList_toList] at h

theorem forall₂_bareName (targets : List String) :
    List.Forall₂ Bare targets (targets.map bareName) := by
  induction targets with
  | nil => exact .nil
  | cons target targets ih => exact .cons (bare_bareName target) ih

theorem use_of_perform {request : Provisioner.Request} {result : Result Unit}
    (h : Attempt.Trace (t.perform request) es result) :
    ∃ x, Trace (t.use request).run es x ∧ result = x.mapError fun f => .applyFailed f.message := by
  obtain ⟨first, x, rest, rfl, huse, hend⟩ := Program.trace_bind.1 h
  obtain ⟨rfl, rfl⟩ := Program.trace_done.1 hend
  rw [List.append_nil]
  exact ⟨x, huse, rfl⟩

theorem trace_perform {request : Provisioner.Request} {result : Result Unit}
    (h : Attempt.Trace (t.perform request) es result) :
    ∃ document change x, Wanted request document change ∧ Course t document change es x ∧
      result = x.mapError fun f => .applyFailed f.message := by
  obtain ⟨x, huse, hresult⟩ := use_of_perform h
  cases request with
  | apply document => exact ⟨document, _, x, .apply document, trace_realize huse, hresult⟩
  | destroy document targets =>
    have hwanted := Wanted.destroy document (forall₂_bareName targets)
    rw [List.map_map] at hwanted
    exact ⟨document, _, x, hwanted, trace_realize huse, hresult⟩

/-! ## Runs of the tool -/

/-- The runs among some requests, each with what came of it. -/
def runs (es : List (Event effects)) : List (Invocation × Except Disk.Fault Finished) :=
  es.filterMap fun
    | ⟨.start run, reply⟩ => some (run, reply)
    | _ => none

/-- A directory has been made and the document written there. -/
def Prepared (document : ByteArray) (d : String) (es : List (Event effects)) : Prop :=
  ⟨.makeScratch, .ok d⟩ ∈ es ∧ ⟨.write d "main.tf.json" document, .ok ()⟩ ∈ es

/-- What keeps the tool from being run at all: no directory is made, or the document does not get into
it. -/
def Unprepared (document : ByteArray) (es : List (Event effects)) : Prop :=
  (∃ fault, ⟨.makeScratch, .error fault⟩ ∈ es) ∨
    ∃ d fault, ⟨.makeScratch, .ok d⟩ ∈ es ∧ ⟨.write d "main.tf.json" document, .error fault⟩ ∈ es

/-- What the operating system does for directories; what the tool does to them is left open. -/
structure Directories {σ : Type} (answer : (r : Request) → σ → Except Disk.Fault r.Yield × σ)
    (holds : σ → String → Option (Dict ByteArray)) : Prop where
  made : ∀ s d, (answer .makeScratch s).1 = .ok d →
    holds s d = none ∧ holds (answer .makeScratch s).2 d = some Dict.empty
  written : ∀ s d name bytes files, holds s d = some files →
    (answer (.write d name bytes) s).1 = .ok () →
    holds (answer (.write d name bytes) s).2 d = some (files.insert name bytes)
  removed : ∀ s d, (answer (.removeScratch d) s).1 = .ok () →
    holds (answer (.removeScratch d) s).2 d = none

/-- A provisioning from a state: the tool is initialised before it makes the change, both in a fresh
directory that held the document alone, and success is that both ended with status 0. -/
structure Orderly {σ : Type} (t : Terraform) (document : ByteArray) (change : List String)
    (answer : (r : Request) → σ → Except Disk.Fault r.Yield × σ)
    (holds : σ → String → Option (Dict ByteArray)) (s : σ) (calls : List (Event effects))
    (result : Result Unit) (final : σ) : Prop where
  runs :
    (runs calls = [] ∧ Unprepared document calls ∧ ∀ d, ¬Prepared document d calls) ∨
    ∃ d init, Prepared document d calls ∧
      ((¬Succeeded init ∧
          runs calls = [(⟨t.binary, ["init", "-force-copy"], t.environment, some d⟩, init)]) ∨
        (Succeeded init ∧ ∃ reply,
          runs calls = [(⟨t.binary, ["init", "-force-copy"], t.environment, some d⟩, init),
            (⟨t.binary, change, t.environment, some d⟩, reply)]))
  found : ∀ before run reply after, calls = before ++ ⟨.start run, reply⟩ :: after →
    Terraform.runs before = [] → ∃ d, run.directory = some d ∧
      holds (Program.behind (E := effects) answer s before) d =
        some (Dict.empty.insert "main.tf.json" document)
  removed : ∀ d, ⟨.makeScratch, .ok d⟩ ∈ calls → holds s d = none ∧ ∃ work removal,
    calls = ⟨.makeScratch, .ok d⟩ :: (work ++ [⟨.removeScratch d, removal⟩]) ∧
      (∀ e ∈ work, e.1 ≠ .makeScratch ∧ ∀ d', e.1 ≠ .removeScratch d') ∧
      (removal = .ok () → holds final d = none)
  succeeds : result = .ok () ↔ ∃ init reply, (Terraform.runs calls).map Prod.snd = [init, reply] ∧
    Succeeded init ∧ Succeeded reply
  fails : ∀ e, result = .error e → ∃ fault : Fault, e = .applyFailed fault.message

theorem Course.runs {document : ByteArray} {change : List String} {x : Except Fault Unit}
    (h : Course t document change es x) :
    (runs es = [] ∧ Unprepared document es ∧ (∀ d, ¬Prepared document d es) ∧ x ≠ .ok ()) ∨
    ∃ d init, Prepared document d es ∧
      ((¬Succeeded init ∧ runs es = [(t.invocation (some d) initArguments, init)] ∧ x ≠ .ok ()) ∨
        (Succeeded init ∧ ∃ reply,
          runs es = [(t.invocation (some d) initArguments, init),
            (t.invocation (some d) change, reply)] ∧ (x = .ok () ↔ Succeeded reply))) := by
  cases h with
  | unmade fault f =>
    refine .inl ⟨rfl, .inl ⟨fault, List.mem_cons_self⟩, ?_, nofun⟩
    rintro d ⟨hmake, -⟩
    cases List.mem_singleton.1 hmake
  | @made d _ _ hwork removal =>
    cases hwork with
    | unwritten fault f =>
      have hfault : Unprepared document (⟨.makeScratch, .ok d⟩ ::
          ([⟨.write d Target.stateFile document, .error fault⟩] ++ [⟨.removeScratch d, removal⟩])) :=
        .inr ⟨d, fault, List.mem_cons_self, List.mem_cons_of_mem _ List.mem_cons_self⟩
      refine .inl ⟨rfl, hfault, ?_, nofun⟩
      rintro d' ⟨-, hwrite⟩
      simp only [List.mem_cons, List.cons_append, List.nil_append, List.not_mem_nil, or_false]
        at hwrite
      rcases hwrite with he | he | he <;> cases he
    | uninitialised hinit f =>
      refine .inr ⟨d, _, ⟨List.mem_cons_self, ?_⟩, .inl ⟨hinit, rfl, nofun⟩⟩
      exact List.mem_cons_of_mem _ List.mem_cons_self
    | initialised hinit hx =>
      refine .inr ⟨d, _, ⟨List.mem_cons_self, ?_⟩, .inr ⟨hinit, _, rfl, hx⟩⟩
      exact List.mem_cons_of_mem _ List.mem_cons_self

theorem Course.succeeds {document : ByteArray} {change : List String} {x : Except Fault Unit}
    (h : Course t document change es x) :
    x = .ok () ↔ ∃ init reply, (Terraform.runs es).map Prod.snd = [init, reply] ∧ Succeeded init ∧
      Succeeded reply := by
  rcases h.runs with ⟨hruns, -, -, hx⟩ | ⟨d, init, -, ⟨-, hruns, hx⟩ | ⟨hinit, reply, hruns, hx⟩⟩
  · rw [hruns]
    exact iff_of_false hx (by simp)
  · rw [hruns]
    exact iff_of_false hx (by simp)
  · rw [hruns, hx]
    simp [hinit]

theorem Work.neither_makes_nor_removes {document : ByteArray} {change : List String} {d : String}
    {x : Except Fault Unit} (h : Work t document change d es x) :
    ∀ e ∈ es, e.1 ≠ .makeScratch ∧ ∀ d', e.1 ≠ .removeScratch d' := by
  have hwrite {d name : String} {bytes : ByteArray} :
      Request.write d name bytes ≠ .makeScratch ∧
        ∀ d', Request.write d name bytes ≠ .removeScratch d' :=
    ⟨nofun, nofun⟩
  have hstart {run : Invocation} :
      Request.start run ≠ .makeScratch ∧ ∀ d', Request.start run ≠ .removeScratch d' :=
    ⟨nofun, nofun⟩
  cases h with
  | unwritten => exact List.forall_mem_singleton.2 hwrite
  | uninitialised =>
    exact List.forall_mem_cons.2 ⟨hwrite, List.forall_mem_singleton.2 hstart⟩
  | initialised =>
    refine List.forall_mem_cons.2 ⟨hwrite, List.forall_mem_cons.2 ⟨hstart, ?_⟩⟩
    exact List.forall_mem_singleton.2 hstart

/-- The directory is removed in the end, and nothing else is made or removed. -/
theorem Course.removed {document : ByteArray} {change : List String} {x : Except Fault Unit}
    (h : Course t document change es x) {d : String} (hd : ⟨.makeScratch, .ok d⟩ ∈ es) :
    ∃ work removal, es = ⟨.makeScratch, .ok d⟩ :: (work ++ [⟨.removeScratch d, removal⟩]) ∧
      ∀ e ∈ work, e.1 ≠ .makeScratch ∧ ∀ d', e.1 ≠ .removeScratch d' := by
  cases h with
  | unmade => cases List.mem_singleton.1 hd
  | made hwork removal =>
    have hothers := hwork.neither_makes_nor_removes
    rcases List.mem_cons.1 hd with he | hd
    · cases he
      exact ⟨_, removal, rfl, hothers⟩
    rcases List.mem_append.1 hd with hd | hd
    · exact absurd rfl (hothers _ hd).1
    · cases List.mem_singleton.1 hd

/-- A run that no other run precedes comes right behind the document. -/
theorem Course.first_run {document : ByteArray} {change : List String} {x : Except Fault Unit}
    (h : Course t document change es x) {before after : List (Event effects)} {run : Invocation}
    {reply : Except Disk.Fault Finished} (hes : es = before ++ ⟨.start run, reply⟩ :: after)
    (hbefore : Terraform.runs before = []) :
    ∃ d, run.directory = some d ∧
      before = [⟨.makeScratch, .ok d⟩, ⟨.write d Target.stateFile document, .ok ()⟩] := by
  cases h with
  | unmade => rcases before with _ | ⟨a, _ | ⟨b, before⟩⟩ <;> cases hes
  | made hwork removal =>
    cases hwork with
    | unwritten =>
      rcases before with _ | ⟨a, _ | ⟨b, _ | ⟨c, _ | ⟨e, before⟩⟩⟩⟩ <;> cases hes
    | uninitialised =>
      rcases before with _ | ⟨a, _ | ⟨b, _ | ⟨c, before⟩⟩⟩
      · cases hes
      · cases hes
      · cases hes
        exact ⟨_, rfl, rfl⟩
      · simp only [List.cons_append, List.cons.injEq] at hes
        obtain ⟨rfl, rfl, rfl, -⟩ := hes
        cases hbefore
    | initialised =>
      rcases before with _ | ⟨a, _ | ⟨b, _ | ⟨c, before⟩⟩⟩
      · cases hes
      · cases hes
      · cases hes
        exact ⟨_, rfl, rfl⟩
      · simp only [List.cons_append, List.cons.injEq] at hes
        obtain ⟨rfl, rfl, rfl, -⟩ := hes
        cases hbefore

/-- Whatever the tool does, a provisioning is orderly: the tool is initialised before it makes the
change, the directory is removed in any case, and what fails is a failed application. -/
theorem perform_orderly {σ : Type} (t : Terraform) (request : Provisioner.Request)
    (answer : (r : Request) → σ → Except Disk.Fault r.Yield × σ)
    (holds : σ → String → Option (Dict ByteArray)) (h : Directories answer holds) (s : σ) :
    ∃ document change, Wanted request document change ∧
      Orderly t document change answer holds s
        ((t.perform request).program.calls (E := effects) answer s)
        ((t.perform request).run (E := effects) answer s).1
        ((t.perform request).run (E := effects) answer s).2 := by
  have htrace := Program.trace_calls (E := effects) answer (t.perform request).program s
  have hanswered := Program.answered_calls (E := effects) answer (t.perform request).program s
  have hfinal := Program.behind_calls (E := effects) answer (t.perform request).program s
  obtain ⟨document, change, x, hwanted, hcourse, hresult⟩ := trace_perform htrace
  refine ⟨document, change, hwanted, ?_, ?_, ?_, ?_, ?_⟩
  · rcases hcourse.runs with ⟨hruns, hfault, hprepared, -⟩ | ⟨d, init, hprepared, hruns⟩
    · exact .inl ⟨hruns, hfault, hprepared⟩
    · refine .inr ⟨d, init, hprepared, ?_⟩
      rcases hruns with ⟨hinit, hruns, -⟩ | ⟨hinit, reply, hruns, -⟩
      · exact .inl ⟨hinit, hruns⟩
      · exact .inr ⟨hinit, reply, hruns⟩
  · intro before run reply after hcalls hbefore
    obtain ⟨d, hd, rfl⟩ := hcourse.first_run hcalls hbefore
    rw [hcalls] at hanswered
    obtain ⟨hmade, hwritten, -⟩ := hanswered
    exact ⟨d, hd, h.written _ d _ document Dict.empty (h.made s d hmade).2 hwritten⟩
  · intro d hd
    obtain ⟨work, removal, hcalls, hothers⟩ := hcourse.removed hd
    rw [hcalls] at hanswered hfinal
    obtain ⟨hmade, hrest⟩ := hanswered
    obtain ⟨-, hremoved, -⟩ := Program.answered_append.1 hrest
    refine ⟨(h.made s d hmade).1, work, removal, hcalls, hothers, ?_⟩
    rintro rfl
    have hgone := h.removed _ d hremoved
    have hlast := (Program.behind_append (E := effects) answer s (⟨.makeScratch, .ok d⟩ :: work)
      [⟨.removeScratch d, .ok ()⟩]).symm.trans hfinal
    exact (congrArg (holds · d) hlast).symm.trans hgone
  · rw [← hcourse.succeeds]
    exact (iff_of_eq (congrArg (· = .ok ()) hresult)).trans Except.mapError_eq_ok
  · intro e he
    have herror := hresult.symm.trans he
    cases x with
    | ok => cases herror
    | error fault =>
      cases herror
      exact ⟨fault, rfl⟩

/-- A system with room for one scratch directory. The tool leaves a file there when it is
initialised, and whatever else it does ends by a signal. -/
def interrupted : (r : Request) → Dict (Dict ByteArray) →
    Except Disk.Fault r.Yield × Dict (Dict ByteArray)
  | .makeScratch, s =>
    if s.contains "/tmp/a" then (.error .alreadyThere, s)
    else (.ok "/tmp/a", s.insert "/tmp/a" .empty)
  | .write d name bytes, s => match s.get? d with
    | none => (.error .missing, s)
    | some files => (.ok (), s.insert d (files.insert name bytes))
  | .start run, s =>
    if run.arguments = ["init", "-force-copy"] then
      (.ok ⟨.status 0, .empty, .empty⟩, s.insert "/tmp/a" (.ofList [("lock", .empty)]))
    else (.ok ⟨.signal, .empty, .empty⟩, s)
  | .removeScratch d, s => (.ok (), s.erase d)

theorem directories_interrupted : Directories interrupted Dict.get? := by
  constructor
  · intro s d h
    rw [interrupted] at h ⊢
    split at h
    · cases h
    · next hnone =>
      cases h
      rw [if_neg hnone, Dict.get?_insert, if_pos rfl]
      exact ⟨Dict.contains_eq_false.1 (Bool.eq_false_iff.2 hnone), rfl⟩
  · intro s d name bytes files hfiles h
    simp only [interrupted, hfiles]
    rw [Dict.get?_insert, if_pos rfl]
  · intro s d h
    rw [interrupted, Dict.get?_erase, if_pos rfl]

/-- The tool is initialised, is interrupted in the destruction, and leaves nothing behind. -/
theorem perform_orderly_interrupted :
    ∃ document change, Wanted (.destroy "\x7b\x7d".toUTF8 ["module.node_a", "b"]) document change ∧
      Orderly (ofBinary "tf") document change interrupted Dict.get? Dict.empty
        (((ofBinary "tf").perform (.destroy "\x7b\x7d".toUTF8 ["module.node_a", "b"])).program.calls
          (E := effects) interrupted Dict.empty)
        (.error (.applyFailed ("`tf destroy -auto-approve -target=module.node_a -target=module.b`" ++
          " exited with a signal: ")))
        Dict.empty := by
  have hend : ((ofBinary "tf").perform (.destroy "\x7b\x7d".toUTF8 ["module.node_a", "b"])).run
      (E := effects) interrupted Dict.empty =
        (.error (.applyFailed ("`tf destroy -auto-approve -target=module.node_a -target=module.b`" ++
          " exited with a signal: ")), Dict.empty) := by
    decide +kernel
  have horderly := perform_orderly (ofBinary "tf")
    (.destroy "\x7b\x7d".toUTF8 ["module.node_a", "b"]) interrupted Dict.get?
    directories_interrupted Dict.empty
  rw [hend] at horderly
  exact horderly

end ClusterLedger.Terraform
