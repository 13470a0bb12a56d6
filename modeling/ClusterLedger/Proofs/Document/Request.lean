import ClusterLedger.Proofs.Document.Basic
import ClusterLedger.Proofs.Document.Segments

/-!
# What requests do

A request that succeeds has passed its checks and puts the records that its views call for. Nothing
else about the document changes.
-/
namespace ClusterLedger

variable {sources : Sources} {d d' : Document} {m : String}

/-! ## Requests for a manager or a cluster -/

theorem ManagerRequest.run_eq_ok {r : ManagerRequest} (h : r.run sources d = .ok (m, d')) :
    d' = d.put ModuleName.manager
      (ManagerView.mk (sources.manager r.provider) r.name r.settings).toRecord := by
  rw [run] at h
  split at h
  · cases h
  obtain ⟨-, -, h⟩ := Except.do_eq_ok.1 h
  obtain ⟨e, he, h⟩ := Except.do_eq_ok.1 h
  cases h
  exact Document.addRecord_of_kind (by rw [ModuleName.kind?_manager]; rfl) he

/-- The view of a requested cluster. -/
def ClusterRequest.view (r : ClusterRequest) (sources : Sources) : ClusterView :=
  ⟨sources.cluster r.provider, r.name, Reference.managerApi, r.settings⟩

theorem ClusterRequest.run_eq_ok {r : ClusterRequest} (h : r.run sources d = .ok (m, d')) :
    isNameSegment r.name = true ∧ r.settings.check ClusterView.fields = .ok () ∧
      (d.resolveCluster? r.name).filter (· ≠ ModuleName.cluster r.provider r.name) = none ∧
      d' = d.put (ModuleName.cluster r.provider r.name) (r.view sources).toRecord := by
  rw [run] at h
  split at h
  · cases h
  next hname =>
  have hname := Decidable.not_not.1 hname
  split at h
  · cases h
  obtain ⟨_, hs, h⟩ := Except.do_eq_ok.1 h
  rw [Document.addCluster] at h
  split at h
  · cases h
  next hfree =>
  obtain ⟨e, he, hpair⟩ := Except.map_eq_ok.1 h
  cases hpair
  have hkind := ModuleName.kind?_cluster r.provider (ne_empty_of_segment hname)
  exact ⟨hname, hs, hfree,
    Document.addRecord_of_kind (Option.isSome_iff_exists.2 ⟨_, hkind⟩) he⟩

/-! ## Requests for nodes -/

namespace NodeRequest

theorem addNodes_cons (p : NodePlan) (sources : Sources) (hostname : String) (rest : List String)
    (d : Document) : addNodes p sources (hostname :: rest) d =
      if hostname ∈ p.existing ∨ d.contains (ModuleName.node p.provider p.cluster hostname) then
        (.error (.collision (.node hostname p.cluster)), d)
      else match d.addNode p.provider p.cluster (node p sources hostname) with
        | .ok (_, d') => addNodes p sources rest d'
        | .error e => (.error e, d) :=
  (rfl)

theorem hostname_node (p : NodePlan) (sources : Sources) (hostname : String) :
    (node p sources hostname).hostname = hostname :=
  rfl

theorem environment_node (p : NodePlan) (sources : Sources) (hostname : String) :
    (node p sources hostname).environment = Reference.cluster p.module :=
  rfl

/-- What the cluster has of the account fields of its provider is taken over, and nothing else. -/
theorem get?_inherit (settings : Settings) (d : Document) (module : String) (provider : Provider)
    (field : String) : (inherit settings d module provider).get? field =
      if field ∈ provider.credentialFields then
        (d.get? ("module." ++ module ++ "." ++ field)).or (settings.get? field)
      else settings.get? field := by
  rw [inherit]
  generalize provider.credentialFields = fields
  induction fields generalizing settings with
  | nil => rfl
  | cons taken rest ih =>
    rw [List.foldl_cons, ih]
    cases hv : d.get? ("module." ++ module ++ "." ++ taken) with
    | none =>
      by_cases hf : field = taken
      · subst hf
        simp [hv]
      · simp [hf]
    | some v =>
      by_cases hf : field = taken
      · subst hf
        simp [hv, Dict.get?_insert]
      · simp [hf, Dict.get?_insert, Ne.symm hf]

/-- No account field is a field of the node itself. -/
theorem not_mem_credentialFields (provider : Provider) {field : String}
    (hf : field ∈ NodeView.fields) : field ∉ provider.credentialFields := by
  have hall : ∀ p ∈ Provider.all, ∀ f ∈ NodeView.fields, f ∉ p.credentialFields := by decide
  exact hall provider provider.mem_all field hf

theorem check_inherit {settings : Settings} (h : settings.check NodeView.fields = .ok ())
    (d : Document) (module : String) (provider : Provider) :
    (inherit settings d module provider).check NodeView.fields = .ok () := by
  have hnone : (inherit settings d module provider).override? NodeView.fields = none := by
    refine List.find?_eq_none.2 fun field hf => ?_
    have hsame := get?_inherit settings d module provider field
    rw [if_neg (not_mem_credentialFields provider hf), Settings.get?_of_check h hf] at hsame
    simp [Dict.contains_eq_false.2 hsame]
  rw [Settings.check, hnone]

theorem resolveCluster?_mem {s name : String} (h : d.resolveCluster? s = some name) :
    name ∈ d.clusters ∧ d.answersTo s name = true :=
  ⟨List.mem_of_find?_eq_some h, List.find?_some h⟩

/-- What a plan for nodes says about the document and the request it was made from. -/
structure Planned (r : NodeRequest) (d : Document) (p : NodePlan) : Prop where
  segment : isNameSegment r.hostname = true
  positive : r.count ≠ 0
  resolved : d.resolveCluster? r.cluster = some p.module
  kind : ModuleName.kind? p.module = some (.cluster p.provider)
  cluster : p.cluster = (Text.after? (ModuleName.cluster p.provider "") p.module).getD p.module
  existing : p.existing = d.hostnames p.module
  hostnames : p.hostnames = Hostname.fresh p.existing r.hostname r.count
  checked : r.settings.check NodeView.fields = .ok ()
  settings : p.settings = inherit r.settings d p.module p.provider

theorem plan_eq_ok {r : NodeRequest} {p : NodePlan} (hp : r.plan d = .ok p) : r.Planned d p := by
  rw [plan] at hp
  split at hp
  · cases hp
  next hname =>
  by_cases hcount : r.count = 0
  · rw [if_pos hcount] at hp
    cases hp
  rw [if_neg hcount] at hp
  obtain ⟨_, hs, hp⟩ := Except.do_eq_ok.1 hp
  split at hp
  · cases hp
  next module hres =>
  split at hp
  · next provider hkind =>
    split at hp
    · cases hp
    · cases hp
      exact ⟨Decidable.not_not.1 hname, hcount, hres, hkind, rfl, rfl, rfl, hs, rfl⟩
  · cases hp

theorem Planned.mem_clusters {r : NodeRequest} {p : NodePlan} (h : r.Planned d p) :
    p.module ∈ d.clusters :=
  (resolveCluster?_mem h.resolved).1

theorem Planned.module_eq {r : NodeRequest} {p : NodePlan} (h : r.Planned d p) :
    p.cluster ≠ "" ∧ p.module = ModuleName.cluster p.provider p.cluster := by
  obtain ⟨n, hn, hmodule⟩ := ModuleName.kind?_eq_cluster.1 h.kind
  have hcluster := h.cluster
  rw [hmodule, ModuleName.after?_cluster, Option.getD_some] at hcluster
  rw [hcluster]
  exact ⟨hn, hmodule⟩

theorem Planned.check {r : NodeRequest} {p : NodePlan} (h : r.Planned d p) :
    p.settings.check NodeView.fields = .ok () :=
  h.settings ▸ check_inherit h.checked d p.module p.provider

theorem addNode_eq_ok {p : Provider} {cluster : String} {v : NodeView}
    (h : d.addNode p cluster v = .ok (m, d')) :
    d' = d.put (ModuleName.node p cluster v.hostname) v.toRecord := by
  obtain ⟨e, he, hpair⟩ := Except.map_eq_ok.1 h
  cases hpair
  have hkind := ModuleName.kind?_node p cluster v.hostname
  exact Document.addRecord_of_kind (Option.isSome_iff_exists.2 ⟨_, hkind⟩) he

/-- What putting any of the nodes keeps, adding nodes keeps, also when it stops before the last. -/
theorem addNodes_keeps {p : NodePlan} {P : Document → Prop} {hosts : List String}
    (hput : ∀ d, ∀ host ∈ hosts, P d →
      P (d.put (ModuleName.node p.provider p.cluster host) (node p sources host).toRecord))
    (h : P d) : P (addNodes p sources hosts d).2 := by
  induction hosts generalizing d with
  | nil => exact h
  | cons host rest ih =>
    rw [addNodes_cons]
    split
    · exact h
    split
    · next m e hadd =>
      rw [addNode_eq_ok hadd, hostname_node]
      exact ih (fun d host' hm => hput d host' (List.mem_cons_of_mem _ hm))
        (hput d host List.mem_cons_self h)
    · exact h

/-- What putting any of the planned nodes keeps, the request keeps. -/
theorem change_keeps {r : NodeRequest} {P : Document → Prop}
    (hput : ∀ p, r.plan d = .ok p → ∀ d, ∀ host ∈ p.hostnames, P d →
      P (d.put (ModuleName.node p.provider p.cluster host) (node p sources host).toRecord))
    (h : P d) : P (r.change sources d).2 := by
  rw [change]
  split
  · exact h
  next p hp =>
  have hnodes := addNodes_keeps (hput p hp) h
  split
  · next heq => rw [heq] at hnodes; exact hnodes
  · next heq => rw [heq] at hnodes; exact hnodes

end NodeRequest

/-! ## Steps -/

/-- What a change leaves when it succeeds. -/
def Change.attempt {α : Type} (change : Change α) (d : Document) : Result Document :=
  (change d).1.map fun _ => (change d).2

theorem Change.attempt_ofResult {α : Type} {f : Document → Result (α × Document)}
    (h : (Change.ofResult f).attempt d = .ok d') : ∃ a, f d = .ok (a, d') := by
  rw [attempt, ofResult] at h
  split at h
  · next a e he =>
    cases h
    exact ⟨a, he⟩
  · cases h

/-- Something that is asked for. -/
inductive Request where
  | manager (request : ManagerRequest)
  | cluster (request : ClusterRequest)
  | nodes (request : NodeRequest)

namespace Request

/-- The settings of a request. -/
def settings : Request → Settings
  | manager request => request.settings
  | cluster request => request.settings
  | nodes request => request.settings

/-- The document after a request, or why the request failed. -/
def attempt (sources : Sources) : Request → Document → Result Document
  | manager request, d => (request.change sources).attempt d
  | cluster request, d => (request.change sources).attempt d
  | nodes request, d => (request.change sources).attempt d

end Request

/-- A request, or the removal of a selection. -/
inductive Step where
  | request (request : Request) (sources : Sources)
  | destroy (target : String) (names : List String)

namespace Step

/-- The document after a step, or why the step failed. -/
def attempt : Step → Document → Result Document
  | request r sources, d => r.attempt sources d
  | destroy target names, d => (d.expandSelection target names).map d.removeAll

/-- A step that fails leaves the document as it was. -/
def apply (s : Step) (d : Document) : Document :=
  match s.attempt d with
  | .ok d' => d'
  | .error _ => d

end Step

end ClusterLedger
