import ClusterLedger.Proofs.Document.Request

/-!
# The graph of a document

Documents that grow by requests and shrink by selections stay linked: every module is the manager,
a cluster under its own name or a node of a cluster that is there.
-/
namespace ClusterLedger

namespace Document

variable {d d' : Document} {name : String} {r : Record}

/-! ## Linked documents -/

/-- A module that stands under the name its record calls for; a node joins a cluster that is
there. -/
inductive Fits (d : Document) : String → Record → Prop
  | manager (r : Record) : Fits d ModuleName.manager r
  | cluster {p : Provider} {n : String} {r : Record} (segment : isNameSegment n = true)
      (named : r.text? "name" = some n) : Fits d (ModuleName.cluster p n) r
  | node {p : Provider} {n host : String} {r : Record} (segment : isNameSegment n = true)
      (hostSegment : isNameSegment host = true) (named : r.text? "hostname" = some host)
      (joined : r.text? Reference.environment = some (Reference.cluster (ModuleName.cluster p n)))
      (present : d.contains (ModuleName.cluster p n) = true) :
      Fits d (ModuleName.node p n host) r

/-- Every module fits, and a cluster name belongs to one provider. -/
structure Linked (d : Document) : Prop where
  fits : ∀ {name : String} {r : Record}, d.module? name = some r → d.Fits name r
  apart : ∀ {p q : Provider} {n : String}, d.contains (ModuleName.cluster p n) = true →
    d.contains (ModuleName.cluster q n) = true → p = q

theorem linked_empty : empty.Linked where
  fits h := by cases h
  apart h := by cases h

/-! ## What fits -/

theorem Fits.kind (h : d.Fits name r) : (ModuleName.kind? name).isSome := by
  cases h with
  | manager => rw [ModuleName.kind?_manager]; rfl
  | cluster segment => rw [ModuleName.kind?_cluster _ (ne_empty_of_segment segment)]; rfl
  | node => rw [ModuleName.kind?_node]; rfl

theorem Fits.of_cluster {p : Provider} (h : d.Fits name r)
    (hk : ModuleName.kind? name = some (.cluster p)) :
    ∃ n, isNameSegment n = true ∧ r.text? "name" = some n ∧ name = ModuleName.cluster p n := by
  cases h with
  | manager => rw [ModuleName.kind?_manager] at hk; cases hk
  | cluster segment named =>
    rw [ModuleName.kind?_cluster _ (ne_empty_of_segment segment)] at hk
    cases hk
    exact ⟨_, segment, named, rfl⟩
  | node => rw [ModuleName.kind?_node] at hk; cases hk

theorem Fits.of_node {p : Provider} (h : d.Fits name r)
    (hk : ModuleName.kind? name = some (.node p)) :
    ∃ n host, r.text? Reference.environment = some (Reference.cluster (ModuleName.cluster p n)) ∧
      d.contains (ModuleName.cluster p n) = true ∧ r.text? "hostname" = some host ∧
      name = ModuleName.node p n host ∧ isNameSegment n = true := by
  cases h with
  | manager => rw [ModuleName.kind?_manager] at hk; cases hk
  | cluster segment =>
    rw [ModuleName.kind?_cluster _ (ne_empty_of_segment segment)] at hk
    cases hk
  | node segment _ named joined present =>
    rw [ModuleName.kind?_node] at hk
    cases hk
    exact ⟨_, _, joined, present, named, rfl, segment⟩

/-- A cluster module that fits has a name. -/
theorem Fits.cluster_ne_empty {p : Provider} {n : String}
    (h : d.Fits (ModuleName.cluster p n) r) : n ≠ "" := by
  intro hn
  subst hn
  have hkind := h.kind
  cases p <;> revert hkind <;> decide

/-- The clusters that nodes join have to stay; nothing else in a document matters. -/
theorem Fits.mono (h : d.Fits name r)
    (hkeep : ∀ m, ModuleName.isCluster m = true → name ∈ d.nodes m → d.contains m = true →
      d'.contains m = true) (hr : d.module? name = some r) : d'.Fits name r := by
  cases h with
  | manager => exact .manager r
  | cluster segment named => exact .cluster segment named
  | node segment hostSegment named joined present =>
    refine .node segment hostSegment named joined (hkeep _ ?_ ?_ present)
    · exact ModuleName.isCluster_iff.2 ⟨_, ModuleName.kind?_cluster _ (ne_empty_of_segment segment)⟩
    · refine mem_nodes.2 ⟨r, hr, ?_, joined⟩
      rw [ModuleName.isNode_iff]
      exact ⟨_, ModuleName.kind?_node _ _ _⟩

/-! ## Putting a module -/

theorem Linked.put (h : d.Linked) (hfit : (d.put name r).Fits name r)
    (hapart : ∀ p n, name = ModuleName.cluster p n →
      ∀ q, d.contains (ModuleName.cluster q n) = true → q = p) : (d.put name r).Linked where
  fits := by
    intro k s hk
    rw [module?_put] at hk
    split at hk
    · next he =>
      cases he
      cases hk
      exact hfit
    · exact (h.fits hk).mono (fun m _ _ hm => (contains_put d name r m).2 (.inr hm)) hk
  apart := by
    intro p q n hp hq
    rcases (contains_put d name r _).1 hp with hp | hp
    · rcases (contains_put d name r _).1 hq with hq | hq
      · have hkind := congrArg ModuleName.kind? (hp.symm.trans hq)
        rw [hp] at hfit
        have hne := hfit.cluster_ne_empty
        rw [ModuleName.kind?_cluster p hne, ModuleName.kind?_cluster q hne] at hkind
        cases hkind
        rfl
      · exact (hapart p n hp q hq).symm
    · rcases (contains_put d name r _).1 hq with hq | hq
      · exact hapart q n hq p hp
      · exact h.apart hp hq

/-! ## Clusters by name -/

theorem Linked.of_mem_clusters (h : d.Linked) (hm : name ∈ d.clusters) :
    ∃ p n r, d.module? name = some r ∧ isNameSegment n = true ∧ r.text? "name" = some n ∧
      name = ModuleName.cluster p n := by
  obtain ⟨⟨r, hr⟩, hk⟩ := mem_clusters.1 hm
  obtain ⟨p, hp⟩ := ModuleName.isCluster_iff.1 hk
  obtain ⟨n, hn, hname, he⟩ := (h.fits hr).of_cluster hp
  exact ⟨p, n, r, hr, hn, hname, he⟩

/-- No cluster is called like a cluster module, so only the name field answers to a segment. -/
theorem cluster_not_segment {p : Provider} {n s : String} (hs : isNameSegment s = true) :
    ModuleName.cluster p n ≠ s := by
  intro he
  apply not_mem_of_segment hs
  rw [← he]
  simp [ModuleName.cluster, String.toList_append]

/-- At most one cluster answers to a text, be it the name of a cluster, of its module, or other. -/
theorem Linked.answers_unique (h : d.Linked) {s a b : String} (ha : a ∈ d.clusters)
    (hb : b ∈ d.clusters) (hsa : d.answersTo s a = true) (hsb : d.answersTo s b = true) :
    a = b := by
  obtain ⟨p, m, ra, hra, hm, hma, rfl⟩ := h.of_mem_clusters ha
  obtain ⟨q, n, rb, hrb, hn, hnb, rfl⟩ := h.of_mem_clusters hb
  rcases answersTo_iff.1 hsa with rfl | ⟨r, hr, hname⟩
  · rcases answersTo_iff.1 hsb with he | ⟨r', hr', hname'⟩
    · exact he.symm
    · cases hrb.symm.trans hr'
      cases hnb.symm.trans hname'
      exact absurd rfl (cluster_not_segment hn)
  · cases hra.symm.trans hr
    cases hma.symm.trans hname
    rcases answersTo_iff.1 hsb with he | ⟨r', hr', hname'⟩
    · exact absurd he (cluster_not_segment hm)
    · cases hrb.symm.trans hr'
      cases hnb.symm.trans hname'
      rw [h.apart (contains_iff.2 ⟨_, hra⟩) (contains_iff.2 ⟨_, hrb⟩)]

/-- The cluster of a name is the one that resolves it. -/
theorem Linked.resolve_contains (h : d.Linked) {p : Provider} {n : String}
    (hc : d.contains (ModuleName.cluster p n) = true) :
    d.resolveCluster? n = some (ModuleName.cluster p n) := by
  obtain ⟨r, hr⟩ := contains_iff.1 hc
  have hfit := h.fits hr
  have hkind := ModuleName.kind?_cluster p hfit.cluster_ne_empty
  have hmem : ModuleName.cluster p n ∈ d.clusters :=
    mem_clusters.2 ⟨⟨r, hr⟩, ModuleName.isCluster_iff.2 ⟨p, hkind⟩⟩
  have hanswer : d.answersTo n (ModuleName.cluster p n) = true := by
    obtain ⟨n', hn', hname, he⟩ := hfit.of_cluster hkind
    cases (ModuleName.cluster_inj hfit.cluster_ne_empty he (ne_empty_of_segment hn')).2
    exact answersTo_iff.2 (.inr ⟨r, hr, hname⟩)
  cases hf : d.resolveCluster? n with
  | none => exact absurd hanswer (List.find?_eq_none.1 hf _ hmem)
  | some other =>
    obtain ⟨hother, hanswer'⟩ := NodeRequest.resolveCluster?_mem hf
    rw [h.answers_unique hother hmem hanswer' hanswer]

/-! ## Requests -/

variable {sources : Sources} {m : String}

theorem Linked.manager_run (h : d.Linked) {r : ManagerRequest}
    (hr : r.run sources d = .ok (m, d')) : d'.Linked := by
  rw [ManagerRequest.run_eq_ok hr]
  refine h.put (.manager _) fun p n hn => ?_
  rw [ModuleName.cluster_eq] at hn
  exact absurd hn.symm (ModuleName.cluster_ne_manager _)

theorem Linked.cluster_run (h : d.Linked) {r : ClusterRequest}
    (hr : r.run sources d = .ok (m, d')) : d'.Linked := by
  obtain ⟨hname, hs, hfree, rfl⟩ := ClusterRequest.run_eq_ok hr
  have hne := ne_empty_of_segment hname
  have hview : (r.view sources).settings.check ClusterView.fields = .ok () := hs
  refine h.put (.cluster hname (ClusterView.text?_name hview)) fun q n hn q' hq' => ?_
  obtain ⟨s, hs'⟩ := contains_iff.1 hq'
  obtain ⟨rfl, rfl⟩ := ModuleName.cluster_inj hne hn (h.fits hs').cluster_ne_empty
  -- A cluster of another provider would have answered to the name.
  have hres := h.resolve_contains hq'
  rw [hres, Option.filter_some] at hfree
  split at hfree
  · cases hfree
  · next heq => exact (ModuleName.cluster_inj hne (by simpa using heq) hne).1

/-- A node of a planned request keeps the graph, and the cluster it joins stays. -/
theorem Linked.put_node {p : NodePlan} {host : String} (hcluster : isNameSegment p.cluster = true)
    (hmodule : p.module = ModuleName.cluster p.provider p.cluster)
    (hs : p.settings.check NodeView.fields = .ok ()) (hhost : isNameSegment host = true)
    (h : d.Linked) (hpresent : d.contains p.module = true) :
    (d.put (ModuleName.node p.provider p.cluster host)
      (NodeRequest.node p sources host).toRecord).Linked := by
  have hview : (NodeRequest.node p sources host).settings.check NodeView.fields = .ok () := hs
  have hjoined : (NodeRequest.node p sources host).toRecord.text? Reference.environment =
      some (Reference.cluster (ModuleName.cluster p.provider p.cluster)) := by
    rw [NodeView.text?_environment hview, NodeRequest.environment_node, hmodule]
  have hstays := (contains_put d (ModuleName.node p.provider p.cluster host)
    (NodeRequest.node p sources host).toRecord p.module).2 (.inr hpresent)
  refine h.put (.node hcluster hhost (NodeView.text?_hostname hview) hjoined (hmodule ▸ hstays))
    fun q n hn => ?_
  rw [ModuleName.node_eq, ModuleName.cluster_eq] at hn
  exact absurd hn (ModuleName.node_ne_cluster _ _)

theorem Linked.node_change (h : d.Linked) (r : NodeRequest) (sources : Sources) :
    (r.change sources d).2.Linked := by
  -- The cluster has to be there all along, so it is carried with the graph.
  suffices hkeeps : (r.change sources d).2.Linked ∧
      ∀ k, d.contains k = true → (r.change sources d).2.contains k = true from hkeeps.1
  refine NodeRequest.change_keeps
    (P := fun e => e.Linked ∧ ∀ k, d.contains k = true → e.contains k = true) ?_
    ⟨h, fun k hk => hk⟩
  intro p hp e host hm ⟨he, hcontains⟩
  have hplan := NodeRequest.plan_eq_ok hp
  obtain ⟨q, n, s, hs', hn, -, hmodule⟩ := h.of_mem_clusters hplan.mem_clusters
  obtain ⟨hne, hmodule'⟩ := hplan.module_eq
  obtain ⟨rfl, rfl⟩ := ModuleName.cluster_inj hne (hmodule'.symm.trans hmodule)
    (ne_empty_of_segment hn)
  refine ⟨he.put_node hn hmodule hplan.check
    (Hostname.fresh_segment hplan.segment (hplan.hostnames ▸ hm))
    (hcontains _ (contains_iff.2 ⟨s, hs'⟩)), fun k hk => ?_⟩
  exact (contains_put e _ _ k).2 (.inr (hcontains k hk))

/-! ## Selections -/

/-- A module and, with a cluster, its nodes. -/
def retinue (d : Document) (name : String) : List String :=
  name :: if ModuleName.isCluster name then d.nodes name else []

theorem mem_retinue {k : String} : k ∈ d.retinue name ↔
    k = name ∨ ModuleName.isCluster name = true ∧ k ∈ d.nodes name := by
  rw [retinue, List.mem_cons]
  split
  · next h => simp [h]
  · next h => simp [h]

theorem expandSelection_eq_ok {target : String} {names selected : List String} :
    d.expandSelection target names = .ok selected ↔ names ≠ [] ∧
      (∀ path ∈ names, d.contains (ModuleName.ofPath path) = true) ∧
      selected = Dict.names (names.flatMap fun path => d.retinue (ModuleName.ofPath path)) := by
  rw [expandSelection]
  split
  · next hnames =>
    constructor
    · intro h
      cases h
    · intro h
      exact absurd hnames h.1
  · next hnames =>
    rw [Except.do_eq_ok]
    constructor
    · rintro ⟨groups, hgroups, hend⟩
      cases hend
      obtain ⟨hpresent, rfl⟩ := Except.mapM_check_eq_ok.1 hgroups
      exact ⟨hnames, hpresent, rfl⟩
    · rintro ⟨-, hpresent, rfl⟩
      exact ⟨_, Except.mapM_check_eq_ok.2 ⟨hpresent, rfl⟩, rfl⟩

/-- A selection that could be expanded: the modules are there, and clusters come with their
nodes. -/
theorem mem_expandSelection {target : String} {names selected : List String}
    (h : d.expandSelection target names = .ok selected) {k : String} :
    k ∈ selected ↔ ∃ path ∈ names, d.contains (ModuleName.ofPath path) = true ∧
      (k = ModuleName.ofPath path ∨
        ModuleName.isCluster (ModuleName.ofPath path) = true ∧
          k ∈ d.nodes (ModuleName.ofPath path)) := by
  obtain ⟨-, hpresent, rfl⟩ := expandSelection_eq_ok.1 h
  rw [Dict.mem_names, List.mem_flatMap]
  apply exists_congr
  intro path
  apply and_congr_right
  intro hpath
  rw [mem_retinue, hpresent path hpath, eq_self_iff_true, true_and]

theorem Linked.removeAll (h : d.Linked) {target : String} {names selected : List String}
    (hsel : d.expandSelection target names = .ok selected) : (d.removeAll selected).Linked := by
  have hkind : ∀ k ∈ selected, (ModuleName.kind? k).isSome := by
    intro k hk
    obtain ⟨path, -, hc, rfl | ⟨-, hk⟩⟩ := (mem_expandSelection hsel).1 hk
    · obtain ⟨r, hr⟩ := contains_iff.1 hc
      exact (h.fits hr).kind
    · exact kind_of_mem_nodes hk
  have hmodule (k : String) : (d.removeAll selected).module? k =
      if k ∈ selected then none else d.module? k :=
    module?_removeAll_of_kind hkind k
  have hsub {k : String} {r : Record} (hk : (d.removeAll selected).module? k = some r) :
      k ∉ selected ∧ d.module? k = some r := by
    rw [hmodule] at hk
    split at hk
    · cases hk
    · next hn => exact ⟨hn, hk⟩
  have hcontains {k : String} (hk : (d.removeAll selected).contains k = true) :
      d.contains k = true := by
    obtain ⟨r, hr⟩ := contains_iff.1 hk
    exact contains_iff.2 ⟨r, (hsub hr).2⟩
  refine ⟨fun {k r} hk => ?_, fun hp hq => h.apart (hcontains hp) (hcontains hq)⟩
  obtain ⟨hn, hr⟩ := hsub hk
  refine (h.fits hr).mono (fun m hcluster hjoins hm => ?_) hr
  obtain ⟨s, hs⟩ := contains_iff.1 hm
  refine contains_iff.2 ⟨s, ?_⟩
  rw [hmodule, if_neg, hs]
  -- A selected cluster would have taken this node along.
  intro hsm
  refine hn ((mem_expandSelection hsel).2 ?_)
  obtain ⟨path, hpath, hc, rfl | ⟨-, hnode⟩⟩ := (mem_expandSelection hsel).1 hsm
  · exact ⟨path, hpath, hc, .inr ⟨hcluster, hjoins⟩⟩
  · obtain ⟨_, -, hnode, -⟩ := mem_nodes.1 hnode
    exact absurd hcluster (ModuleName.not_isCluster_of_isNode hnode)

end Document
end ClusterLedger
