import ClusterLedger.Proofs.Document.Graph

/-!
# Documents made by requests

A document that starts empty and changes by requests and selections only has the shape that its
readers rely on, whatever was asked for.
-/
namespace ClusterLedger

/-! ## Documents stay linked -/

namespace Document

variable {d d' : Document}

theorem Linked.request (h : d.Linked) {r : Request} {sources : Sources}
    (hr : r.attempt sources d = .ok d') : d'.Linked := by
  cases r with
  | manager request =>
    obtain ⟨m, hm⟩ := Change.attempt_ofResult hr
    exact h.manager_run hm
  | cluster request =>
    obtain ⟨m, hm⟩ := Change.attempt_ofResult hr
    exact h.cluster_run hm
  | nodes request =>
    obtain ⟨hosts, -, rfl⟩ := Except.map_eq_ok.1 hr
    exact h.node_change request sources

theorem Linked.attempt (h : d.Linked) {s : Step} (hs : s.attempt d = .ok d') : d'.Linked := by
  cases s with
  | request r sources => exact h.request hs
  | destroy target names =>
    obtain ⟨selected, hsel, rfl⟩ := Except.map_eq_ok.1 hs
    exact h.removeAll hsel

theorem Linked.apply (h : d.Linked) (s : Step) : (s.apply d).Linked := by
  rw [Step.apply]
  split
  · next hs => exact h.attempt hs
  · exact h

theorem Linked.foldl (h : d.Linked) (steps : List Step) :
    (steps.foldl (fun d s => s.apply d) d).Linked := by
  induction steps generalizing d with
  | nil => exact h
  | cons s rest ih => exact ih (h.apply s)

/-! ## What linked documents look like -/

/-- The host name in the record of a module. -/
def hostname? (d : Document) (name : String) : Option String :=
  (d.module? name).bind (Record.text? · "hostname")

/-- The name of a node says which cluster it joins and what its host is called. -/
theorem Linked.node_name (h : d.Linked) {name module : String} (hn : name ∈ d.nodes module) :
    ∃ p n host, isNameSegment n = true ∧ d.hostname? name = some host ∧
      module = ModuleName.cluster p n ∧ name = ModuleName.node p n host := by
  obtain ⟨r, hr, hnode, hjoined⟩ := mem_nodes.1 hn
  obtain ⟨p, hp⟩ := ModuleName.isNode_iff.1 hnode
  obtain ⟨n, host, hjoined', -, hhost, hname, hsegment⟩ := (h.fits hr).of_node hp
  have hmodule := Reference.cluster_injective (Option.some.inj (hjoined.symm.trans hjoined'))
  refine ⟨p, n, host, hsegment, ?_, hmodule, hname⟩
  rw [hostname?, hr]
  exact hhost

theorem Linked.node_unique (h : d.Linked) {module a b : String} (ha : a ∈ d.nodes module)
    (hb : b ∈ d.nodes module) (hhost : d.hostname? a = d.hostname? b) : a = b := by
  obtain ⟨p, m, host, hm, hha, hma, rfl⟩ := h.node_name ha
  obtain ⟨q, n, host', hn, hhb, hmb, rfl⟩ := h.node_name hb
  rw [hha, hhb] at hhost
  cases hhost
  obtain ⟨rfl, rfl⟩ := ModuleName.cluster_inj (ne_empty_of_segment hm) (hma.symm.trans hmb)
    (ne_empty_of_segment hn)
  rfl

/-- The nodes of a cluster have different host names. -/
theorem Linked.hostnames_nodup (h : d.Linked) (module : String) :
    ((d.nodes module).map d.hostname?).Nodup := by
  refine List.pairwise_map.2 ((nodes_nodup d module).imp_of_mem ?_)
  intro a b ha hb hne he
  exact hne (h.node_unique ha hb he)

/-- Every module is the manager, a cluster under its own name, which no other cluster has, or a
node of a cluster that is there. -/
structure WellFormed (d : Document) : Prop where
  kinds : ∀ name ∈ d.moduleNames, (ModuleName.kind? name).isSome
  clusterNames : ∀ {name r p}, d.module? name = some r →
    ModuleName.kind? name = some (.cluster p) →
    ∃ n, r.text? "name" = some n ∧ name = ModuleName.cluster p n
  clustersApart : ∀ {a b r s}, d.module? a = some r → d.module? b = some s →
    ModuleName.isCluster a = true → ModuleName.isCluster b = true →
    r.text? "name" = s.text? "name" → a = b
  oneAnswer : ∀ {s a b}, a ∈ d.clusters → b ∈ d.clusters → d.answersTo s a = true →
    d.answersTo s b = true → a = b
  nodesJoin : ∀ {name r p}, d.module? name = some r →
    ModuleName.kind? name = some (.node p) →
    ∃ n host, r.text? Reference.environment = some (Reference.cluster (ModuleName.cluster p n)) ∧
      d.contains (ModuleName.cluster p n) = true ∧ r.text? "hostname" = some host ∧
      name = ModuleName.node p n host
  hostsApart : ∀ module, ((d.nodes module).map d.hostname?).Nodup

theorem Linked.clusters_apart (h : d.Linked) {a b : String} {r s : Record}
    (hr : d.module? a = some r) (hs : d.module? b = some s)
    (ha : ModuleName.isCluster a = true) (hb : ModuleName.isCluster b = true)
    (hname : r.text? "name" = s.text? "name") : a = b := by
  have hma : a ∈ d.clusters := mem_clusters.2 ⟨⟨r, hr⟩, ha⟩
  have hmb : b ∈ d.clusters := mem_clusters.2 ⟨⟨s, hs⟩, hb⟩
  obtain ⟨p, hp⟩ := ModuleName.isCluster_iff.1 ha
  obtain ⟨n, -, hn, -⟩ := (h.fits hr).of_cluster hp
  exact h.answers_unique hma hmb (answersTo_iff.2 (.inr ⟨r, hr, hn⟩))
    (answersTo_iff.2 (.inr ⟨s, hs, hname ▸ hn⟩))

theorem Linked.wellFormed (h : d.Linked) : d.WellFormed where
  kinds name hname := by
    obtain ⟨r, hr⟩ := mem_moduleNames.1 hname
    exact (h.fits hr).kind
  clusterNames hr hk := by
    obtain ⟨n, -, hn, he⟩ := (h.fits hr).of_cluster hk
    exact ⟨n, hn, he⟩
  clustersApart := h.clusters_apart
  oneAnswer := h.answers_unique
  nodesJoin hr hk := by
    obtain ⟨n, host, hjoined, hpresent, hhost, hname, -⟩ := (h.fits hr).of_node hk
    exact ⟨n, host, hjoined, hpresent, hhost, hname⟩
  hostsApart := h.hostnames_nodup

/-- Whatever requests and selections a document comes from, and in whatever order, it is well
formed. -/
theorem steps_wellFormed (steps : List Step) :
    (steps.foldl (fun d s => s.apply d) empty).WellFormed :=
  (linked_empty.foldl steps).wellFormed

end Document

end ClusterLedger
