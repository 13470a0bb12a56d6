import ClusterLedger.Proofs.Document.Views

/-!
# Links from nodes to clusters

The nodes of a cluster are found by the reference that they would have to hold, and the cluster of a
node is read off the reference that it holds. Both say the same.
-/
namespace ClusterLedger

namespace NodeView

variable {module : String} {r : Record} {v : NodeView}

theorem text?_environment_of_read (h : ofRecord module r = .ok v) :
    r.text? Reference.environment = some v.environment := by
  have htexts := (isView.ofRecord_eq_ok.1 h).1
  simp only [Record.HasTexts, fields, List.forall₂_cons] at htexts
  exact htexts.2.2.2.1

end NodeView

namespace Document

variable {d : Document} {name c : String} {r : Record} {v : NodeView}

/-- A node has one reference, so it joins one cluster. -/
theorem nodes_disjoint {module other : String} (hne : module ≠ other) :
    (d.nodes module).Disjoint (d.nodes other) := by
  intro name hname hother
  obtain ⟨r, hr, -, hjoins⟩ := mem_nodes.1 hname
  obtain ⟨s, hs, -, hjoins'⟩ := mem_nodes.1 hother
  rw [hr] at hs
  cases hs
  rw [hjoins] at hjoins'
  exact hne (Reference.cluster_injective (Option.some.inj hjoins'))

theorem mem_nodes_iff_cluster? (hr : d.module? name = some r)
    (hnode : ModuleName.isNode name = true) (hv : NodeView.ofRecord name r = .ok v)
    (hne : c ≠ "") (hdot : '.' ∉ c.toList) : name ∈ d.nodes c ↔ v.cluster? = some c := by
  have henvironment := NodeView.text?_environment_of_read hv
  rw [mem_nodes, NodeView.cluster?, Reference.cluster?_eq_some]
  constructor
  · rintro ⟨s, hs, -, hjoins⟩
    rw [hr] at hs
    cases hs
    rw [henvironment] at hjoins
    exact ⟨hne, hdot, Option.some.inj hjoins⟩
  · rintro ⟨-, -, hreference⟩
    exact ⟨r, hr, hnode, by rw [henvironment, hreference]⟩

/-- What the nodes of clusters and the references of nodes say of each other. -/
structure LinksAgree (d : Document) : Prop where
  joins : ∀ name p r, d.module? name = some r → ModuleName.kind? name = some (.node p) →
    (∀ field ∈ NodeView.fields, ∃ s, r.get? field = some (.string s)) →
    ∃ v, d.view? NodeView.ofRecord name = .ok (some v) ∧
      ∀ c, c ≠ "" → '.' ∉ c.toList → (name ∈ d.nodes c ↔ v.cluster? = some c)
  apart : ∀ c c', c ≠ c' → (d.nodes c).Disjoint (d.nodes c')
  sorted : ∀ c, (d.nodes c).Pairwise (· < ·)

/-- A reference joins the cluster that it was made for and no other, and so do nodes. -/
theorem links_agree :
    (∀ r c, Reference.cluster? r = some c ↔
      c ≠ "" ∧ '.' ∉ c.toList ∧ r = Reference.cluster c) ∧
    ∀ d : Document, d.LinksAgree := by
  refine ⟨fun _ _ => Reference.cluster?_eq_some, ?_⟩
  intro d
  constructor
  case joins =>
    intro name p r hr hkind hfields
    obtain ⟨v, hv⟩ := (NodeView.isView.exists_ofRecord name).2 hfields
    have hnode := ModuleName.isNode_iff.2 ⟨p, hkind⟩
    refine ⟨v, (view?_eq_ok hr).2 ⟨v, hv, rfl⟩, ?_⟩
    intro c hne hdot
    exact mem_nodes_iff_cluster? hr hnode hv hne hdot
  case apart => exact fun _ _ => nodes_disjoint
  case sorted => exact d.nodes_sorted

end Document

end ClusterLedger
