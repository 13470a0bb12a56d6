import ClusterLedger.Proofs.Document.Selection
import Mathlib.Order.Bounds.Basic

/-!
# What a destruction takes along

Selected modules are destroyed together with the nodes of selected clusters. These are as few as
possible, whatever is left stays as it was, and no node is left without its cluster.
-/
namespace ClusterLedger

variable {d : Document} {target k name : String} {names other selected : List String}

namespace Document

/-! ## Expanding a selection -/

theorem expandSelection_congr (h : d.expandSelection target names = .ok selected)
    (hother : ∀ k, k ∈ other ↔ k ∈ names) : d.expandSelection target other = .ok selected := by
  obtain ⟨hnames, hpresent, rfl⟩ := expandSelection_eq_ok.1 h
  apply expandSelection_eq_ok.2
  refine ⟨?_, fun path hpath => hpresent path ((hother path).1 hpath), ?_⟩
  · rintro rfl
    obtain ⟨name, hname⟩ := List.exists_mem_of_ne_nil names hnames
    exact List.not_mem_nil ((hother name).2 hname)
  · apply Dict.names_congr
    simp [List.mem_flatMap, hother]

/-! ## Selected modules -/

/-- What is selected for destruction: a cluster, or nodes of one by their host names. -/
inductive Selection where
  | cluster (name : String)
  | nodes (cluster : String) (hosts : List String)

def Selection.select : Selection → Document → Result (List String)
  | cluster name, d => d.selectCluster name
  | nodes owner hosts, d => d.selectNodes owner hosts

/-- What is selected has a kind, so none of the names is taken for a path. -/
theorem Selection.kind_of_mem {s : Selection} (h : s.select d = .ok names) (hmem : name ∈ names) :
    (ModuleName.kind? name).isSome := by
  cases s with
  | cluster cluster =>
    rw [select, selectCluster] at h
    split at h
    · next module hcluster =>
      cases h
      rw [List.mem_singleton.1 hmem]
      obtain ⟨p, hp⟩ := ModuleName.isCluster_iff.1
        (mem_clusters.1 (List.mem_of_find?_eq_some hcluster)).2
      simp [hp]
    · cases h
  | nodes cluster hosts =>
    obtain ⟨module, hnode⟩ := mem_nodes_of_selectNodes h hmem
    exact kind_of_mem_nodes hnode

/-! ## The least set -/

/-- A set of modules that has some modules and, with every cluster, its nodes. -/
structure ClosedOver (d : Document) (names : List String) (modules : Set String) : Prop where
  named : ∀ name ∈ names, name ∈ modules
  nodes : ∀ c ∈ modules, ModuleName.isCluster c = true → ∀ k ∈ d.nodes c, k ∈ modules

theorem mem_expanded (hnames : ∀ name ∈ names, (ModuleName.kind? name).isSome)
    (h : d.expandSelection target names = .ok selected) :
    k ∈ selected ↔ ∃ name ∈ names, k ∈ d.retinue name := by
  obtain ⟨-, -, rfl⟩ := expandSelection_eq_ok.1 h
  rw [Dict.mem_names, List.mem_flatMap]
  apply exists_congr
  intro name
  apply and_congr_right
  intro hname
  rw [ModuleName.ofPath_of_kind (hnames name hname)]

theorem isLeast_expanded (hnames : ∀ name ∈ names, (ModuleName.kind? name).isSome)
    (h : d.expandSelection target names = .ok selected) :
    IsLeast {modules | d.ClosedOver names modules} {k | k ∈ selected} := by
  constructor
  · constructor
    case named =>
      intro name hname
      exact (mem_expanded hnames h).2 ⟨name, hname, mem_retinue.2 (.inl rfl)⟩
    case nodes =>
      intro c hc hcluster k hk
      obtain ⟨name, hname, hc⟩ := (mem_expanded hnames h).1 hc
      rcases mem_retinue.1 hc with rfl | ⟨-, hnode⟩
      · exact (mem_expanded hnames h).2 ⟨c, hname, mem_retinue.2 (.inr ⟨hcluster, hk⟩)⟩
      · obtain ⟨-, -, hkind, -⟩ := mem_nodes.1 hnode
        exact absurd hcluster (ModuleName.not_isCluster_of_isNode hkind)
  · intro modules hclosed k hk
    obtain ⟨name, hname, hk⟩ := (mem_expanded hnames h).1 hk
    have hmem := hclosed.named name hname
    rcases mem_retinue.1 hk with rfl | ⟨hcluster, hnode⟩
    · exact hmem
    · exact hclosed.nodes name hmem hcluster k hnode

theorem kind_of_expanded (hnames : ∀ name ∈ names, (ModuleName.kind? name).isSome)
    (h : d.expandSelection target names = .ok selected) (hk : k ∈ selected) :
    (ModuleName.kind? k).isSome := by
  obtain ⟨name, hname, hk⟩ := (mem_expanded hnames h).1 hk
  rcases mem_retinue.1 hk with rfl | ⟨-, hnode⟩
  · exact hnames k hname
  · exact kind_of_mem_nodes hnode

theorem contains_of_expanded (h : d.expandSelection target names = .ok selected)
    (hk : k ∈ selected) : d.contains k = true := by
  obtain ⟨path, -, hpresent, rfl | ⟨-, hnode⟩⟩ := (mem_expandSelection h).1 hk
  · exact hpresent
  · obtain ⟨r, hr, -⟩ := mem_nodes.1 hnode
    exact contains_iff.2 ⟨r, hr⟩

theorem expanded_ne_nil (h : d.expandSelection target names = .ok selected) : selected ≠ [] := by
  obtain ⟨hnames, hpresent, -⟩ := expandSelection_eq_ok.1 h
  obtain ⟨path, hpath⟩ := List.exists_mem_of_ne_nil names hnames
  exact List.ne_nil_of_mem
    ((mem_expandSelection h).2 ⟨path, hpath, hpresent path hpath, .inl rfl⟩)

/-! ## What is left -/

/-- The modules `selected` are those to destroy when `names` were selected, and `remaining` is what
the document is without them. -/
structure Destroys (d : Document) (names selected : List String) (remaining : Document) : Prop where
  nonempty : selected ≠ []
  sorted : selected.Pairwise (· < ·)
  least : IsLeast {modules | d.ClosedOver names modules} {k | k ∈ selected}
  present : ∀ k ∈ selected, d.contains k = true
  modules : ∀ k, remaining.module? k = if k ∈ selected then none else d.module? k
  extra : remaining.extra = d.extra
  nodes : ∀ c ∈ selected, ModuleName.isCluster c = true → remaining.nodes c = []
  references : ∀ c ∈ selected, ModuleName.isCluster c = true → ∀ k r,
    remaining.module? k = some r → ModuleName.isNode k = true →
    (r.text? Reference.environment).bind Reference.cluster? ≠ some c

theorem destroys_removeAll {s : Selection} (hselect : s.select d = .ok names)
    (h : d.expandSelection target names = .ok selected) :
    d.Destroys names selected (d.removeAll selected) := by
  have hkinds : ∀ name ∈ names, (ModuleName.kind? name).isSome := fun _ => s.kind_of_mem hselect
  have hleast := isLeast_expanded hkinds h
  have hmodules (k) : (d.removeAll selected).module? k =
      if k ∈ selected then none else d.module? k :=
    module?_removeAll_of_kind (fun _ => kind_of_expanded hkinds h) k
  have hnodes (c) (hc : c ∈ selected) (hcluster : ModuleName.isCluster c = true) (k) :
      k ∉ (d.removeAll selected).nodes c := by
    intro hk
    obtain ⟨r, hr, hkind, hjoins⟩ := mem_nodes.1 hk
    rw [hmodules] at hr
    split at hr
    · cases hr
    · next hout =>
      exact hout (hleast.1.nodes c hc hcluster k (mem_nodes.2 ⟨r, hr, hkind, hjoins⟩))
  constructor
  case nonempty => exact expanded_ne_nil h
  case sorted =>
    obtain ⟨-, -, rfl⟩ := expandSelection_eq_ok.1 h
    exact Dict.names_sorted _
  case least => exact hleast
  case present => exact fun _ => contains_of_expanded h
  case modules => exact hmodules
  case extra => exact removeAll_extra d selected
  case nodes => exact fun c hc hcluster => List.eq_nil_iff_forall_not_mem.2 (hnodes c hc hcluster)
  case references =>
    intro c hc hcluster k r hr hkind hjoins
    obtain ⟨reference, hreference, hc'⟩ := Option.bind_eq_some_iff.1 hjoins
    rw [(Reference.cluster?_eq_some.1 hc').2.2] at hreference
    exact hnodes c hc hcluster k (mem_nodes.2 ⟨r, hr, hkind, hreference⟩)

end Document

end ClusterLedger
