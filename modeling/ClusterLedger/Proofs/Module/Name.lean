import ClusterLedger.Module.Name
import ClusterLedger.Module.Reference
import ClusterLedger.Proofs.Text.Affix

/-!
# What module names say

The kind of a module and the parts of its name determine each other.
-/
namespace ClusterLedger

theorem Provider.not_mem_slug (p : Provider) : '_' ∉ p.slug.toList := by
  cases p <;> decide

namespace ModuleName

/-! ## Providers -/

/-- What follows the slug of a provider in a text. -/
theorem after?_slug {s rest : String} {p : Provider} :
    (Text.after? p.slug s).bind (Text.after? "_") = some rest ↔ s = p.slug ++ "_" ++ rest := by
  rw [Option.bind_eq_some_iff]
  constructor
  · rintro ⟨mid, hmid, hrest⟩
    rw [Text.after?_eq_some] at hmid hrest
    rw [hmid, hrest, String.append_assoc]
  · rintro rfl
    refine ⟨"_" ++ rest, ?_, Text.after?_append _ _⟩
    rw [String.append_assoc, Text.after?_append]

theorem provider?_eq_some {s : String} {p : Provider} :
    provider? s = some p ↔ ∃ rest, rest ≠ "" ∧ s = p.slug ++ "_" ++ rest := by
  rw [provider?]
  constructor
  · intro h
    have hp := List.find?_some h
    split at hp
    · next rest hrest => exact ⟨rest, of_decide_eq_true hp, after?_slug.1 hrest⟩
    · cases hp
  · rintro ⟨rest, hne, hs⟩
    cases hf : Provider.all.find? _ with
    | none =>
      have hp := List.find?_eq_none.1 hf p p.mem_all
      rw [after?_slug.2 hs] at hp
      exact absurd (decide_eq_true hne) hp
    | some q =>
      have hq := List.find?_some hf
      split at hq
      · next rest' hrest' =>
        have hs' := after?_slug.1 hrest'
        have hslug := Text.append_underscore_inj (hs.symm.trans hs') p.not_mem_slug q.not_mem_slug
        rw [Provider.slug_injective hslug.1]
      · cases hq

/-! ## Kinds -/

theorem cluster_eq (p : Provider) (name : String) :
    cluster p name = "cluster_" ++ (p.slug ++ "_" ++ name) := by
  simp only [cluster, String.append_assoc]

theorem node_eq (p : Provider) (owner hostname : String) :
    node p owner hostname = "node_" ++ (p.slug ++ "_" ++ (owner ++ "_" ++ hostname)) := by
  simp only [node, String.append_assoc]

/-- The first characters of the three kinds of names differ. -/
theorem cluster_ne_manager (rest : String) : "cluster_" ++ rest ≠ manager := by
  intro h
  have := congrArg (fun s => s.toList[7]?) h
  simp [manager, String.toList_append] at this

theorem node_ne_manager (rest : String) : "node_" ++ rest ≠ manager := by
  intro h
  have := congrArg (fun s => s.toList[0]?) h
  simp [manager, String.toList_append] at this

theorem node_ne_cluster (rest rest' : String) : "node_" ++ rest ≠ "cluster_" ++ rest' := by
  intro h
  have := congrArg (fun s => s.toList[0]?) h
  simp [String.toList_append] at this

theorem kind?_eq_manager {s : String} : kind? s = some .manager ↔ s = manager := by
  rw [kind?]
  split
  · next h => simp [h]
  · next h =>
    refine iff_of_false (fun he => ?_) h
    split at he <;>
    · obtain ⟨q, -, hq⟩ := Option.map_eq_some_iff.1 he
      cases hq

theorem kind?_eq_cluster {s : String} {p : Provider} :
    kind? s = some (.cluster p) ↔ ∃ name, name ≠ "" ∧ s = cluster p name := by
  simp only [cluster_eq]
  constructor
  · intro h
    rw [kind?] at h
    split at h
    · cases h
    split at h
    · next rest hrest =>
      obtain ⟨q, hq, he⟩ := Option.map_eq_some_iff.1 h
      cases he
      obtain ⟨name, hne, rfl⟩ := provider?_eq_some.1 hq
      exact ⟨name, hne, Text.after?_eq_some.1 hrest⟩
    · obtain ⟨q, -, he⟩ := Option.map_eq_some_iff.1 h
      cases he
  · rintro ⟨name, hne, rfl⟩
    rw [kind?, if_neg (cluster_ne_manager _), Text.after?_append]
    exact Option.map_eq_some_iff.2 ⟨p, provider?_eq_some.2 ⟨name, hne, rfl⟩, rfl⟩

theorem kind?_eq_node {s : String} {p : Provider} :
    kind? s = some (.node p) ↔ ∃ rest, rest ≠ "" ∧ s = "node_" ++ (p.slug ++ "_" ++ rest) := by
  constructor
  · intro h
    rw [kind?] at h
    split at h
    · cases h
    split at h
    · obtain ⟨q, -, he⟩ := Option.map_eq_some_iff.1 h
      cases he
    · obtain ⟨q, hq, he⟩ := Option.map_eq_some_iff.1 h
      cases he
      obtain ⟨rest, hrest, hp⟩ := Option.bind_eq_some_iff.1 hq
      obtain ⟨name, hne, rfl⟩ := provider?_eq_some.1 hp
      exact ⟨name, hne, Text.after?_eq_some.1 hrest⟩
  · rintro ⟨rest, hne, rfl⟩
    rw [kind?, if_neg (node_ne_manager _), Text.after?_eq_none (node_ne_cluster _),
      Text.after?_append]
    exact Option.map_eq_some_iff.2 ⟨p, provider?_eq_some.2 ⟨rest, hne, rfl⟩, rfl⟩

theorem kind?_manager : kind? manager = some .manager :=
  kind?_eq_manager.2 rfl

theorem kind?_cluster {name : String} (p : Provider) (h : name ≠ "") :
    kind? (cluster p name) = some (.cluster p) :=
  kind?_eq_cluster.2 ⟨name, h, rfl⟩

theorem kind?_node (p : Provider) (owner hostname : String) :
    kind? (node p owner hostname) = some (.node p) := by
  refine kind?_eq_node.2 ⟨_, fun h => ?_, node_eq p owner hostname⟩
  have := congrArg String.length h
  simp at this

theorem isCluster_iff {s : String} : isCluster s = true ↔ ∃ p, kind? s = some (.cluster p) := by
  rw [isCluster]
  split
  · next p h => simp [h]
  · next h => simpa using h

theorem isNode_iff {s : String} : isNode s = true ↔ ∃ p, kind? s = some (.node p) := by
  rw [isNode]
  split
  · next p h => simp [h]
  · next h => simpa using h

theorem not_isCluster_of_isNode {s : String} (h : isNode s = true) : isCluster s ≠ true := by
  intro hcluster
  obtain ⟨p, hp⟩ := isNode_iff.1 h
  obtain ⟨q, hq⟩ := isCluster_iff.1 hcluster
  cases hp.symm.trans hq

/-! ## Parts -/

theorem cluster_inj {p q : Provider} {m n : String} (hm : m ≠ "")
    (h : cluster p m = cluster q n) (hn : n ≠ "") : p = q ∧ m = n := by
  have hk := kind?_cluster p hm
  rw [h, kind?_cluster q hn] at hk
  cases hk
  rw [cluster_eq, cluster_eq] at h
  exact ⟨rfl, Text.append_left_cancel (Text.append_left_cancel h)⟩

theorem node_inj {p q : Provider} {c d h k : String} (he : node p c h = node q d k)
    (hc : '_' ∉ c.toList) (hd : '_' ∉ d.toList) : p = q ∧ c = d ∧ h = k := by
  have hk := kind?_node p c h
  rw [he, kind?_node] at hk
  cases hk
  rw [node_eq, node_eq] at he
  have := Text.append_underscore_inj
    (Text.append_left_cancel (Text.append_left_cancel he)) hc hd
  exact ⟨rfl, this⟩

theorem after?_cluster (p : Provider) (name : String) :
    Text.after? (cluster p "") (cluster p name) = some name := by
  rw [Text.after?_eq_some, cluster, cluster]
  simp [String.append_assoc]

/-! ## Names given as paths -/

/-- A name that can be given to a module: it is not empty and has no dot. -/
def IsPlain (name : String) : Prop :=
  name ≠ "" ∧ '.' ∉ name.toList

instance (name : String) : Decidable (IsPlain name) :=
  inferInstanceAs (Decidable (_ ∧ _))

theorem ofPath_path (name : String) : ofPath ("module." ++ name) = name := by
  rw [ofPath, Text.after?_append, Option.getD_some]

theorem ofPath_eq_self {s : String} : ofPath s = s ↔ ∀ rest, s ≠ "module." ++ rest := by
  constructor
  · rintro h rest rfl
    rw [ofPath_path] at h
    have hlength := congrArg String.length h
    simp at hlength
  · intro h
    rw [ofPath, Text.after?_eq_none h]
    rfl

theorem ofPath_of_dotless {s : String} (h : '.' ∉ s.toList) : ofPath s = s := by
  rw [ofPath_eq_self]
  rintro rest rfl
  simp [String.toList_append] at h

/-- A name of any kind is no path. -/
theorem ofPath_of_kind {s : String} (h : (kind? s).isSome) : ofPath s = s := by
  rw [ofPath_eq_self]
  intro rest hs
  obtain ⟨k, hk⟩ := Option.isSome_iff_exists.1 h
  cases k with
  | manager =>
    rw [kind?_eq_manager.1 hk] at hs
    have := congrArg (fun s => s.toList[0]?) hs
    simp [manager, String.toList_append] at this
  | cluster p =>
    obtain ⟨name, -, rfl⟩ := kind?_eq_cluster.1 hk
    have := congrArg (fun s => s.toList[0]?) hs
    simp [cluster, String.toList_append] at this
  | node p =>
    obtain ⟨name, -, rfl⟩ := kind?_eq_node.1 hk
    have := congrArg (fun s => s.toList[0]?) hs
    simp [String.toList_append] at this

theorem ofPath_node (p : Provider) (owner hostname : String) :
    ofPath (node p owner hostname) = node p owner hostname :=
  ofPath_of_kind (by rw [kind?_node]; rfl)

end ModuleName

/-! ## References -/

theorem Reference.cluster_injective {a b : String} (h : cluster a = cluster b) : a = b := by
  have hl := congrArg String.toList h
  simp only [cluster, output, String.toList_append] at hl
  exact String.toList_inj.1 (List.append_cancel_left (List.append_cancel_right
    (List.append_cancel_right (List.append_cancel_right hl))))

/-- A reference joins a cluster exactly if it is the one by which nodes join it. -/
theorem Reference.cluster?_eq_some {reference module : String} :
    cluster? reference = some module ↔
      module ≠ "" ∧ '.' ∉ module.toList ∧ reference = cluster module := by
  simp only [cluster?, Option.bind_eq_some_iff, Option.filter_eq_some_iff, Text.after?_eq_some,
    Text.before?_eq_some, decide_eq_true_eq]
  constructor
  · rintro ⟨_, rfl, _, rfl, _, rfl, rfl, hne, hdot⟩
    refine ⟨hne, hdot, ?_⟩
    simp [cluster, output, String.append_assoc]
  · rintro ⟨hne, hdot, rfl⟩
    refine ⟨_, ?_, _, rfl, _, rfl, rfl, hne, hdot⟩
    simp [cluster, output, String.append_assoc]

end ClusterLedger
