import ClusterLedger.Proofs.Document.Segments
import ClusterLedger.Proofs.Module.Name
import Mathlib.Data.Set.Function

/-!
# Module names as an encoding

A name spells at most one kind, in whatever order the providers are tried, and a name made of name
segments comes apart in one way only.
-/
namespace ClusterLedger.ModuleName

/-! ## Kinds -/

/-- How a name says its kind: the manager has one name, and every other kind a word and a provider
in front of something. -/
inductive Spells : ModuleKind → String → Prop where
  | manager : Spells .manager "cluster-manager"
  | cluster (p : Provider) {rest : String} (h : rest ≠ "") :
      Spells (.cluster p) ("cluster_" ++ p.slug ++ "_" ++ rest)
  | node (p : Provider) {rest : String} (h : rest ≠ "") :
      Spells (.node p) ("node_" ++ p.slug ++ "_" ++ rest)

theorem kind?_eq_some {s : String} {k : ModuleKind} : kind? s = some k ↔ Spells k s := by
  cases k with
  | manager =>
    rw [kind?_eq_manager]
    constructor
    · rintro rfl
      exact .manager
    · intro h
      cases h
      rfl
  | cluster p =>
    rw [kind?_eq_cluster]
    constructor
    · rintro ⟨rest, hne, rfl⟩
      exact .cluster p hne
    · intro h
      cases h with
      | cluster _ hne => exact ⟨_, hne, rfl⟩
  | node p =>
    rw [kind?_eq_node]
    constructor
    · rintro ⟨rest, hne, rfl⟩
      have hs := Spells.node p hne
      simpa only [String.append_assoc] using hs
    · intro h
      cases h with
      | node _ hne => exact ⟨_, hne, by simp only [String.append_assoc]⟩

theorem Spells.unique {s : String} {k l : ModuleKind} (hk : Spells k s) (hl : Spells l s) :
    k = l := by
  have heq := kind?_eq_some.2 hk
  rw [kind?_eq_some.2 hl] at heq
  exact (Option.some.inj heq).symm

theorem kind?_eq_none {s : String} : kind? s = none ↔ ∀ k, ¬Spells k s := by
  simp only [Option.eq_none_iff_forall_not_mem, Option.mem_def, kind?_eq_some]

/-! ## Parts -/

/-- What the name of a module is made of. -/
inductive Parts where
  | manager
  | cluster (provider : Provider) (name : String)
  | node (provider : Provider) (owner hostname : String)
  deriving DecidableEq, Repr

namespace Parts

def name : Parts → String
  | manager => ModuleName.manager
  | cluster p n => ModuleName.cluster p n
  | node p n host => ModuleName.node p n host

def kind : Parts → ModuleKind
  | manager => .manager
  | cluster p _ => .cluster p
  | node p _ _ => .node p

/-- The names in it are segments. -/
def Segmented : Parts → Prop
  | manager => True
  | cluster _ n => isNameSegment n = true
  | node _ n host => isNameSegment n = true ∧ isNameSegment host = true

variable {a b : Parts}

theorem kind?_name (h : a.Segmented) : kind? a.name = some a.kind := by
  cases a with
  | manager => exact kind?_manager
  | cluster p n => exact kind?_cluster p (ne_empty_of_segment h)
  | node p n host => exact kind?_node p n host

theorem kind_eq (ha : a.Segmented) (hb : b.Segmented) (h : a.name = b.name) : a.kind = b.kind := by
  have hk := kind?_name ha
  rw [h, kind?_name hb] at hk
  exact (Option.some.inj hk).symm

theorem name_injOn : Set.InjOn name {a | a.Segmented} := by
  intro a ha b hb h
  -- the kinds agree, so only parts of one kind are left to compare
  have hkind := kind_eq ha hb h
  cases a with
  | manager =>
    cases b <;> cases hkind
    rfl
  | cluster p n =>
    cases b <;> cases hkind
    obtain ⟨-, rfl⟩ := cluster_inj (ne_empty_of_segment ha) h (ne_empty_of_segment hb)
    rfl
  | node p n host =>
    cases b <;> cases hkind
    obtain ⟨-, rfl, rfl⟩ := node_inj h (not_mem_of_segment ha.1) (not_mem_of_segment hb.1)
    rfl

end Parts

/-- Names made of segments have one list of parts, the name of a cluster is what follows its
provider, and the kind of any name is the one that it spells, of which there is at most one. -/
theorem names_unambiguous :
    Set.InjOn Parts.name {a | a.Segmented} ∧
    (∀ p n, Text.after? (cluster p "") (cluster p n) = some n) ∧
    ∀ s, (∀ k, kind? s = some k ↔ Spells k s) ∧ (kind? s = none ↔ ∀ k, ¬Spells k s) ∧
      ∀ k l, Spells k s → Spells l s → k = l :=
  ⟨Parts.name_injOn, after?_cluster,
    fun _ => ⟨fun _ => kind?_eq_some, kind?_eq_none, fun _ _ => Spells.unique⟩⟩

-- With an underscore in a name two nodes can have one module name.
example : (Parts.node .aws "a_b" "c").name = (Parts.node .aws "a" "b_c").name := rfl

end ClusterLedger.ModuleName
