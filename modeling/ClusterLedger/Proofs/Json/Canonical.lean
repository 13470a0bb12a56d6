import ClusterLedger.Json.Basic
import ClusterLedger.Proofs.Dict
import ClusterLedger.Proofs.Json.Scan

/-!
# Canonical values

The canonical value is in order and has no more numbers and no deeper nesting than the value; a value
in order is its own canonical value.
-/
namespace ClusterLedger.Json

/-! ## Items and members -/

theorem orderedItems_iff {items : List Json} :
    OrderedItems items ↔ ∀ v ∈ items, v.Ordered := by
  induction items with
  | nil => simp [OrderedItems]
  | cons v rest ih => simp [OrderedItems, ih]

theorem orderedMembers_iff {members : List (String × Json)} :
    OrderedMembers members ↔ ∀ e ∈ members, e.2.Ordered := by
  induction members with
  | nil => simp [OrderedMembers]
  | cons e rest ih => simp [OrderedMembers, ih]

theorem depthItems_le {items : List Json} {n : Nat} :
    depthItems items ≤ n ↔ ∀ v ∈ items, v.depth ≤ n := by
  induction items with
  | nil => simp [depthItems]
  | cons v rest ih => rw [depthItems, Nat.max_le, ih, List.forall_mem_cons]

theorem depthMembers_le {members : List (String × Json)} {n : Nat} :
    depthMembers members ≤ n ↔ ∀ e ∈ members, e.2.depth ≤ n := by
  induction members with
  | nil => simp [depthMembers]
  | cons e rest ih => rw [depthMembers, Nat.max_le, ih, List.forall_mem_cons]

theorem mem_numbersItems {items : List Json} {n : Number} :
    n ∈ numbersItems items ↔ ∃ v ∈ items, n ∈ v.numbers := by
  induction items with
  | nil => simp [numbersItems]
  | cons v rest ih => simp [numbersItems, ih]

theorem mem_numbersMembers {members : List (String × Json)} {n : Number} :
    n ∈ numbersMembers members ↔ ∃ e ∈ members, n ∈ e.2.numbers := by
  induction members with
  | nil => simp [numbersMembers]
  | cons e rest ih => simp [numbersMembers, ih]

/-! ## Order -/

mutual
theorem ordered_canonical : (v : Json) → v.canonical.Ordered
  | .null | .bool _ | .number _ | .string _ => trivial
  | .array items => ordered_canonicalItems items
  | .object members => by
    have hmembers := orderedMembers_iff.1 (ordered_canonicalMembers members)
    refine ⟨(Dict.ofList _).sorted, orderedMembers_iff.2 fun e he => ?_⟩
    exact hmembers e (Dict.mem_of_mem_ofList he)

theorem ordered_canonicalItems : (items : List Json) → OrderedItems (canonicalItems items)
  | [] => trivial
  | v :: rest => ⟨ordered_canonical v, ordered_canonicalItems rest⟩

theorem ordered_canonicalMembers : (members : List (String × Json)) →
    OrderedMembers (canonicalMembers members)
  | [] => trivial
  | (_, v) :: rest => ⟨ordered_canonical v, ordered_canonicalMembers rest⟩
end

mutual
/-- A value in order is canonical. -/
theorem canonical_of_ordered : (v : Json) → v.Ordered → v.canonical = v
  | .null, _ | .bool _, _ | .number _, _ | .string _, _ => rfl
  | .array items, h => by rw [canonical, canonicalItems_of_ordered items h]
  | .object members, h => by
    rw [canonical, canonicalMembers_of_ordered members h.2, Dict.toList_ofList h.1]

theorem canonicalItems_of_ordered : (items : List Json) → OrderedItems items →
    canonicalItems items = items
  | [], _ => rfl
  | v :: rest, h => by
    rw [canonicalItems, canonical_of_ordered v h.1, canonicalItems_of_ordered rest h.2]

theorem canonicalMembers_of_ordered : (members : List (String × Json)) → OrderedMembers members →
    canonicalMembers members = members
  | [], _ => rfl
  | (_, v) :: rest, h => by
    rw [canonicalMembers, canonical_of_ordered v h.1, canonicalMembers_of_ordered rest h.2]
end

/-- A value that stands somewhere in another one. -/
inductive Inside : Json → Json → Prop
  | self (v : Json) : Inside v v
  | item {u v : Json} {items : List Json} (inside : Inside u v) (mem : v ∈ items) :
    Inside u (array items)
  | member {u v : Json} {k : String} {members : List (String × Json)} (inside : Inside u v)
    (mem : (k, v) ∈ members) : Inside u (object members)

theorem Ordered.inside {u v : Json} (hv : v.Ordered) (h : Inside u v) : u.Ordered := by
  induction h with
  | self => exact hv
  | item inside mem ih => exact ih (orderedItems_iff.1 hv _ mem)
  | member inside mem ih => exact ih (orderedMembers_iff.1 hv.2 _ mem)

/-! ## Depth and numbers -/

mutual
theorem depth_canonical_le : (v : Json) → v.canonical.depth ≤ v.depth
  | .null | .bool _ | .number _ | .string _ => Nat.le_refl _
  | .array items => by
    rw [canonical, depth, depth]
    exact Nat.succ_le_succ (depthItems_canonical_le items)
  | .object members => by
    rw [canonical, depth, depth]
    refine Nat.succ_le_succ (Nat.le_trans ?_ (depthMembers_canonical_le members))
    exact depthMembers_le.2 fun e he =>
      depthMembers_le.1 (Nat.le_refl _) e (Dict.mem_of_mem_ofList he)

theorem depthItems_canonical_le : (items : List Json) →
    depthItems (canonicalItems items) ≤ depthItems items
  | [] => Nat.le_refl _
  | v :: rest => by
    have hv := depth_canonical_le v
    have hrest := depthItems_canonical_le rest
    rw [canonicalItems, depthItems, depthItems]
    omega

theorem depthMembers_canonical_le : (members : List (String × Json)) →
    depthMembers (canonicalMembers members) ≤ depthMembers members
  | [] => Nat.le_refl _
  | (_, v) :: rest => by
    have hv := depth_canonical_le v
    have hrest := depthMembers_canonical_le rest
    rw [canonicalMembers, depthMembers, depthMembers]
    omega
end

mutual
theorem numbers_canonical_subset : (v : Json) → v.canonical.numbers ⊆ v.numbers
  | .null | .bool _ | .number _ | .string _ => List.Subset.refl _
  | .array items => numbersItems_canonical_subset items
  | .object members => by
    intro n hn
    rw [canonical, numbers] at hn
    obtain ⟨e, he, hn⟩ := mem_numbersMembers.1 hn
    refine numbersMembers_canonical_subset members ?_
    exact mem_numbersMembers.2 ⟨e, Dict.mem_of_mem_ofList he, hn⟩

theorem numbersItems_canonical_subset : (items : List Json) →
    numbersItems (canonicalItems items) ⊆ numbersItems items
  | [] => List.Subset.refl _
  | v :: rest => List.append_subset.2
      ⟨List.subset_append_of_subset_left _ (numbers_canonical_subset v),
        List.subset_append_of_subset_right _ (numbersItems_canonical_subset rest)⟩

theorem numbersMembers_canonical_subset : (members : List (String × Json)) →
    numbersMembers (canonicalMembers members) ⊆ numbersMembers members
  | [] => List.Subset.refl _
  | (_, v) :: rest => List.append_subset.2
      ⟨List.subset_append_of_subset_left _ (numbers_canonical_subset v),
        List.subset_append_of_subset_right _ (numbersMembers_canonical_subset rest)⟩
end

end ClusterLedger.Json
