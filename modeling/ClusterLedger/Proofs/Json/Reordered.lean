import ClusterLedger.Proofs.Json.Canonical

/-!
# Members in another order

Two values are the same but for the order of the members of their objects. When no object repeats a
key, they have the same canonical value.
-/
namespace ClusterLedger.Json

mutual
/-- No object, at any depth, repeats a key. -/
def Distinct : Json → Prop
  | array items => DistinctItems items
  | object members => Entries.Distinct members ∧ DistinctMembers members
  | null | bool _ | number _ | string _ => True

def DistinctItems : List Json → Prop
  | [] => True
  | v :: rest => v.Distinct ∧ DistinctItems rest

def DistinctMembers : List (String × Json) → Prop
  | [] => True
  | (_, v) :: rest => v.Distinct ∧ DistinctMembers rest
end

/-- The members of objects stand in another order, at any depth. -/
inductive Reordered : Json → Json → Prop
  | refl (v : Json) : Reordered v v
  | trans {u v w : Json} (first : Reordered u v) (second : Reordered v w) : Reordered u w
  | members {xs ys : List (String × Json)} (perm : xs.Perm ys) : Reordered (object xs) (object ys)
  | item {v w : Json} (xs ys : List Json) (inside : Reordered v w) :
    Reordered (array (xs ++ v :: ys)) (array (xs ++ w :: ys))
  | member {v w : Json} (k : String) (xs ys : List (String × Json)) (inside : Reordered v w) :
    Reordered (object (xs ++ (k, v) :: ys)) (object (xs ++ (k, w) :: ys))

/-! ## Items and members -/

theorem distinctItems_iff {items : List Json} :
    DistinctItems items ↔ ∀ v ∈ items, v.Distinct := by
  induction items with
  | nil => simp [DistinctItems]
  | cons v rest ih => simp [DistinctItems, ih]

theorem distinctMembers_iff {members : List (String × Json)} :
    DistinctMembers members ↔ ∀ e ∈ members, e.2.Distinct := by
  induction members with
  | nil => simp [DistinctMembers]
  | cons e rest ih => simp [DistinctMembers, ih]

theorem canonicalItems_eq_map (items : List Json) : canonicalItems items = items.map canonical := by
  induction items with
  | nil => rfl
  | cons v rest ih => rw [canonicalItems, ih, List.map_cons]

theorem canonicalMembers_eq_map (members : List (String × Json)) :
    canonicalMembers members = members.map fun e => (e.1, e.2.canonical) := by
  induction members with
  | nil => rfl
  | cons e rest ih => rw [canonicalMembers, ih, List.map_cons]

/-! ## What the order of members does not change -/

theorem Reordered.depth_le {v w : Json} (h : Reordered v w) : w.depth ≤ v.depth := by
  induction h with
  | refl v => exact Nat.le_refl _
  | trans first second ihfirst ihsecond => exact Nat.le_trans ihsecond ihfirst
  | @members xs ys perm =>
    rw [depth, depth]
    refine Nat.succ_le_succ (depthMembers_le.2 fun e he => ?_)
    exact depthMembers_le.1 (Nat.le_refl _) e (perm.mem_iff.2 he)
  | @item v w xs ys inside ih =>
    rw [depth, depth]
    have hall := depthItems_le.1 (Nat.le_refl (depthItems (xs ++ v :: ys)))
    refine Nat.succ_le_succ (depthItems_le.2 fun u hu => ?_)
    simp only [List.mem_append, List.mem_cons] at hu hall
    rcases hu with hu | rfl | hu
    · exact hall u (.inl hu)
    · exact Nat.le_trans ih (hall v (.inr (.inl rfl)))
    · exact hall u (.inr (.inr hu))
  | @member v w k xs ys inside ih =>
    rw [depth, depth]
    have hall := depthMembers_le.1 (Nat.le_refl (depthMembers (xs ++ (k, v) :: ys)))
    refine Nat.succ_le_succ (depthMembers_le.2 fun e he => ?_)
    simp only [List.mem_append, List.mem_cons] at he hall
    rcases he with he | rfl | he
    · exact hall e (.inl he)
    · exact Nat.le_trans ih (hall (k, v) (.inr (.inl rfl)))
    · exact hall e (.inr (.inr he))

theorem Reordered.symm {v w : Json} (h : Reordered v w) : Reordered w v := by
  induction h with
  | refl v => exact .refl v
  | trans first second ihfirst ihsecond => exact ihsecond.trans ihfirst
  | members perm => exact .members perm.symm
  | item xs ys inside ih => exact .item xs ys ih
  | member k xs ys inside ih => exact .member k xs ys ih

theorem Reordered.depth_eq {v w : Json} (h : Reordered v w) : v.depth = w.depth :=
  Nat.le_antisymm h.symm.depth_le h.depth_le

theorem Reordered.distinct {v w : Json} (h : Reordered v w) (hv : v.Distinct) : w.Distinct := by
  induction h with
  | refl v => exact hv
  | trans first second ihfirst ihsecond => exact ihsecond (ihfirst hv)
  | members perm =>
    refine ⟨hv.1.perm perm, distinctMembers_iff.2 fun e he => ?_⟩
    exact distinctMembers_iff.1 hv.2 e (perm.mem_iff.2 he)
  | item xs ys inside ih =>
    rw [Distinct, distinctItems_iff] at hv ⊢
    simp only [List.forall_mem_append, List.forall_mem_cons] at hv ⊢
    exact ⟨hv.1, ih hv.2.1, hv.2.2⟩
  | member k xs ys inside ih =>
    rw [Distinct, distinctMembers_iff] at hv ⊢
    simp only [List.forall_mem_append, List.forall_mem_cons] at hv ⊢
    refine ⟨?_, hv.2.1, ih hv.2.2.1, hv.2.2.2⟩
    simpa [Entries.Distinct, List.pairwise_append] using hv.1

/-- The order of members does not matter to the canonical value unless a key is repeated. -/
theorem Reordered.canonical_eq {v w : Json} (h : Reordered v w) (hv : v.Distinct) :
    v.canonical = w.canonical := by
  induction h with
  | refl v => rfl
  | trans first second ihfirst ihsecond => exact (ihfirst hv).trans (ihsecond (first.distinct hv))
  | @members xs ys perm =>
    rw [canonical, canonical, canonicalMembers_eq_map, canonicalMembers_eq_map]
    have hdistinct : Entries.Distinct (xs.map fun e => (e.1, e.2.canonical)) :=
      List.pairwise_map.2 hv.1
    rw [Dict.ofList_perm hdistinct (perm.map _)]
  | item xs ys inside ih =>
    have hitem := distinctItems_iff.1 hv _ (List.mem_append_right _ List.mem_cons_self)
    rw [canonical, canonical, canonicalItems_eq_map, canonicalItems_eq_map, List.map_append,
      List.map_append, List.map_cons, List.map_cons, ih hitem]
  | member k xs ys inside ih =>
    have hmember := distinctMembers_iff.1 hv.2 _ (List.mem_append_right _ List.mem_cons_self)
    rw [canonical, canonical, canonicalMembers_eq_map, canonicalMembers_eq_map, List.map_append,
      List.map_append, List.map_cons, List.map_cons, ih hmember]

end ClusterLedger.Json
