/-!
# Finite maps from names

A `Dict` is the list of its entries in strictly increasing order of their names, which is the order
of their UTF-8 bytes. Two maps with the same entries are therefore equal.
-/
namespace ClusterLedger

/-! ## Entry lists -/

namespace Entries

variable {α : Type}

/-- The value under the first entry of that name. -/
def get? (k : String) : List (String × α) → Option α
  | [] => none
  | (a, v) :: rest => if a = k then some v else get? k rest

/-- Puts a value in front of the first greater name, in place of an entry of that name. -/
def insert (k : String) (v : α) : List (String × α) → List (String × α)
  | [] => [(k, v)]
  | (a, w) :: rest =>
    if k < a then (k, v) :: (a, w) :: rest
    else if a = k then (k, v) :: rest
    else (a, w) :: insert k v rest

/-- Leaves out the entries of a name. -/
def erase (k : String) (es : List (String × α)) : List (String × α) :=
  es.filter fun e => e.1 ≠ k

/-- The names are strictly increasing. -/
def Sorted (es : List (String × α)) : Prop :=
  es.Pairwise fun a b => a.1 < b.1

theorem mem_insert {k : String} {v : α} {es : List (String × α)} {e : String × α}
    (h : e ∈ insert k v es) : e = (k, v) ∨ e ∈ es := by
  induction es with
  | nil => simpa [insert] using h
  | cons a rest ih =>
    obtain ⟨a, w⟩ := a
    simp only [insert] at h
    split at h
    · simpa using h
    · split at h
      · rcases List.mem_cons.1 h with h | h
        · exact .inl h
        · exact .inr (List.mem_cons_of_mem _ h)
      · rcases List.mem_cons.1 h with h | h
        · exact .inr (h ▸ List.mem_cons_self)
        · exact (ih h).imp_right (List.mem_cons_of_mem _)

theorem lt_of_ne_of_not_lt {a k : String} (hne : a ≠ k) (hlt : ¬k < a) : a < k := by
  rcases Decidable.em (a < k) with h | h
  · exact h
  · exact absurd (String.le_antisymm (String.not_lt.1 hlt) (String.not_lt.1 h)) hne

theorem Sorted.insert {k : String} {v : α} {es : List (String × α)} (h : Sorted es) :
    Sorted (insert k v es) := by
  induction es with
  | nil => simp [Entries.insert, Sorted]
  | cons a rest ih =>
    obtain ⟨a, w⟩ := a
    obtain ⟨hfirst, hrest⟩ := List.pairwise_cons.1 h
    simp only [Entries.insert]
    split
    next hlt =>
      refine List.pairwise_cons.2 ⟨fun e he => ?_, h⟩
      rcases List.mem_cons.1 he with rfl | he
      · exact hlt
      · exact String.lt_trans hlt (hfirst e he)
    next hlt =>
      split
      next heq =>
        subst heq
        exact List.pairwise_cons.2 ⟨hfirst, hrest⟩
      next hne =>
        refine List.pairwise_cons.2 ⟨fun e he => ?_, ih hrest⟩
        rcases mem_insert he with rfl | he
        · exact lt_of_ne_of_not_lt hne hlt
        · exact hfirst e he

theorem Sorted.filter {es : List (String × α)} (p : String × α → Bool) (h : Sorted es) :
    Sorted (es.filter p) :=
  List.Pairwise.sublist List.filter_sublist h

theorem Sorted.mapValues {β : Type} {es : List (String × α)} (f : String → α → β) (h : Sorted es) :
    Sorted (es.map fun e => (e.1, f e.1 e.2)) :=
  List.pairwise_map.2 h

theorem get?_insert (k : String) (v : α) (es : List (String × α)) (k' : String) :
    get? k' (insert k v es) = if k = k' then some v else get? k' es := by
  induction es with
  | nil => rfl
  | cons a rest ih =>
    obtain ⟨a, w⟩ := a
    simp only [insert]
    split
    · rfl
    · split
      next h => subst h; by_cases hk : a = k' <;> simp [get?, hk]
      next h =>
        by_cases hk : a = k'
        · subst hk; simp [get?, Ne.symm h]
        · simp [get?, hk, ih]

theorem get?_erase (k : String) (es : List (String × α)) (k' : String) :
    get? k' (erase k es) = if k = k' then none else get? k' es := by
  induction es with
  | nil => simp [erase, get?]
  | cons a rest ih =>
    obtain ⟨a, w⟩ := a
    rw [erase] at ih
    by_cases ha : a = k
    · subst ha
      by_cases hk : a = k' <;> simp_all [erase, get?]
    · by_cases hk : a = k'
      · subst hk; simp [erase, get?, ha, Ne.symm ha]
      · simp_all [erase, get?]

end Entries

/-! ## The map -/

/-- A finite map from names. -/
structure Dict (α : Type) where
  toList : List (String × α)
  sorted : Entries.Sorted toList

namespace Dict

variable {α β : Type}

instance [DecidableEq α] : DecidableEq (Dict α) := fun a b =>
  decidable_of_iff (a.toList = b.toList)
    ⟨fun h => by cases a; cases b; cases h; rfl, fun h => h ▸ rfl⟩

instance [Repr α] : Repr (Dict α) := ⟨fun d n => reprPrec d.toList n⟩

/-- The map without entries. -/
def empty : Dict α := ⟨[], .nil⟩

instance : Inhabited (Dict α) := ⟨empty⟩
instance : EmptyCollection (Dict α) := ⟨empty⟩

/-- The value under a name. -/
def get? (d : Dict α) (k : String) : Option α :=
  Entries.get? k d.toList

/-- Whether a name has a value. -/
def contains (d : Dict α) (k : String) : Bool :=
  (d.get? k).isSome

/-- Gives a name a value, whatever it had before. -/
def insert (d : Dict α) (k : String) (v : α) : Dict α :=
  ⟨Entries.insert k v d.toList, d.sorted.insert⟩

/-- Takes a name and its value out. -/
def erase (d : Dict α) (k : String) : Dict α :=
  ⟨Entries.erase k d.toList, d.sorted.filter _⟩

/-- The names in increasing order. -/
def keys (d : Dict α) : List String :=
  d.toList.map (·.1)

/-- How many names have a value. -/
def size (d : Dict α) : Nat :=
  d.toList.length

/-- Whether no name has a value. -/
def isEmpty (d : Dict α) : Bool :=
  d.toList.isEmpty

/-- Changes every value. -/
def mapValues (f : String → α → β) (d : Dict α) : Dict β :=
  ⟨d.toList.map fun e => (e.1, f e.1 e.2), d.sorted.mapValues f⟩

/-- Keeps the entries that satisfy `p`. -/
def filter (p : String → α → Bool) (d : Dict α) : Dict α :=
  ⟨d.toList.filter fun e => p e.1 e.2, d.sorted.filter _⟩

/-- Inserts entries from first to last, so the last entry of a name stays. -/
def insertAll (d : Dict α) (es : List (String × α)) : Dict α :=
  es.foldl (fun d e => d.insert e.1 e.2) d

/-- The map of a list of entries, in which the last entry of a name counts. -/
def ofList (es : List (String × α)) : Dict α :=
  empty.insertAll es

/-- The names, each once, in increasing order. -/
def names (ks : List String) : List String :=
  (ofList (ks.map fun k => (k, ()))).keys

/-! ## What the operations do to look-ups -/

theorem ext_toList {a b : Dict α} (h : a.toList = b.toList) : a = b := by
  cases a; cases b; cases h; rfl

@[simp] theorem get?_empty (k : String) : (empty : Dict α).get? k = none := rfl

theorem get?_insert (d : Dict α) (k : String) (v : α) (k' : String) :
    (d.insert k v).get? k' = if k = k' then some v else d.get? k' :=
  Entries.get?_insert k v d.toList k'

theorem get?_erase (d : Dict α) (k k' : String) :
    (d.erase k).get? k' = if k = k' then none else d.get? k' :=
  Entries.get?_erase k d.toList k'

end Dict

end ClusterLedger
