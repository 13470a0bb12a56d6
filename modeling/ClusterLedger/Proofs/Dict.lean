import ClusterLedger.Dict

/-!
# Look-ups in maps

A map is known by its look-ups. Here is what every operation does to them, and how they relate to
the lists of entries and names.
-/
namespace ClusterLedger

namespace Entries

variable {α : Type}

theorem mem_of_get? {k : String} {v : α} {es : List (String × α)} (h : get? k es = some v) :
    (k, v) ∈ es := by
  induction es with
  | nil => cases h
  | cons e rest ih =>
    obtain ⟨a, w⟩ := e
    rw [get?] at h
    split at h
    · next hk => cases h; exact hk ▸ List.mem_cons_self
    · exact List.mem_cons_of_mem _ (ih h)

theorem get?_eq_none {k : String} {es : List (String × α)} :
    get? k es = none ↔ ∀ v, (k, v) ∉ es := by
  induction es with
  | nil => simp [get?]
  | cons e rest ih =>
    obtain ⟨a, w⟩ := e
    by_cases hk : a = k
    · subst hk
      simp only [get?, if_true]
      exact iff_of_false (Option.some_ne_none w) fun h => h w List.mem_cons_self
    · simp [get?, hk, ih, Ne.symm hk]

theorem get?_append (k : String) (xs ys : List (String × α)) :
    get? k (xs ++ ys) = (get? k xs).or (get? k ys) := by
  induction xs with
  | nil => rfl
  | cons e rest ih =>
    obtain ⟨a, w⟩ := e
    rw [List.cons_append, get?, get?, ih]
    split <;> rfl

/-- What is found is the first entry of that name. -/
theorem get?_eq_some_iff {k : String} {v : α} {es : List (String × α)} :
    get? k es = some v ↔ ∃ before behind, es = before ++ (k, v) :: behind ∧ ∀ e ∈ before, e.1 ≠ k := by
  constructor
  · intro h
    induction es with
    | nil => cases h
    | cons e rest ih =>
      rw [get?] at h
      split at h
      · next hk =>
        cases h
        exact ⟨[], rest, by rw [← hk, List.nil_append], List.forall_mem_nil _⟩
      · next hk =>
        obtain ⟨before, behind, rfl, hbefore⟩ := ih h
        exact ⟨e :: before, behind, rfl, List.forall_mem_cons.2 ⟨hk, hbefore⟩⟩
  · rintro ⟨before, behind, rfl, hbefore⟩
    rw [get?_append, get?_eq_none.2 fun w hw => hbefore (k, w) hw rfl, Option.none_or, get?, if_pos rfl]

theorem get?_mapValues {β : Type} (f : String → α → β) (es : List (String × α)) (k : String) :
    get? k (es.map fun e => (e.1, f e.1 e.2)) = (get? k es).map (f k) := by
  induction es with
  | nil => rfl
  | cons e rest ih =>
    obtain ⟨a, w⟩ := e
    by_cases hk : a = k
    · subst hk; simp [get?]
    · simp [get?, hk, ih]

/-- The names are all different. -/
def Distinct (es : List (String × α)) : Prop :=
  es.Pairwise fun a b => a.1 ≠ b.1

theorem Distinct.get?_of_mem {k : String} {v : α} {es : List (String × α)} (hs : Distinct es)
    (h : (k, v) ∈ es) : get? k es = some v := by
  induction es with
  | nil => cases h
  | cons e rest ih =>
    obtain ⟨a, w⟩ := e
    obtain ⟨hfirst, hrest⟩ := List.pairwise_cons.1 hs
    rcases List.mem_cons.1 h with heq | hmem
    · cases heq
      rw [get?, if_pos rfl]
    · rw [get?, if_neg (hfirst _ hmem)]
      exact ih hrest hmem

theorem Distinct.perm {xs ys : List (String × α)} (hxs : Distinct xs) (h : xs.Perm ys) :
    Distinct ys :=
  (h.pairwise_iff fun hne => hne.symm).1 hxs

/-- Where no name is repeated, the order of the entries does not matter. -/
theorem Distinct.get?_perm {xs ys : List (String × α)} (hxs : Distinct xs) (h : xs.Perm ys)
    (k : String) : get? k xs = get? k ys := by
  cases hget : get? k xs with
  | none =>
    exact (get?_eq_none.2 fun v hv => get?_eq_none.1 hget v (h.mem_iff.2 hv)).symm
  | some v => exact ((hxs.perm h).get?_of_mem (h.mem_iff.1 (mem_of_get? hget))).symm

theorem Sorted.distinct {es : List (String × α)} (hs : Sorted es) : Distinct es := by
  refine hs.imp fun {a b} hlt he => ?_
  rw [he] at hlt
  exact String.lt_irrefl _ hlt

theorem get?_of_mem {k : String} {v : α} {es : List (String × α)} (hs : Sorted es)
    (h : (k, v) ∈ es) : get? k es = some v :=
  hs.distinct.get?_of_mem h

/-- Sorted lists with the same members are equal. -/
theorem Sorted.ext {xs ys : List (String × α)} (hx : Sorted xs) (hy : Sorted ys)
    (h : ∀ e, e ∈ xs ↔ e ∈ ys) : xs = ys := by
  induction xs generalizing ys with
  | nil =>
    cases ys with
    | nil => rfl
    | cons y ys => exact absurd ((h y).2 List.mem_cons_self) List.not_mem_nil
  | cons x xs ih =>
    cases ys with
    | nil => exact absurd ((h x).1 List.mem_cons_self) List.not_mem_nil
    | cons y ys =>
      obtain ⟨hxf, hxs⟩ := List.pairwise_cons.1 hx
      obtain ⟨hyf, hys⟩ := List.pairwise_cons.1 hy
      -- Each head is the least member, so the heads are one.
      have hxy : x = y := by
        rcases List.mem_cons.1 ((h x).1 List.mem_cons_self) with he | he
        · exact he
        rcases List.mem_cons.1 ((h y).2 List.mem_cons_self) with he' | he'
        · exact he'.symm
        exact absurd (String.lt_trans (hyf x he) (hxf y he')) (String.lt_irrefl _)
      subst hxy
      refine congrArg (x :: ·) (ih hxs hys fun e => ?_)
      constructor
      · intro he
        rcases List.mem_cons.1 ((h e).1 (List.mem_cons_of_mem _ he)) with rfl | he'
        · exact absurd (hxf e he) (String.lt_irrefl _)
        · exact he'
      · intro he
        rcases List.mem_cons.1 ((h e).2 (List.mem_cons_of_mem _ he)) with rfl | he'
        · exact absurd (hyf e he) (String.lt_irrefl _)
        · exact he'

end Entries

namespace Dict

variable {α β : Type}

/-! ## Entries -/

theorem get?_eq_some {d : Dict α} {k : String} {v : α} : d.get? k = some v ↔ (k, v) ∈ d.toList :=
  ⟨Entries.mem_of_get?, Entries.get?_of_mem d.sorted⟩

theorem ext_get? {a b : Dict α} (h : ∀ k, a.get? k = b.get? k) : a = b := by
  refine ext_toList (a.sorted.ext b.sorted fun e => ?_)
  obtain ⟨k, v⟩ := e
  rw [← get?_eq_some, ← get?_eq_some, h]

theorem contains_eq_true {d : Dict α} {k : String} : d.contains k = true ↔ ∃ v, d.get? k = some v :=
  Option.isSome_iff_exists

theorem contains_eq_false {d : Dict α} {k : String} : d.contains k = false ↔ d.get? k = none :=
  Option.isSome_eq_false_iff.trans Option.isNone_iff_eq_none

theorem mem_keys {d : Dict α} {k : String} : k ∈ d.keys ↔ ∃ v, d.get? k = some v := by
  simp only [keys, List.mem_map, get?_eq_some]
  constructor
  · rintro ⟨e, he, rfl⟩
    exact ⟨e.2, he⟩
  · rintro ⟨v, hv⟩
    exact ⟨(k, v), hv, rfl⟩

theorem keys_sorted (d : Dict α) : d.keys.Pairwise (· < ·) :=
  List.pairwise_map.2 d.sorted

theorem isEmpty_eq_true {d : Dict α} : d.isEmpty = true ↔ d = empty := by
  rw [isEmpty, List.isEmpty_iff]
  exact ⟨fun h => ext_toList h, fun h => h ▸ rfl⟩

/-! ## Operations -/

theorem get?_mapValues (f : String → α → β) (d : Dict α) (k : String) :
    (d.mapValues f).get? k = (d.get? k).map (f k) :=
  Entries.get?_mapValues f d.toList k

theorem get?_filter_eq_some {p : String → α → Bool} {d : Dict α} {k : String} {v : α} :
    (d.filter p).get? k = some v ↔ d.get? k = some v ∧ p k v := by
  simp [get?_eq_some, filter]

theorem insertAll_cons (d : Dict α) (k : String) (v : α) (es : List (String × α)) :
    d.insertAll ((k, v) :: es) = (d.insert k v).insertAll es :=
  rfl

/-- The last entry of a name counts, and where there is none the map itself. -/
theorem get?_insertAll (d : Dict α) (es : List (String × α)) (k : String) :
    (d.insertAll es).get? k = (Entries.get? k es.reverse).or (d.get? k) := by
  induction es generalizing d with
  | nil => rfl
  | cons e rest ih =>
    obtain ⟨a, w⟩ := e
    rw [insertAll_cons, ih, get?_insert, List.reverse_cons, Entries.get?_append, Option.or_assoc]
    congr 1
    rw [Entries.get?]
    split <;> rfl

theorem get?_insertAll_of_not_mem {d : Dict α} {es : List (String × α)} {k : String}
    (h : ∀ v, (k, v) ∉ es) : (d.insertAll es).get? k = d.get? k := by
  rw [get?_insertAll, Entries.get?_eq_none.2 fun v hv => h v (List.mem_reverse.1 hv), Option.none_or]

theorem get?_ofList (es : List (String × α)) (k : String) :
    (ofList es).get? k = Entries.get? k es.reverse := by
  rw [ofList, get?_insertAll, get?_empty, Option.or_none]

/-- What is found is the last entry of that name. -/
theorem get?_ofList_eq_some {es : List (String × α)} {k : String} {v : α} :
    (ofList es).get? k = some v ↔
      ∃ earlier later, es = earlier ++ (k, v) :: later ∧ ∀ e ∈ later, e.1 ≠ k := by
  rw [get?_ofList, Entries.get?_eq_some_iff]
  constructor
  · rintro ⟨before, behind, hes, hbefore⟩
    refine ⟨behind.reverse, before.reverse, ?_, fun e he => hbefore e (List.mem_reverse.1 he)⟩
    rw [← List.reverse_reverse es, hes]
    simp
  · rintro ⟨earlier, later, rfl, hlater⟩
    exact ⟨later.reverse, earlier.reverse, by simp, fun e he => hlater e (List.mem_reverse.1 he)⟩

/-- A map has no other entries than the list it was made of. -/
theorem mem_of_mem_ofList {es : List (String × α)} {e : String × α} (h : e ∈ (ofList es).toList) :
    e ∈ es := by
  obtain ⟨k, v⟩ := e
  have hg := get?_eq_some.2 h
  rw [get?_ofList] at hg
  exact List.mem_reverse.1 (Entries.mem_of_get? hg)

theorem ofList_toList (d : Dict α) : ofList d.toList = d := by
  refine ext_get? fun k => ?_
  rw [get?_ofList]
  cases h : d.get? k with
  | none =>
    rw [get?, Entries.get?_eq_none] at h
    exact Entries.get?_eq_none.2 fun v hv => h v (List.mem_reverse.1 hv)
  | some v =>
    cases hr : Entries.get? k d.toList.reverse with
    | none =>
      exact absurd (List.mem_reverse.2 (get?_eq_some.1 h)) (Entries.get?_eq_none.1 hr v)
    | some w =>
      have hw := get?_eq_some.2 (List.mem_reverse.1 (Entries.mem_of_get? hr))
      rw [← hw, h]

theorem ofList_reverse_toList (d : Dict α) : ofList d.toList.reverse = d := by
  refine ext_get? fun k => ?_
  rw [get?_ofList, List.reverse_reverse]
  rfl

theorem toList_ofList {es : List (String × α)} (h : Entries.Sorted es) : (ofList es).toList = es :=
  congrArg toList (ofList_toList ⟨es, h⟩)

/-- Where no name is repeated, the order of the entries does not matter. -/
theorem ofList_perm {xs ys : List (String × α)} (hxs : Entries.Distinct xs) (h : xs.Perm ys) :
    ofList xs = ofList ys := by
  have hreverse : xs.reverse.Perm ys.reverse := (List.reverse_perm xs).trans
    (h.trans (List.reverse_perm ys).symm)
  refine ext_get? fun k => ?_
  rw [get?_ofList, get?_ofList]
  exact (hxs.perm (List.reverse_perm xs).symm).get?_perm hreverse k

/-! ## Maps of like values -/

/-- Every value of the map has a property. -/
def All (P : α → Prop) (d : Dict α) : Prop :=
  ∀ k v, d.get? k = some v → P v

section All

variable {P Q : α → Prop} {d : Dict α}

theorem All.imp (hpq : ∀ v, P v → Q v) (h : d.All P) : d.All Q :=
  fun k v hv => hpq v (h k v hv)

theorem all_toList : d.All P ↔ ∀ e ∈ d.toList, P e.2 :=
  ⟨fun h e he => h e.1 e.2 (get?_eq_some.2 he), fun h k v hv => h (k, v) (get?_eq_some.1 hv)⟩

theorem all_empty : (empty : Dict α).All P :=
  fun _ _ h => nomatch h

theorem All.insert (h : d.All P) {k : String} {v : α} (hv : P v) : (d.insert k v).All P := by
  intro k' w hw
  rw [get?_insert] at hw
  split at hw
  · cases hw
    exact hv
  · exact h k' w hw

theorem All.insertAll (h : d.All P) {es : List (String × α)} (hes : ∀ e ∈ es, P e.2) :
    (d.insertAll es).All P := by
  induction es generalizing d with
  | nil => exact h
  | cons e rest ih =>
    obtain ⟨he, hrest⟩ := List.forall_mem_cons.1 hes
    exact ih (h.insert he) hrest

theorem all_ofList {es : List (String × α)} (hes : ∀ e ∈ es, P e.2) : (ofList es).All P :=
  all_empty.insertAll hes

theorem All.erase (h : d.All P) (k : String) : (d.erase k).All P := by
  intro k' w hw
  rw [get?_erase] at hw
  split at hw
  · cases hw
  · exact h k' w hw

theorem all_mapValues {β : Type} {f : String → α → β} {R : β → Prop} (h : ∀ k v, P v → R (f k v))
    (hd : d.All P) : (d.mapValues f).All R := by
  intro k w hw
  rw [get?_mapValues] at hw
  obtain ⟨v, hv, rfl⟩ := Option.map_eq_some_iff.1 hw
  exact h k v (hd k v hv)

end All

theorem erase_of_get? {d : Dict α} {k : String} (h : d.get? k = none) : d.erase k = d := by
  refine ext_get? fun k' => ?_
  rw [get?_erase]
  split
  · next he => rw [← he, h]
  · rfl

theorem erase_insert {d : Dict α} {k : String} {v : α} (h : d.get? k = none) :
    (d.insert k v).erase k = d := by
  refine ext_get? fun k' => ?_
  rw [get?_erase, get?_insert]
  split
  · next he => rw [← he, h]
  · rfl

theorem erase_insert_self (d : Dict α) (k : String) (v : α) : (d.insert k v).erase k = d.erase k := by
  refine ext_get? fun k' => ?_
  simp only [get?_erase, get?_insert]
  split <;> rfl

theorem insert_insert (d : Dict α) (k : String) (v w : α) :
    (d.insert k v).insert k w = d.insert k w := by
  refine ext_get? fun k' => ?_
  simp only [get?_insert]
  split <;> rfl

theorem insert_erase (d : Dict α) (k : String) (v : α) : (d.erase k).insert k v = d.insert k v := by
  refine ext_get? fun k' => ?_
  rw [get?_insert, get?_insert, get?_erase]
  split <;> rfl

theorem insert_of_get? {d : Dict α} {k : String} {v : α} (h : d.get? k = some v) :
    d.insert k v = d := by
  refine ext_get? fun k' => ?_
  rw [get?_insert]
  split
  · next he => rw [← he, h]
  · rfl

theorem mapValues_insert (f : String → α → β) (d : Dict α) (k : String) (v : α) :
    (d.insert k v).mapValues f = (d.mapValues f).insert k (f k v) := by
  refine ext_get? fun k' => ?_
  rw [get?_mapValues, get?_insert, get?_insert, get?_mapValues]
  split
  · next he => rw [← he]; rfl
  · rfl

theorem mapValues_erase (f : String → α → β) (d : Dict α) (k : String) :
    (d.erase k).mapValues f = (d.mapValues f).erase k := by
  refine ext_get? fun k' => ?_
  rw [get?_mapValues, get?_erase, get?_erase, get?_mapValues]
  split <;> rfl

/-- Names in increasing order are the names of a map if they are the same names. -/
theorem eq_keys {d : Dict α} {names : List String} (hnames : names.Pairwise (· < ·))
    (h : ∀ k, k ∈ names ↔ ∃ v, d.get? k = some v) : names = d.keys := by
  have hsorted {ks : List String} (hks : ks.Pairwise (· < ·)) :
      Entries.Sorted (ks.map fun k => (k, ())) :=
    List.pairwise_map.2 hks
  have hentries : (names.map fun k => (k, ())) = d.keys.map fun k => (k, ()) := by
    refine (hsorted hnames).ext (hsorted d.keys_sorted) fun e => ?_
    simp only [List.mem_map, h, mem_keys]
  have hmap := congrArg (List.map Prod.fst) hentries
  simpa [List.map_map, Function.comp_def] using hmap

theorem mergeSort_of_sorted {names : List String} (h : names.Pairwise (· < ·)) :
    names.mergeSort = names :=
  List.mergeSort_of_pairwise (h.imp fun hlt => decide_eq_true
    (String.not_lt.1 fun hgt => String.lt_irrefl _ (String.lt_trans hlt hgt)))

/-! ## Sets of names -/

theorem mem_names {ks : List String} {k : String} : k ∈ names ks ↔ k ∈ ks := by
  rw [names, mem_keys]
  simp only [get?_ofList]
  constructor
  · rintro ⟨v, hv⟩
    have := List.mem_reverse.1 (Entries.mem_of_get? hv)
    obtain ⟨k', hk', he⟩ := List.mem_map.1 this
    cases he
    exact hk'
  · intro hk
    cases hg : Entries.get? k (ks.map fun k => (k, ())).reverse with
    | some v => exact ⟨v, rfl⟩
    | none =>
      have := Entries.get?_eq_none.1 hg ()
      exact absurd (List.mem_reverse.2 (List.mem_map_of_mem hk)) this

theorem names_sorted (ks : List String) : (names ks).Pairwise (· < ·) :=
  keys_sorted _

theorem names_congr {xs ys : List String} (h : ∀ k, k ∈ xs ↔ k ∈ ys) : names xs = names ys := by
  apply eq_keys (names_sorted xs)
  intro k
  rw [mem_names, h, ← mem_names, names, mem_keys]

end Dict

end ClusterLedger
