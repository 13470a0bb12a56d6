import ClusterLedger.Hostname
import ClusterLedger.Proofs.Text.Affix
import ClusterLedger.Proofs.Text.Digits
import Mathlib.Data.Finset.Sort
import Mathlib.Order.Bounds.Basic

/-!
# Names for new nodes

Numbers in use are read with 64 bits and new ones are written with more, so what is promised of
new names holds for as long as no number in use is beyond 64 bits.
-/
namespace ClusterLedger.Hostname

variable {base name : String} {existing : List String} {count n : Nat}

/-! ## Numbered names -/

theorem numbered_injective (base : String) : Function.Injective (numbered base) := by
  intro m n h
  have hdigits := String.ofList_injective (Text.append_left_cancel h)
  rw [← Text.digitsValue_digits m, hdigits, Text.digitsValue_digits]

theorem number?_numbered (base : String) (n : Nat) :
    number? base (numbered base n) = if 0 < n ∧ n < Text.wordLimit then some n else none := by
  rw [number?, numbered, String.append_assoc, Text.after?_append, Option.bind_some,
    Text.after?_append, Option.bind_some, String.toList_ofList]
  rcases Nat.eq_zero_or_pos n with rfl | hn
  · simp [Text.digits_zero]
  · have hdigits : Text.digits? (Text.digits n) = some n := by
      have hall : (Text.digits n).all Char.isDigit = true :=
        List.all_eq_true.2 fun c hc => Text.isDigit_of_mem_digits hc
      rw [Text.digits?, if_pos ⟨Text.digits_ne_nil n, hall⟩, Text.digitsValue_digits]
    split
    · next heq => exact absurd (by rw [heq]; rfl) (Text.head?_digits hn)
    · simp [hdigits, hn, Option.filter]

theorem eq_numbered_of_number? (h : number? base name = some n) : name = numbered base n := by
  simp only [number?, Option.bind_eq_some_iff, Text.after?_eq_some] at h
  obtain ⟨_, rfl, s, rfl, h⟩ := h
  split at h
  · cases h
  · next hzero =>
    obtain ⟨hdigits, -⟩ := Option.filter_eq_some_iff.1 h
    rw [Text.digits?] at hdigits
    split at hdigits
    · next hcs =>
      cases hdigits
      have hhead : s.toList.head? ≠ some '0' := by
        intro hhead
        obtain ⟨rest, hrest⟩ := List.head?_eq_some_iff.1 hhead
        exact hzero rest hrest
      rw [numbered, Text.digits_digitsValue hcs.1 (List.all_eq_true.1 hcs.2) hhead,
        String.ofList_toList, String.append_assoc]
    · cases hdigits

theorem number?_eq_some :
    number? base name = some n ↔ (0 < n ∧ n < Text.wordLimit) ∧ name = numbered base n := by
  constructor
  · intro h
    have hname := eq_numbered_of_number? h
    rw [hname, number?_numbered] at h
    split at h
    · next hn => exact ⟨hn, hname⟩
    · cases h
  · rintro ⟨hn, rfl⟩
    rw [number?_numbered, if_pos hn]

/-! ## The greatest number -/

theorem isGreatest_foldl_max (ns : List Nat) (m : Nat) :
    IsGreatest {n | n = m ∨ n ∈ ns} (ns.foldl max m) := by
  induction ns generalizing m with
  | nil => simp [IsGreatest, upperBounds]
  | cons k ns ih =>
    obtain ⟨hmem, hle⟩ := ih (max m k)
    have hmax : max m k ≤ ns.foldl max (max m k) := hle (.inl rfl)
    constructor
    · rcases hmem with hmem | hmem
      · rcases max_choice m k with hm | hk
        · exact .inl (by rw [List.foldl_cons, hmem, hm])
        · exact .inr (by rw [List.foldl_cons, hmem, hk]; exact List.mem_cons_self)
      · exact .inr (List.mem_cons_of_mem _ hmem)
    · rintro n (rfl | hn)
      · exact le_trans (le_max_left _ _) hmax
      · rcases List.mem_cons.1 hn with rfl | hn
        · exact le_trans (le_max_right _ _) hmax
        · exact hle (.inr hn)

theorem isGreatest_greatest (base : String) (existing : List String) :
    IsGreatest {n | n = 0 ∨ n < Text.wordLimit ∧ numbered base n ∈ existing}
      (greatest base existing) := by
  have hset : {n | n = 0 ∨ n < Text.wordLimit ∧ numbered base n ∈ existing} =
      {n | n = 0 ∨ n ∈ existing.filterMap (number? base)} := by
    ext n
    simp only [Set.mem_ofPred_eq, List.mem_filterMap, number?_eq_some]
    constructor
    · rintro (rfl | ⟨hlt, hmem⟩)
      · exact .inl rfl
      · rcases Nat.eq_zero_or_pos n with hzero | hpos
        · exact .inl hzero
        · exact .inr ⟨_, hmem, ⟨hpos, hlt⟩, rfl⟩
    · rintro (rfl | ⟨name, hmem, ⟨-, hlt⟩, rfl⟩)
      · exact .inl rfl
      · exact .inr ⟨hlt, hmem⟩
  rw [hset]
  exact isGreatest_foldl_max _ _

/-! ## Fresh names -/

theorem fresh_length (existing : List String) (base : String) (count : Nat) :
    (fresh existing base count).length = count := by
  rw [fresh]
  split
  · next h => simp [h.1]
  · simp

theorem fresh_nodup (existing : List String) (base : String) (count : Nat) :
    (fresh existing base count).Nodup := by
  rw [fresh]
  split
  · exact List.nodup_singleton base
  · apply List.nodup_range.map
    intro i j h
    have := numbered_injective base h
    omega

theorem fresh_of_numbered (h : ¬(count = 1 ∧ base ∉ existing)) :
    fresh existing base count =
      (List.range count).map fun i => numbered base (greatest base existing + 1 + i) :=
  if_neg h

/-- What is asked of the names of `count` new nodes. -/
structure Serves (existing : List String) (base : String) (count : Nat) (names : List String) :
    Prop where
  length : names.length = count
  distinct : names.Nodup
  unused : ∀ name ∈ names, name ∉ existing
  kept : count = 1 → base ∉ existing → names = [base]
  upwards : 1 ≤ count → ¬(count = 1 ∧ base ∉ existing) → ∃ m,
    IsGreatest {n | n = 0 ∨ numbered base n ∈ existing} m ∧
      names = (List.range count).map fun i => numbered base (m + 1 + i)

theorem fresh_serves (h : ∀ n, numbered base n ∈ existing → n < Text.wordLimit) :
    Serves existing base count (fresh existing base count) := by
  have hset : {n | n = 0 ∨ n < Text.wordLimit ∧ numbered base n ∈ existing} =
      {n | n = 0 ∨ numbered base n ∈ existing} := by
    ext n
    exact or_congr_right ⟨fun hn => hn.2, fun hn => ⟨h n hn, hn⟩⟩
  have hgreatest := isGreatest_greatest base existing
  rw [hset] at hgreatest
  refine ⟨fresh_length .., fresh_nodup .., ?_, fun h₁ h₂ => if_pos ⟨h₁, h₂⟩,
    fun _ hcase => ⟨_, hgreatest, fresh_of_numbered hcase⟩⟩
  intro name hname hmem
  by_cases hcase : count = 1 ∧ base ∉ existing
  · rw [fresh, if_pos hcase, List.mem_singleton] at hname
    exact hcase.2 (hname ▸ hmem)
  · rw [fresh_of_numbered hcase, List.mem_map] at hname
    obtain ⟨i, -, rfl⟩ := hname
    have hle := hgreatest.2 (.inr hmem)
    omega

theorem lt_of_fresh_serves (hcount : 1 ≤ count) (hcase : ¬(count = 1 ∧ base ∉ existing))
    (h : Serves existing base count (fresh existing base count))
    (hn : numbered base n ∈ existing) : n < Text.wordLimit := by
  obtain ⟨m, hm, hnames⟩ := h.upwards hcount hcase
  rw [fresh_of_numbered hcase] at hnames
  -- both lists begin behind their number, so the greatest number was found
  have hzero := congrArg List.head? hnames
  obtain ⟨k, rfl⟩ := Nat.exists_eq_succ_of_ne_zero (Nat.ne_of_gt hcount)
  simp only [List.range_succ_eq_map, List.map_cons, List.head?_cons, Option.some.injEq] at hzero
  have heq := numbered_injective base hzero
  have hle : n ≤ m := hm.2 (.inr hn)
  have hlt : greatest base existing < Text.wordLimit := by
    rcases (isGreatest_greatest base existing).1 with h | h
    · rw [h]; decide
    · exact h.1
  omega

/-- New names are always as many as asked for and distinct, and numbered upwards from the greatest
number of 64 bits in use. They are all that is asked of them unless a greater number is in use. -/
theorem fresh_serves_iff (existing : List String) (base : String) (count : Nat) :
    (fresh existing base count).length = count ∧ (fresh existing base count).Nodup ∧
    (count = 1 ∧ base ∉ existing ∧ fresh existing base count = [base] ∨
      ¬(count = 1 ∧ base ∉ existing) ∧ ∃ m,
        IsGreatest {n | n = 0 ∨ n < Text.wordLimit ∧ numbered base n ∈ existing} m ∧
        fresh existing base count = (List.range count).map fun i => numbered base (m + 1 + i)) ∧
    (Serves existing base count (fresh existing base count) ↔
      count = 0 ∨ count = 1 ∧ base ∉ existing ∨
        ∀ n, numbered base n ∈ existing → n < Text.wordLimit) := by
  refine ⟨fresh_length .., fresh_nodup .., ?_, ?_, ?_⟩
  · by_cases hcase : count = 1 ∧ base ∉ existing
    · exact .inl ⟨hcase.1, hcase.2, if_pos hcase⟩
    · exact .inr ⟨hcase, _, isGreatest_greatest base existing, fresh_of_numbered hcase⟩
  · intro h
    by_cases hcount : count = 0
    · exact .inl hcount
    · by_cases hcase : count = 1 ∧ base ∉ existing
      · exact .inr (.inl hcase)
      · exact .inr (.inr fun n hn => lt_of_fresh_serves (Nat.pos_of_ne_zero hcount) hcase h hn)
  · rintro (rfl | hcase | h)
    · have hnil : fresh existing base 0 = [] := List.eq_nil_of_length_eq_zero (fresh_length ..)
      rw [hnil]
      exact ⟨rfl, .nil, nofun, nofun, nofun⟩
    · have hname : fresh existing base count = [base] := if_pos hcase
      rw [hname]
      refine ⟨hcase.1.symm, List.nodup_singleton base, ?_, fun _ _ => rfl, fun _ h => absurd hcase h⟩
      intro name hname
      rw [List.mem_singleton.1 hname]
      exact hcase.2
    · exact fresh_serves h

/-- A number of more than 64 bits is written once and not seen the next time. -/
theorem fresh_taken :
    fresh ["w", "w-18446744073709551615", "w-18446744073709551616"] "w" 1 =
      ["w-18446744073709551616"] ∧
    ¬ Serves ["w", "w-18446744073709551615", "w-18446744073709551616"] "w" 1
      (fresh ["w", "w-18446744073709551615", "w-18446744073709551616"] "w" 1) := by
  have hfresh : fresh ["w", "w-18446744073709551615", "w-18446744073709551616"] "w" 1 =
      ["w-18446744073709551616"] := by decide +kernel
  refine ⟨hfresh, fun h => ?_⟩
  rw [hfresh] at h
  exact h.unused _ (List.mem_singleton_self _) (by decide)

end ClusterLedger.Hostname
