import ClusterLedger.Text.Digits
import Mathlib.Algebra.Group.Nat.Defs
import Mathlib.Data.List.Induction

/-!
# Written numbers

The digits of a number spell it, and none of them is a leading zero.
-/
namespace ClusterLedger.Text

theorem isDigit_of_mem_digits {n : Nat} {c : Char} (h : c ∈ digits n) : c.isDigit = true :=
  Nat.isDigit_of_mem_toDigits (by decide) (by decide) h

theorem digitsValue_digits (n : Nat) : digitsValue 0 (digits n) = n :=
  Nat.ofDigitChars_ten_toDigits

/-- More digits make no smaller number. -/
theorem le_digitsValue (n : Nat) (cs : List Char) : n ≤ digitsValue n cs := by
  induction cs generalizing n with
  | nil => exact Nat.le_refl n
  | cons c cs ih =>
    calc n
      _ ≤ 10 * n + (c.toNat - '0'.toNat) := by omega
      _ ≤ digitsValue n (c :: cs) := ih _

theorem digits_inj {m n : Nat} (h : digits m = digits n) : m = n := by
  rw [← digitsValue_digits m, h, digitsValue_digits]

theorem digits_ne_nil (n : Nat) : digits n ≠ [] := by
  rw [digits, Nat.toDigits_eq_if (by decide)]
  split <;> simp

/-- Only zero is written with a zero in front. -/
theorem head?_digits {n : Nat} (h : 0 < n) : (digits n).head? ≠ some '0' := by
  induction n using Nat.strongRecOn with
  | ind n ih =>
    rw [digits, Nat.toDigits_eq_if (by decide)]
    split
    · next hlt =>
      have hall : ∀ m : Fin 10, 0 < m.val → [Nat.digitChar m.val].head? ≠ some '0' := by decide
      exact hall ⟨n, hlt⟩ h
    · next hge =>
      rw [List.head?_append]
      cases hd : (Nat.toDigits 10 (n / 10)).head? with
      | none => exact absurd (List.head?_eq_none_iff.1 hd) (digits_ne_nil (n / 10))
      | some c =>
        have hc := ih (n / 10) (by omega) (by omega)
        rw [digits, hd] at hc
        exact hc

theorem digits_zero : digits 0 = ['0'] :=
  Nat.toDigits_zero 10

theorem isDigit_of_digits? {cs : List Char} {n : Nat} (h : digits? cs = some n) :
    ∀ c ∈ cs, c.isDigit = true := by
  rw [digits?] at h
  split at h
  · next hcs => exact List.all_eq_true.1 hcs.2
  · cases h

theorem isDigit_lt_ten {c : Char} (h : c.isDigit = true) : c.toNat - '0'.toNat < 10 := by
  have hgreatest := (Char.isDigit_iff_toNat.1 h).2
  have hnine : '9'.toNat = 57 := rfl
  have hzero : '0'.toNat = 48 := rfl
  omega

theorem digits_of_isDigit {c : Char} (h : c.isDigit = true) :
    digits (c.toNat - '0'.toNat) = [c] := by
  rw [digits, Nat.toDigits_of_lt_base (isDigit_lt_ten h)]
  apply congrArg (fun c => [c])
  apply Char.toNat_inj.1
  rw [Nat.toNat_digitChar_of_lt_ten (isDigit_lt_ten h)]
  exact Nat.add_sub_cancel' (Char.isDigit_iff_toNat.1 h).1

/-- Digits without a leading zero are the digits of the number that they spell. -/
theorem digits_digitsValue {cs : List Char} (hne : cs ≠ []) (hdigits : ∀ c ∈ cs, c.isDigit = true)
    (hzero : cs.head? ≠ some '0') : digits (digitsValue 0 cs) = cs := by
  induction cs using List.reverseRecOn with
  | nil => exact absurd rfl hne
  | append_singleton cs c ih =>
    have hc : c.isDigit = true := hdigits c (by simp)
    have hvalue : digitsValue 0 (cs ++ [c]) = 10 * digitsValue 0 cs + (c.toNat - '0'.toNat) := by
      simp [digitsValue]
    rw [hvalue]
    cases cs with
    | nil => simpa [digitsValue] using digits_of_isDigit hc
    | cons d ds =>
      have ih : digits (digitsValue 0 (d :: ds)) = d :: ds :=
        ih nofun (fun x hx => hdigits x (List.mem_append_left _ hx)) hzero
      -- the digits in front do not begin with a zero, so they do not spell the number zero
      have hpos : digitsValue 0 (d :: ds) ≠ 0 := by
        intro h0
        rw [h0, digits_zero] at ih
        cases ih
        exact hzero rfl
      calc digits (10 * digitsValue 0 (d :: ds) + (c.toNat - '0'.toNat))
        _ = digits (digitsValue 0 (d :: ds)) ++ digits (c.toNat - '0'.toNat) :=
          (Nat.toDigits_append_toDigits (by decide) (Nat.pos_of_ne_zero hpos)
            (isDigit_lt_ten hc)).symm
        _ = d :: ds ++ [c] := by rw [ih, digits_of_isDigit hc]

/-! ## Numbers of a width -/

theorem length_digits_le {width n : Nat} (h : 0 < width) :
    (digits n).length ≤ width ↔ n < 10 ^ width :=
  Nat.length_toDigits_le_iff (by decide) h

theorem length_padded {width n : Nat} (h : 0 < width) (hn : n < 10 ^ width) :
    (padded width n).length = width := by
  have hlength := (length_digits_le h).2 hn
  rw [padded, List.length_append, List.length_replicate]
  omega

theorem isDigit_of_mem_padded {width n : Nat} {c : Char} (h : c ∈ padded width n) :
    c.isDigit = true := by
  rw [padded, List.mem_append] at h
  rcases h with h | h
  · rw [List.eq_of_mem_replicate h]
    rfl
  · exact isDigit_of_mem_digits h

theorem padded_ne_nil (width n : Nat) : padded width n ≠ [] :=
  List.append_ne_nil_of_right_ne_nil _ (digits_ne_nil n)

theorem digitsValue_padded (width n : Nat) : digitsValue 0 (padded width n) = n := by
  have hvalue (cs : List Char) : digitsValue 0 cs = Nat.ofDigitChars 10 cs 0 :=
    Nat.ofDigitChars_eq_foldl.symm
  rw [hvalue, padded, Nat.ofDigitChars_append, Nat.ofDigitChars_replicate_zero, Nat.mul_zero, digits,
    Nat.ofDigitChars_ten_toDigits]

/-! ## Numerals -/

theorem digits?_eq_some_of_all {cs : List Char} (hne : cs ≠ [])
    (hdigits : ∀ c ∈ cs, c.isDigit = true) : digits? cs = some (digitsValue 0 cs) :=
  if_pos ⟨hne, List.all_eq_true.2 hdigits⟩

/-- Digits are those of the number that they spell, behind some zeros. -/
theorem padded_digitsValue {cs : List Char} (hne : cs ≠ [])
    (hdigits : ∀ c ∈ cs, c.isDigit = true) : padded cs.length (digitsValue 0 cs) = cs := by
  induction cs with
  | nil => exact absurd rfl hne
  | cons c cs ih =>
    by_cases hzero : c = '0'
    · subst hzero
      have hvalue : digitsValue 0 ('0' :: cs) = digitsValue 0 cs := rfl
      cases cs with
      | nil => decide
      | cons d ds =>
        have ih := ih nofun fun x hx => hdigits x (List.mem_cons_of_mem _ hx)
        have hlength := congrArg List.length ih
        rw [padded, List.length_append, List.length_replicate] at hlength
        rw [hvalue, padded, List.length_cons, Nat.sub_add_comm (by omega), List.replicate_succ,
          List.cons_append, ← padded, ih]
    · have hself : digits (digitsValue 0 (c :: cs)) = c :: cs :=
        digits_digitsValue nofun hdigits (by simpa using hzero)
      rw [padded, hself, Nat.sub_self, List.replicate_zero, List.nil_append]

theorem digits?_eq_some {cs : List Char} {n : Nat} :
    digits? cs = some n ↔ ∃ width, cs = padded width n := by
  constructor
  · intro h
    have hdigits := isDigit_of_digits? h
    rw [digits?] at h
    split at h
    · next hcs =>
      cases h
      exact ⟨_, (padded_digitsValue hcs.1 hdigits).symm⟩
    · cases h
  · rintro ⟨width, rfl⟩
    rw [digits?_eq_some_of_all (padded_ne_nil width n) fun c hc => isDigit_of_mem_padded hc,
      digitsValue_padded]

/-- The spellings of a number: its digits, behind zeros and a sign `+` or not. -/
inductive Denotes : List Char → Nat → Prop
  | plain (width n : Nat) : Denotes (padded width n) n
  | signed (width n : Nat) : Denotes ('+' :: padded width n) n

theorem denotes_digits (n : Nat) : Denotes (digits n) n := by
  have hself : padded 0 n = digits n := by
    rw [padded, Nat.zero_sub, List.replicate_zero, List.nil_append]
  exact hself ▸ .plain 0 n

theorem padded_ne_plus (width n : Nat) (rest : List Char) : padded width n ≠ '+' :: rest := by
  intro h
  have hmem : '+' ∈ padded width n := h ▸ List.mem_cons_self
  exact absurd (isDigit_of_mem_padded hmem) (by decide)

theorem unsigned?_eq_some {limit n : Nat} {cs : List Char} :
    unsigned? limit cs = some n ↔ n < limit ∧ Denotes cs n := by
  rw [unsigned?.eq_def, Option.filter_eq_some_iff, digits?_eq_some, decide_eq_true_eq, and_comm]
  refine and_congr_right fun _ => ?_
  split
  · next rest =>
    constructor
    · rintro ⟨width, rfl⟩
      exact .signed width n
    · intro h
      generalize hcs : '+' :: rest = cs at h
      cases h with
      | plain width => exact absurd hcs.symm (padded_ne_plus width n rest)
      | signed width => exact ⟨width, (List.cons.inj hcs).2⟩
  · next hplus =>
    constructor
    · rintro ⟨width, rfl⟩
      exact .plain width n
    · intro h
      cases h with
      | plain width => exact ⟨width, rfl⟩
      | signed width => exact absurd rfl (hplus _)

end ClusterLedger.Text
