import ClusterLedger.Json.Printer
import ClusterLedger.Json.Token
import ClusterLedger.Proofs.Text.Digits
import Mathlib.Data.List.TakeWhile

/-!
# Words

A word is a literal or a number. No character of it could end it, an integer of 64 bits reads back
from its digits, and every number that is read is one that can be written.
-/
namespace ClusterLedger.Json

/-! ## The characters of a word -/

/-- The characters of a numeral. -/
def isNumeric (c : Char) : Bool :=
  c.isDigit || c ∈ ['.', 'e', 'E', '+', '-']

theorem mem_of_endsWord {c : Char} (h : endsWord c = true) :
    c ∈ [' ', '\t', '\n', '\r', '"', '[', ']', '{', '}', ',', ':'] := by
  simp only [endsWord, isSpace, Bool.or_eq_true, decide_eq_true_eq] at h
  rcases h with (h | h) | h
  · rcases h with rfl | rfl | rfl | rfl <;> decide
  · simp [h]
  · unfold punctuation? at h
    split at h <;> simp_all

theorem endsWord_of_isNumeric {c : Char} (h : isNumeric c = true) : endsWord c = false := by
  cases he : endsWord c with
  | false => rfl
  | true =>
    have hall : [' ', '\t', '\n', '\r', '"', '[', ']', '{', '}', ',', ':'].all
        (fun c => !isNumeric c) = true := by decide
    have hnot := List.all_eq_true.1 hall c (mem_of_endsWord he)
    rw [h] at hnot
    cases hnot

theorem isNumeric_of_isDigit {c : Char} (h : c.isDigit = true) : isNumeric c = true := by
  simp [isNumeric, h]

theorem isNumeric_of_digits? {cs : List Char} (h : Text.digits? cs ≠ none) :
    ∀ c ∈ cs, isNumeric c = true := by
  obtain ⟨n, hn⟩ := Option.ne_none_iff_exists'.1 h
  exact fun c hc => isNumeric_of_isDigit (Text.isDigit_of_digits? hn c hc)

theorem isNumeric_of_exponent? {cs : List Char} {e : Int} (h : Text.exponent? cs = some e) :
    ∀ c ∈ cs, isNumeric c = true := by
  unfold Text.exponent? at h
  split at h
  · intro c hc
    cases hc
  · next a cs =>
    split at h
    · next ha =>
      have hmark : isNumeric a = true := by rcases ha with rfl | rfl <;> rfl
      have hrest : ∀ c ∈ cs, isNumeric c = true := by
        split at h
        · next ds =>
          have hds : ∀ c ∈ ds, isNumeric c = true :=
            isNumeric_of_digits? fun hn => by simp [hn] at h
          exact List.forall_mem_cons.2 ⟨rfl, hds⟩
        · next ds =>
          have hds : ∀ c ∈ ds, isNumeric c = true :=
            isNumeric_of_digits? fun hn => by simp [hn] at h
          exact List.forall_mem_cons.2 ⟨rfl, hds⟩
        · exact isNumeric_of_digits? fun hn => by simp [hn] at h
      exact List.forall_mem_cons.2 ⟨hmark, hrest⟩
    · cases h

theorem isNumeric_of_takeWhile {cs : List Char} {c : Char}
    (h : c ∈ cs.takeWhile Char.isDigit) : isNumeric c = true :=
  isNumeric_of_isDigit (List.all_eq_true.1 List.all_takeWhile c h)

theorem isNumeric_of_fraction? {cs decimals tail : List Char}
    (h : fraction? cs = some (decimals, tail)) (htail : ∀ c ∈ tail, isNumeric c = true) :
    ∀ c ∈ cs, isNumeric c = true := by
  unfold fraction? at h
  split at h
  · next rest =>
    split at h
    · cases h
    · cases h
      intro c hc
      rcases List.mem_cons.1 hc with rfl | hc
      · rfl
      · rw [← List.takeWhile_append_dropWhile (p := Char.isDigit) (l := rest)] at hc
        rcases List.mem_append.1 hc with hc | hc
        · exact isNumeric_of_takeWhile hc
        · exact htail c hc
  · cases h
    exact htail

theorem Numeral.of_ofUnsigned? {negative : Bool} {cs : List Char} {n : Numeral}
    (h : ofUnsigned? negative cs = some n) : cs ≠ [] ∧ ∀ c ∈ cs, isNumeric c = true := by
  rw [ofUnsigned?] at h
  dsimp only at h
  split at h
  · cases h
  next hwhole =>
  refine ⟨fun hnil => hwhole (.inl (by rw [hnil]; rfl)), fun c hc => ?_⟩
  rw [← List.takeWhile_append_dropWhile (p := Char.isDigit) (l := cs)] at hc
  rcases List.mem_append.1 hc with hc | hc
  · exact isNumeric_of_takeWhile hc
  split at h
  · next hrest => rw [hrest] at hc; cases hc
  · obtain ⟨⟨decimals, tail⟩, hf, h⟩ := Option.bind_eq_some_iff.1 h
    obtain ⟨e, he, -⟩ := Option.bind_eq_some_iff.1 h
    exact isNumeric_of_fraction? hf (isNumeric_of_exponent? he) c hc

theorem Numeral.of_ofChars? {cs : List Char} {n : Numeral} (h : ofChars? cs = some n) :
    cs ≠ [] ∧ ∀ c ∈ cs, isNumeric c = true := by
  unfold ofChars? at h
  split at h
  · refine ⟨nofun, fun c hc => ?_⟩
    rcases List.mem_cons.1 hc with rfl | hc
    · rfl
    · exact (of_ofUnsigned? h).2 c hc
  · exact of_ofUnsigned? h

/-- A word is not empty, and nothing in it ends it. -/
theorem Token.of_ofWord? {word : List Char} {t : Token} (h : ofWord? word = some t) :
    word ≠ [] ∧ ∀ c ∈ word, endsWord c = false := by
  have hliteral (hne : word ≠ []) (hall : word.all (fun c => !endsWord c) = true) :
      word ≠ [] ∧ ∀ c ∈ word, endsWord c = false :=
    ⟨hne, fun c hc => by simpa using List.all_eq_true.1 hall c hc⟩
  rw [ofWord?] at h
  split at h
  · next hw => exact hliteral (hw ▸ nofun) (hw ▸ by decide)
  split at h
  · next hw => exact hliteral (hw ▸ nofun) (hw ▸ by decide)
  split at h
  · next hw => exact hliteral (hw ▸ nofun) (hw ▸ by decide)
  obtain ⟨n, hn, -⟩ := Option.map_eq_some_iff.1 h
  obtain ⟨hne, hall⟩ := Numeral.of_ofChars? hn
  exact ⟨hne, fun c hc => endsWord_of_isNumeric (hall c hc)⟩

/-! ## Integers -/

/-- The integers of 64 bits, with or without a sign; floating-point numbers are not limited. -/
def Number.InRange : Number → Prop
  | .int n => -0x8000000000000000 ≤ n ∧ n < 0x10000000000000000
  | .float _ => True

theorem gather_lt {n : Nat} (h : n < Text.wordLimit) (cs : List Char) :
    (gather n cs).1 < Text.wordLimit := by
  fun_induction gather n cs with
  | case1 => exact h
  | case2 n c cs next hnext ih => exact ih hnext
  | case3 => exact h

/-- Digits that 64 bits hold are all gathered. -/
theorem gather_of_lt {n : Nat} {cs : List Char} (h : Text.digitsValue n cs < Text.wordLimit) :
    gather n cs = (Text.digitsValue n cs, []) := by
  induction cs generalizing n with
  | nil => rfl
  | cons c cs ih =>
    have hnext : 10 * n + (c.toNat - '0'.toNat) < Text.wordLimit :=
      Nat.lt_of_le_of_lt (Text.le_digitsValue _ cs) h
    rw [gather]
    exact (if_pos hnext).trans (ih h)

theorem Number.inRange_ofInteger (negative : Bool) {n : Nat} (h : n < Text.wordLimit) :
    (ofInteger negative n).InRange := by
  rw [Text.wordLimit] at h
  rw [ofInteger]
  split
  · rw [InRange]
    omega
  split
  · rw [InRange]
    omega
  · trivial

theorem Numeral.inRange_value? {n : Numeral} {x : Number} (h : n.value? = some x) :
    x.InRange := by
  rw [value?] at h
  dsimp only at h
  split at h
  · cases h
    exact Number.inRange_ofInteger _ (gather_lt (by decide) _)
  split at h
  · obtain ⟨y, -, rfl⟩ := Option.map_eq_some_iff.1 h
    trivial
  split at h <;> cases h
  trivial

theorem Token.inRange_ofWord? {word : List Char} {x : Number}
    (h : ofWord? word = some (.number (some x))) : x.InRange := by
  rw [ofWord?] at h
  split at h
  · cases h
  split at h
  · cases h
  split at h
  · cases h
  obtain ⟨n, -, hn⟩ := Option.map_eq_some_iff.1 h
  injection hn with hn
  exact Numeral.inRange_value? hn

/-! ## Numbers that read back -/

/-- The text of a number is a word that spells it. -/
def Number.ReadsBack (n : Number) : Prop :=
  Token.ofWord? n.chars = some (.number (some n))

instance (n : Number) : Decidable n.ReadsBack :=
  inferInstanceAs (Decidable (_ = _))

theorem Numeral.ofUnsigned?_digits (negative : Bool) (n : Nat) :
    ofUnsigned? negative (Text.digits n) = some ⟨negative, Text.digits n, [], 0, true⟩ := by
  have hall : (Text.digits n).takeWhile Char.isDigit = Text.digits n :=
    List.takeWhile_eq_self_iff.2 fun c hc => Text.isDigit_of_mem_digits hc
  have hrest : (Text.digits n).dropWhile Char.isDigit = [] :=
    List.dropWhile_eq_nil_iff.2 fun c hc => Text.isDigit_of_mem_digits hc
  rw [ofUnsigned?]
  dsimp only
  rw [hall, hrest, if_neg, if_pos rfl]
  rintro (hnil | ⟨hhead, hne⟩)
  · exact Text.digits_ne_nil n hnil
  · cases n with
    | zero => exact hne Text.digits_zero
    | succ n => exact Text.head?_digits (Nat.succ_pos n) hhead

/-- A word that begins like a number is no literal. -/
theorem Token.ofWord?_of_head {word : List Char} {c : Char} (hc : word.head? = some c)
    (hn : isNumeric c = true) :
    ofWord? word = (Numeral.ofChars? word).map fun n => .number n.value? := by
  have hall : ['n', 't', 'f'].all (fun c => !isNumeric c) = true := by decide
  have hne (rest : List Char) {a : Char} (ha : a ∈ ['n', 't', 'f']) : word ≠ a :: rest := by
    intro hw
    rw [hw] at hc
    cases hc
    have hnot := List.all_eq_true.1 hall _ ha
    rw [hn] at hnot
    cases hnot
  rw [ofWord?, if_neg (hne _ (by decide)), if_neg (hne _ (by decide)), if_neg (hne _ (by decide))]

theorem Numeral.ofChars?_digits (n : Nat) :
    ofChars? (Text.digits n) = some ⟨false, Text.digits n, [], 0, true⟩ := by
  rw [← ofUnsigned?_digits]
  unfold ofChars?
  split
  · next cs hcs =>
    have hminus : '-'.isDigit = true := Text.isDigit_of_mem_digits (n := n) (hcs ▸ List.mem_cons_self)
    cases hminus
  · rfl

theorem Numeral.value?_digits {negative : Bool} {n : Nat} (h : n < 0x10000000000000000) :
    (Numeral.mk negative (Text.digits n) [] 0 true).value? = some (.ofInteger negative n) := by
  have hvalue : Text.digitsValue 0 (Text.digits n) < Text.wordLimit := by
    rw [Text.digitsValue_digits, Text.wordLimit]
    exact h
  rw [value?, gather_of_lt hvalue, Text.digitsValue_digits]
  exact if_pos ⟨rfl, rfl⟩

/-- Every integer of 64 bits reads back. -/
theorem Number.int_readsBack {n : Int} (h : (Number.int n).InRange) : (Number.int n).ReadsBack := by
  rw [InRange] at h
  rw [ReadsBack, chars, intChars]
  split
  · next hneg =>
    rw [Token.ofWord?_of_head rfl rfl]
    change ((Numeral.ofUnsigned? true (Text.digits n.natAbs)).map _) = _
    rw [Numeral.ofUnsigned?_digits, Option.map_some, Numeral.value?_digits (by omega), ofInteger,
      if_neg (by simp), if_pos (by omega)]
    have hn : -(n.natAbs : Int) = n := by omega
    rw [hn]
  · next hpos =>
    obtain ⟨c, hc⟩ := Option.ne_none_iff_exists'.1
      (mt List.head?_eq_none_iff.1 (Text.digits_ne_nil n.natAbs))
    have hdigit := Text.isDigit_of_mem_digits (List.mem_of_head? hc)
    rw [Token.ofWord?_of_head hc (isNumeric_of_isDigit hdigit), Numeral.ofChars?_digits,
      Option.map_some, Numeral.value?_digits (by omega), ofInteger, if_pos (by simp)]
    have hn : (n.natAbs : Int) = n := by omega
    rw [hn]

end ClusterLedger.Json
