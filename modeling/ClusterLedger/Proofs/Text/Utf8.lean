import ClusterLedger.Text.Utf8
import Mathlib.Tactic.IntervalCases

/-!
# Text as bytes

Encoded text decodes to itself, character by character, also where every mistake would be replaced.
The order of texts is the order of their bytes.
-/
namespace ClusterLedger.Text

theorem fromUTF8?_toUTF8 (s : String) : String.fromUTF8? s.toUTF8 = some s := by
  have hvalid : s.toUTF8.IsValidUTF8 := s.isValidUTF8
  rw [String.fromUTF8?, dif_pos hvalid]
  rfl

theorem letters_toUTF8 (s : String) : letters s.toUTF8 = s.toList.map some := by
  rw [letters, utf8?, fromUTF8?_toUTF8]

/-! ## The order of bytes -/

/-- The bytes of one text come before those of the other. -/
def BytesLt (s t : String) : Prop :=
  s.toUTF8.data.toList < t.toUTF8.data.toList

/-- Numbers are ordered by their digits to the base 64, the highest first. -/
theorem lt_by_digits {m n : Nat} (h : m < n) : m / 262144 < n / 262144 ∨ m / 262144 = n / 262144 ∧
    (m / 4096 % 64 < n / 4096 % 64 ∨ m / 4096 % 64 = n / 4096 % 64 ∧
      (m / 64 % 64 < n / 64 % 64 ∨ m / 64 % 64 = n / 64 % 64 ∧ m % 64 < n % 64)) := by
  have hdigit {a b : Nat} (h : a < b) : a / 64 < b / 64 ∨ a / 64 = b / 64 ∧ a % 64 < b % 64 := by
    omega
  have hdiv (k : Nat) : k / 64 / 64 = k / 4096 ∧ k / 4096 / 64 = k / 262144 := by omega
  obtain ⟨hm, hm'⟩ := hdiv m
  obtain ⟨hn, hn'⟩ := hdiv n
  rcases hdigit h with h | h
  · rcases hdigit h with h | h
    · rw [hm, hn] at h
      have := hdigit h
      omega
    · omega
  · omega

/-- The bytes of a lesser character are less, whatever follows them. -/
theorem encoded_lt {c d : Char} (h : c < d) (xs ys : List UInt8) :
    String.utf8EncodeChar c ++ xs < String.utf8EncodeChar d ++ ys := by
  have hlt : c.val.toNat < d.val.toNat := h
  have hd : d.val.toNat < 0x110000 := by
    rcases d.valid with hd | hd
    · omega
    · exact hd.2
  simp only [String.utf8EncodeChar]
  generalize c.val.toNat = m at *
  generalize d.val.toNat = n at *
  have hdigits := lt_by_digits hlt
  have hm : (m / 262144 % 8 + 240) % 256 = m / 262144 + 240 := by omega
  have hn : (n / 262144 % 8 + 240) % 256 = n / 262144 + 240 := by omega
  have hfit (a k b : Nat) (hb : a + b ≤ 256) (ha : 0 < a) : (k % a + b) % 256 = k % a + b :=
    Nat.mod_eq_of_lt (by have := Nat.mod_lt k ha; omega)
  -- one goal for each pair of lengths: a longer encoding starts with a greater byte
  repeat' split
  all_goals
    simp (disch := decide) only [List.cons_append, List.nil_append, List.cons_lt_cons_iff,
      UInt8.lt_iff_toNat_lt, ← UInt8.toNat_inj, UInt8.toNat_ofNat', Nat.reducePow, hm, hn, hfit]
    omega

theorem bytes_toUTF8 (s : String) :
    s.toUTF8.data.toList = s.toList.flatMap String.utf8EncodeChar := by
  change s.toByteArray.data.toList = _
  rw [← String.utf8Encode_toList, List.utf8Encode]
  simp

theorem encodedAll_lt {cs ds : List Char} (h : cs < ds) :
    cs.flatMap String.utf8EncodeChar < ds.flatMap String.utf8EncodeChar := by
  induction cs generalizing ds with
  | nil =>
    cases ds with
    | nil => exact absurd h (List.lt_irrefl _)
    | cons d ds =>
      obtain ⟨b, bs, hb⟩ := List.exists_cons_of_ne_nil (String.utf8EncodeChar_ne_nil (c := d))
      rw [List.flatMap_nil, List.flatMap_cons, hb]
      exact List.nil_lt_cons _ _
  | cons c cs ih =>
    cases ds with
    | nil => exact absurd h (List.not_lt_nil _)
    | cons d ds =>
      rw [List.flatMap_cons, List.flatMap_cons]
      rcases List.cons_lt_cons_iff.1 h with hchar | ⟨rfl, hrest⟩
      · exact encoded_lt hchar _ _
      · exact List.append_left_lt (ih hrest)

theorem bytesLt_of_lt {s t : String} (h : s < t) : BytesLt s t := by
  rw [BytesLt, bytes_toUTF8, bytes_toUTF8]
  exact encodedAll_lt h

/-- Texts are ordered as their bytes are. -/
theorem lt_iff_bytesLt {s t : String} : s < t ↔ BytesLt s t := by
  refine ⟨bytesLt_of_lt, fun h => ?_⟩
  by_cases hts : t < s
  · exact absurd (bytesLt_of_lt hts) (List.lt_asymm h)
  by_cases hst : s < t
  · exact hst
  · have heq : s = t := String.le_antisymm (String.not_lt.1 hts) (String.not_lt.1 hst)
    rw [heq] at h
    exact absurd h (List.lt_irrefl _)

/-! ## Decoding with replacements -/

theorem leadByte_two {k : Nat} (h : 2 ≤ k) (hk : k < 32) :
    leadByte (UInt8.ofNat (k + 0xC0)) = ([], some ⟨1, k, 0x80, 0xBF⟩) := by
  interval_cases k <;> rfl

theorem leadByte_three {k : Nat} (hk : k < 16) : leadByte (UInt8.ofNat (k + 0xE0)) =
    ([], some ⟨2, k, if k = 0 then 0xA0 else 0x80, if k = 0xD then 0x9F else 0xBF⟩) := by
  interval_cases k <;> rfl

theorem leadByte_four {k : Nat} (hk : k < 5) : leadByte (UInt8.ofNat (k + 0xF0)) =
    ([], some ⟨3, k, if k = 0 then 0x90 else 0x80, if k = 4 then 0x8F else 0xBF⟩) := by
  interval_cases k <;> rfl

/-- A byte of an unfinished character that is in the range of its next byte. -/
theorem lettersFrom_next {missing bits k : Nat} {least greatest : UInt8} {bs : List UInt8}
    (hk : k < 64) (hleast : least.toNat ≤ k + 128) (hgreatest : k + 128 ≤ greatest.toNat) :
    lettersFrom (some ⟨missing, bits, least, greatest⟩) (UInt8.ofNat (k + 128) :: bs) =
      if missing = 1 then some (Char.ofNat (bits * 64 + k)) :: lettersFrom none bs
      else lettersFrom (some ⟨missing - 1, bits * 64 + k, 0x80, 0xBF⟩) bs := by
  have hbyte : (UInt8.ofNat (k + 128)).toNat = k + 128 := by
    rw [UInt8.toNat_ofNat']
    omega
  rw [lettersFrom, nextByte, if_pos]
  · simp only [hbyte, Nat.add_sub_cancel]
    split <;> rfl
  · rw [UInt8.le_iff_toNat_le, UInt8.le_iff_toNat_le, hbyte]
    exact ⟨hleast, hgreatest⟩

theorem lettersFrom_encoded (c : Char) (bs : List UInt8) :
    lettersFrom none (String.utf8EncodeChar c ++ bs) = some c :: lettersFrom none bs := by
  have hchar : Char.ofNat c.val.toNat = c := Char.ofNat_toNat c
  have hvalid : c.val.toNat < 0xD800 ∨ 0xDFFF < c.val.toNat ∧ c.val.toNat < 0x110000 := c.valid
  simp only [String.utf8EncodeChar]
  generalize c.val.toNat = n at hchar hvalid ⊢
  split
  next h₁ =>
    have hbyte : (UInt8.ofNat n).toNat = n := by
      rw [UInt8.toNat_ofNat']
      omega
    rw [List.singleton_append, lettersFrom, nextByte, leadByte]
    simp only [hbyte]
    rw [if_pos (by omega), hchar]
    rfl
  next h₁ =>
  split
  next h₂ =>
    simp only [List.cons_append, List.nil_append]
    rw [lettersFrom, nextByte, leadByte_two (by omega) (by omega)]
    simp only [List.nil_append]
    rw [lettersFrom_next (by omega) (by simp) (by simp; omega), if_pos rfl, ← hchar]
    congr 3
    omega
  next h₂ =>
  split
  next h₃ =>
    simp only [List.cons_append, List.nil_append]
    rw [lettersFrom, nextByte, leadByte_three (by omega)]
    simp only [List.nil_append]
    rw [lettersFrom_next (by omega) (by split <;> simp; omega)
        (by split <;> simp <;> omega), if_neg (by omega),
      lettersFrom_next (by omega) (by simp) (by simp; omega), if_pos rfl, ← hchar]
    congr 3
    omega
  next h₃ =>
    simp only [List.cons_append, List.nil_append]
    have hlead : n / 262144 % 8 + 240 = n / 262144 + 0xF0 := by omega
    rw [lettersFrom, nextByte, hlead, leadByte_four (by omega)]
    simp only [List.nil_append]
    rw [lettersFrom_next (by omega) (by split <;> simp; omega)
        (by split <;> simp <;> omega), if_neg (by omega),
      lettersFrom_next (by omega) (by simp) (by simp; omega), if_neg (by omega),
      lettersFrom_next (by omega) (by simp) (by simp; omega), if_pos rfl, ← hchar]
    congr 3
    omega

theorem lossy_toUTF8 (s : String) : lossy s.toUTF8.data.toList = s := by
  have hletters (cs : List Char) :
      lettersFrom none (cs.flatMap String.utf8EncodeChar) = cs.map some := by
    induction cs with
    | nil => rfl
    | cons c cs ih => rw [List.flatMap_cons, lettersFrom_encoded, ih, List.map_cons]
  rw [lossy, bytes_toUTF8, hletters, List.map_map]
  simp [Function.comp_def]

end ClusterLedger.Text
