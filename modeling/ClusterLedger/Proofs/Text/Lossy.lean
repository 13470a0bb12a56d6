import ClusterLedger.Proofs.Text.Utf8

/-!
# Bytes with mistakes

Any bytes are a row of encoded characters and mistakes. A mistake is the longest part that begins a
character, or one byte where none begins. The decoder finds this row, and there is no other.
-/
namespace ClusterLedger.Text

/-! ## The bytes of a character -/

/-- How many bytes encode the character of a number. -/
def encodedLength (n : Nat) : Nat :=
  if n ≤ 0x7F then 1 else if n ≤ 0x7FF then 2 else if n ≤ 0xFFFF then 3 else 4

/-- The first of the bytes that encode the character of a number. -/
def firstByte (n : Nat) : Nat :=
  if n ≤ 0x7F then n
  else if n ≤ 0x7FF then n / 64 + 0xC0
  else if n ≤ 0xFFFF then n / 4096 + 0xE0
  else n / 262144 + 0xF0

theorem toNat_ofNat {n : Nat} (h : n.isValidChar) : (Char.ofNat n).toNat = n := by
  rw [Char.ofNat, dif_pos h]
  rfl

/-- Behind the first byte stand the digits of the number to the base 64, the highest one first. -/
theorem encoded_eq (c : Char) :
    String.utf8EncodeChar c = UInt8.ofNat (firstByte c.toNat) ::
      (List.range (encodedLength c.toNat - 1)).reverse.map
        fun i => UInt8.ofNat (c.toNat / 64 ^ i % 64 + 128) := by
  have hvalid : c.val.toNat < 0xD800 ∨ 0xDFFF < c.val.toNat ∧ c.val.toNat < 0x110000 := c.valid
  have htwo (h : c.val.toNat ≤ 0x7FF) : c.val.toNat / 64 % 32 = c.val.toNat / 64 := by omega
  have hthree (h : c.val.toNat ≤ 0xFFFF) : c.val.toNat / 4096 % 16 = c.val.toNat / 4096 := by omega
  have hfour : c.val.toNat / 262144 % 8 = c.val.toNat / 262144 := by omega
  simp only [String.utf8EncodeChar, firstByte, encodedLength, Char.toNat]
  split
  next => rfl
  split
  next h => rw [htwo h]; simp [List.range_succ]
  split
  next h => rw [hthree h]; simp [List.range_succ]
  next => rw [hfour]; simp [List.range_succ]

theorem length_encoded (c : Char) :
    (String.utf8EncodeChar c).length = encodedLength c.toNat := by
  have hpos : 0 < encodedLength c.toNat := by
    unfold encodedLength
    repeat' split
    all_goals decide
  rw [encoded_eq, List.length_cons, List.length_map, List.length_reverse, List.length_range]
  omega

theorem head?_encoded (c : Char) :
    (String.utf8EncodeChar c).head? = some (UInt8.ofNat (firstByte c.toNat)) := by
  rw [encoded_eq, List.head?_cons]

theorem getElem?_encoded {c : Char} {j m : Nat} (hj : 0 < j) (hm : 0 < m)
    (h : encodedLength c.toNat = j + m) :
    (String.utf8EncodeChar c)[j]? = some (UInt8.ofNat (c.toNat / 64 ^ (m - 1) % 64 + 128)) := by
  obtain ⟨j, rfl⟩ := Nat.exists_eq_succ_of_ne_zero hj.ne'
  have hbound : j < encodedLength c.toNat - 1 := by omega
  have hindex : encodedLength c.toNat - 1 - 1 - j = m - 1 := by omega
  rw [encoded_eq, List.getElem?_cons_succ, List.getElem?_map, List.getElem?_reverse (by simpa),
    List.length_range, List.getElem?_range (by omega), hindex, Option.map_some]

theorem snoc_isPrefix_iff {α : Type} {part whole : List α} {a : α} :
    part ++ [a] <+: whole ↔ part <+: whole ∧ whole[part.length]? = some a := by
  constructor
  · rintro ⟨rest, rfl⟩
    exact ⟨⟨a :: rest, by simp⟩, by simp⟩
  · rintro ⟨⟨rest, rfl⟩, h⟩
    cases rest with
    | nil => simp at h
    | cons b rest =>
      obtain rfl : b = a := by simpa using h
      exact ⟨rest, by simp⟩

/-- The bytes begin a character, or are all of it. -/
def Begins (part : List UInt8) : Prop :=
  ∃ c, part <+: String.utf8EncodeChar c

theorem Begins.of_isPrefix {part whole : List UInt8} (h : part <+: whole) :
    Begins whole → Begins part
  | ⟨c, hc⟩ => ⟨c, h.trans hc⟩

theorem singleton_isPrefix_iff {b : UInt8} {c : Char} :
    [b] <+: String.utf8EncodeChar c ↔ firstByte c.toNat = b.toNat := by
  have hvalid : c.toNat < 0xD800 ∨ 0xDFFF < c.toNat ∧ c.toNat < 0x110000 := c.valid
  have hbyte : firstByte c.toNat < 256 := by
    unfold firstByte
    repeat' split
    all_goals omega
  have hnil : ([b] <+: String.utf8EncodeChar c) ↔ (String.utf8EncodeChar c).head? = some b := by
    rw [List.head?_eq_getElem?]
    exact (@snoc_isPrefix_iff _ [] _ b).trans (and_iff_right List.nil_prefix)
  rw [hnil, head?_encoded, Option.some.injEq, ← UInt8.toNat_inj, UInt8.toNat_ofNat',
    Nat.mod_eq_of_lt hbyte]

/-- Only the first byte of a character is less than 128 or greater than 191. -/
theorem range_of_isPrefix {part : List UInt8} {b : UInt8} {c : Char} (hpart : part ≠ [])
    (h : part ++ [b] <+: String.utf8EncodeChar c) : 128 ≤ b.toNat ∧ b.toNat ≤ 191 := by
  obtain ⟨-, hb⟩ := snoc_isPrefix_iff.1 h
  have hlength := h.length_le
  rw [length_encoded, List.length_append, List.length_singleton] at hlength
  have hpos : 0 < part.length := List.length_pos_iff.2 hpart
  rw [getElem?_encoded (m := encodedLength c.toNat - part.length) hpos (by omega) (by omega),
    Option.some.injEq] at hb
  rw [← hb, UInt8.toNat_ofNat']
  omega

/-! ## What a decoder awaits -/

/-- What the state of a decoder says about the part that it has read of a character. -/
structure Awaits (part : List UInt8) (u : Unfinished) : Prop where
  ne_nil : part ≠ []
  missing_pos : 0 < u.missing
  least : 128 ≤ u.least.toNat
  least_le_greatest : u.least.toNat ≤ u.greatest.toNat
  greatest : u.greatest.toNat ≤ 191
  isPrefix_iff (c : Char) : part <+: String.utf8EncodeChar c ↔
    encodedLength c.toNat = part.length + u.missing ∧ c.toNat / 64 ^ u.missing = u.bits
  /-- The next byte decides whether the number is that of a character. -/
  valid_iff (n : Nat) (hn : n / 64 ^ u.missing = u.bits) :
    (u.least.toNat ≤ n / 64 ^ (u.missing - 1) % 64 + 128 ∧
      n / 64 ^ (u.missing - 1) % 64 + 128 ≤ u.greatest.toNat) ↔
    n.isValidChar ∧ encodedLength n = part.length + u.missing

theorem Awaits.lead {b : UInt8} {u : Unfinished} (missing_pos : 0 < u.missing)
    (least : 128 ≤ u.least.toNat) (least_le_greatest : u.least.toNat ≤ u.greatest.toNat)
    (greatest : u.greatest.toNat ≤ 191)
    (first : ∀ n : Nat, n.isValidChar →
      (firstByte n = b.toNat ↔ encodedLength n = 1 + u.missing ∧ n / 64 ^ u.missing = u.bits))
    (valid : ∀ n : Nat, n / 64 ^ u.missing = u.bits →
      ((u.least.toNat ≤ n / 64 ^ (u.missing - 1) % 64 + 128 ∧
        n / 64 ^ (u.missing - 1) % 64 + 128 ≤ u.greatest.toNat) ↔
      n.isValidChar ∧ encodedLength n = 1 + u.missing)) : Awaits [b] u where
  ne_nil := List.cons_ne_nil b []
  missing_pos := missing_pos
  least := least
  least_le_greatest := least_le_greatest
  greatest := greatest
  isPrefix_iff c := singleton_isPrefix_iff.trans (first c.toNat c.valid)
  valid_iff := valid

/-- A byte at the start of a character is all of it, or begins one, or is a mistake. -/
inductive Lead (b : UInt8) : List (Option Char) × Option Unfinished → Prop
  | whole (c : Char) (h : String.utf8EncodeChar c = [b]) : Lead b ([some c], none)
  | begun (u : Unfinished) (h : Awaits [b] u) : Lead b ([], some u)
  | stray (h : ¬Begins [b]) : Lead b ([none], none)

theorem encoded_ofNat {b : UInt8} (h : b.toNat < 0x80) :
    String.utf8EncodeChar (Char.ofNat b.toNat) = [b] := by
  have hn : (Char.ofNat b.toNat).val.toNat = b.toNat := toNat_ofNat (.inl (by omega))
  simp only [String.utf8EncodeChar, hn]
  rw [if_pos (by omega), UInt8.ofNat_toNat]

theorem lead_leadByte (b : UInt8) : Lead b (leadByte b) := by
  have hb := b.toNat_lt
  unfold leadByte
  dsimp only
  repeat' split
  · next hascii => exact .whole _ (encoded_ofNat hascii)
  on_goal 8 =>
    refine .stray ?_
    rintro ⟨c, hc⟩
    have hvalid : c.toNat < 0xD800 ∨ 0xDFFF < c.toNat ∧ c.toNat < 0x110000 := c.valid
    rw [singleton_isPrefix_iff, firstByte] at hc
    split_ifs at hc <;> omega
  -- what is left are the ranges of the bytes that begin a character
  all_goals
    refine .begun _ (.lead ?_ ?_ ?_ ?_ (fun n hn => ?_) (fun n hn => ?_))
    · simp
    · simp
    · simp
    · simp
    · simp only [firstByte, encodedLength]
      split_ifs <;> omega
    · simp only [encodedLength, UInt8.reduceToNat, Nat.reduceSub, Nat.reducePow] at hn ⊢
      split_ifs <;> omega

section Awaited

variable {part : List UInt8} {u : Unfinished} {b : UInt8}

theorem Awaits.div_pow (h : Awaits part u) (n : Nat) :
    n / 64 ^ u.missing = n / 64 ^ (u.missing - 1) / 64 := by
  rw [Nat.div_div_eq_div_mul, ← Nat.pow_succ, Nat.succ_eq_add_one, Nat.sub_add_cancel h.missing_pos]

/-- The byte with which a character goes on. -/
theorem Awaits.getElem?_encoded (h : Awaits part u) {c : Char}
    (hlength : encodedLength c.toNat = part.length + u.missing) :
    (String.utf8EncodeChar c)[part.length]? =
      some (UInt8.ofNat (c.toNat / 64 ^ (u.missing - 1) % 64 + 128)) :=
  Text.getElem?_encoded (List.length_pos_iff.2 h.ne_nil) h.missing_pos hlength

/-- The number of a character that goes on with a byte in the awaited range. -/
theorem Awaits.digit (h : Awaits part u) (hleast : u.least ≤ b) (hgreatest : b ≤ u.greatest)
    {n : Nat} (hn : n / 64 ^ (u.missing - 1) = u.bits * 64 + (b.toNat - 128)) :
    n / 64 ^ u.missing = u.bits ∧ n / 64 ^ (u.missing - 1) % 64 + 128 = b.toNat ∧
      n.isValidChar ∧ encodedLength n = part.length + u.missing := by
  have hle := h.least
  have hge := h.greatest
  rw [UInt8.le_iff_toNat_le] at hleast hgreatest
  have hbits : n / 64 ^ u.missing = u.bits := by
    rw [h.div_pow, hn]
    omega
  have hdigit : n / 64 ^ (u.missing - 1) % 64 + 128 = b.toNat := by
    rw [hn]
    omega
  refine ⟨hbits, hdigit, (h.valid_iff n hbits).1 ?_⟩
  rw [hdigit]
  exact ⟨hleast, hgreatest⟩

/-- Which characters go on with a byte in the awaited range. -/
theorem Awaits.snoc_isPrefix_iff (h : Awaits part u) (hleast : u.least ≤ b)
    (hgreatest : b ≤ u.greatest) (c : Char) : part ++ [b] <+: String.utf8EncodeChar c ↔
      encodedLength c.toNat = part.length + u.missing ∧
        c.toNat / 64 ^ (u.missing - 1) = u.bits * 64 + (b.toNat - 128) := by
  rw [Text.snoc_isPrefix_iff, h.isPrefix_iff]
  constructor
  · rintro ⟨⟨hlength, hbits⟩, hb⟩
    rw [h.getElem?_encoded hlength, Option.some.injEq] at hb
    have hbyte := congrArg UInt8.toNat hb
    rw [UInt8.toNat_ofNat'] at hbyte
    rw [h.div_pow] at hbits
    exact ⟨hlength, by omega⟩
  · rintro ⟨hlength, hn⟩
    obtain ⟨hbits, hdigit, -⟩ := h.digit hleast hgreatest hn
    refine ⟨⟨hlength, hbits⟩, ?_⟩
    rw [h.getElem?_encoded hlength, hdigit, UInt8.ofNat_toNat]

/-- A byte in the awaited range that does not finish the character. -/
theorem Awaits.next (h : Awaits part u) (hleast : u.least ≤ b) (hgreatest : b ≤ u.greatest)
    (hmissing : u.missing ≠ 1) :
    Awaits (part ++ [b]) ⟨u.missing - 1, u.bits * 64 + (b.toNat - 0x80), 0x80, 0xBF⟩ := by
  have hpos := h.missing_pos
  have hlength : (part ++ [b]).length + (u.missing - 1) = part.length + u.missing := by
    rw [List.length_append, List.length_singleton]
    omega
  refine ⟨by simp, by dsimp only; omega, by simp, by simp, by simp, fun c => ?_, fun n hn => ?_⟩
  · rw [h.snoc_isPrefix_iff hleast hgreatest, hlength]
  · rw [hlength]
    obtain ⟨-, -, hvalid, hn⟩ := h.digit hleast hgreatest hn
    refine ⟨fun _ => ⟨hvalid, hn⟩, fun _ => ?_⟩
    simp only [UInt8.reduceToNat]
    omega

/-- A byte in the awaited range that finishes the character. -/
theorem Awaits.finish (h : Awaits part u) (hleast : u.least ≤ b) (hgreatest : b ≤ u.greatest)
    (hmissing : u.missing = 1) :
    String.utf8EncodeChar (Char.ofNat (u.bits * 64 + (b.toNat - 0x80))) = part ++ [b] := by
  have hn : (u.bits * 64 + (b.toNat - 0x80)) / 64 ^ (u.missing - 1) =
      u.bits * 64 + (b.toNat - 128) := by
    rw [hmissing]
    simp
  obtain ⟨-, -, hvalid, hlength⟩ := h.digit hleast hgreatest hn
  have hc := toNat_ofNat hvalid
  have hfront : part ++ [b] <+:
      String.utf8EncodeChar (Char.ofNat (u.bits * 64 + (b.toNat - 0x80))) := by
    rw [h.snoc_isPrefix_iff hleast hgreatest, hc]
    exact ⟨hlength, hn⟩
  refine (hfront.eq_of_length ?_).symm
  rw [length_encoded, hc, hlength, List.length_append, List.length_singleton, hmissing]

/-- No character goes on with a byte outside of the awaited range. -/
theorem Awaits.stop (h : Awaits part u) (hb : ¬(u.least ≤ b ∧ b ≤ u.greatest)) :
    ¬Begins (part ++ [b]) := by
  rintro ⟨c, hc⟩
  rw [Text.snoc_isPrefix_iff, h.isPrefix_iff] at hc
  obtain ⟨⟨hlength, hbits⟩, hbyte⟩ := hc
  rw [h.getElem?_encoded hlength, Option.some.injEq] at hbyte
  have hrange := (h.valid_iff _ hbits).2 ⟨c.valid, hlength⟩
  have hnat := congrArg UInt8.toNat hbyte
  rw [UInt8.toNat_ofNat'] at hnat
  rw [UInt8.le_iff_toNat_le, UInt8.le_iff_toNat_le] at hb
  omega

/-- Some character goes on with any byte in the awaited range. -/
theorem Awaits.begins_snoc (h : Awaits part u) (hleast : u.least ≤ b) (hgreatest : b ≤ u.greatest) :
    Begins (part ++ [b]) := by
  have hn : (u.bits * 64 + (b.toNat - 128)) * 64 ^ (u.missing - 1) / 64 ^ (u.missing - 1) =
      u.bits * 64 + (b.toNat - 128) :=
    Nat.mul_div_cancel _ (Nat.pow_pos (by decide))
  obtain ⟨-, -, hvalid, hlength⟩ := h.digit hleast hgreatest hn
  refine ⟨Char.ofNat ((u.bits * 64 + (b.toNat - 128)) * 64 ^ (u.missing - 1)), ?_⟩
  rw [h.snoc_isPrefix_iff hleast hgreatest, toNat_ofNat hvalid]
  exact ⟨hlength, hn⟩

theorem Awaits.begins (h : Awaits part u) : Begins part :=
  (h.begins_snoc (UInt8.le_refl _) (UInt8.le_iff_toNat_le.2 h.least_le_greatest)).of_isPrefix
    (List.prefix_append _ _)

theorem Awaits.unfinished (h : Awaits part u) (c : Char) : part ≠ String.utf8EncodeChar c := by
  rintro rfl
  obtain ⟨hlength, -⟩ := (h.isPrefix_iff c).1 List.prefix_rfl
  have hpos := h.missing_pos
  rw [length_encoded] at hlength
  omega

end Awaited

/-! ## Characters and mistakes -/

/-- A mistake at the beginning of bytes: the longest part that begins a character, but is none, or
one byte where no character begins. -/
structure Mistake (part rest : List UInt8) : Prop where
  ne_nil : part ≠ []
  begins : part.length = 1 ∨ Begins part
  unfinished : ∀ c, part ≠ String.utf8EncodeChar c
  longest : ∀ b ∈ rest.head?, ¬Begins (part ++ [b])

/-- Bytes as a row of encoded characters and mistakes; a mistake is no character. -/
inductive Decodes : List UInt8 → List (Option Char) → Prop
  | nil : Decodes [] []
  | char (c : Char) {bytes : List UInt8} {letters : List (Option Char)}
    (hrest : Decodes bytes letters) : Decodes (String.utf8EncodeChar c ++ bytes) (some c :: letters)
  | mistake {part bytes : List UInt8} {letters : List (Option Char)} (hpart : Mistake part bytes)
    (hrest : Decodes bytes letters) : Decodes (part ++ bytes) (none :: letters)

theorem Mistake.stray {b : UInt8} {rest : List UInt8} (h : ¬Begins [b]) : Mistake [b] rest where
  ne_nil := List.cons_ne_nil b []
  begins := .inl rfl
  unfinished c hc := h ⟨c, hc ▸ List.prefix_rfl⟩
  longest _ _ hbegins := h (hbegins.of_isPrefix (List.prefix_append _ _))

theorem Awaits.mistake {part rest : List UInt8} {u : Unfinished} (h : Awaits part u)
    (hrest : ∀ b ∈ rest.head?, ¬(u.least ≤ b ∧ b ≤ u.greatest)) : Mistake part rest where
  ne_nil := h.ne_nil
  begins := .inr h.begins
  unfinished := h.unfinished
  longest b hb := h.stop (hrest b hb)

/-- Behind the part that was read of a character, the decoder finds characters and mistakes. -/
theorem decodes_lettersFrom (bytes : List UInt8) :
    Decodes bytes (lettersFrom none bytes) ∧ ∀ part u, Awaits part u →
      Decodes (part ++ bytes) (lettersFrom (some u) bytes) := by
  induction bytes with
  | nil => exact ⟨.nil, fun part u h => .mistake (h.mistake nofun) .nil⟩
  | cons b bytes ih =>
    obtain ⟨hnone, hsome⟩ := ih
    have hlead : Decodes (b :: bytes) (lettersFrom none (b :: bytes)) := by
      rw [lettersFrom, nextByte]
      have hcases := lead_leadByte b
      generalize leadByte b = lead at hcases ⊢
      cases hcases with
      | whole c hc =>
        have h := Decodes.char c hnone
        rwa [hc] at h
      | begun u hu => exact hsome [b] u hu
      | stray hstray => exact .mistake (.stray hstray) hnone
    refine ⟨hlead, fun part u h => ?_⟩
    by_cases hb : u.least ≤ b ∧ b ≤ u.greatest
    · rw [lettersFrom, nextByte, if_pos hb, List.append_cons]
      by_cases hmissing : u.missing = 1
      · rw [if_pos hmissing, ← h.finish hb.1 hb.2 hmissing]
        exact .char _ hnone
      · rw [if_neg hmissing]
        exact hsome _ _ (h.next hb.1 hb.2 hmissing)
    -- the byte that breaks the part off is read again, as the start of a character
    · have hletters :
          lettersFrom (some u) (b :: bytes) = none :: lettersFrom none (b :: bytes) := by
        rw [lettersFrom, nextByte, if_neg hb, lettersFrom, nextByte]
        rfl
      rw [hletters]
      refine .mistake (h.mistake ?_) hlead
      rintro _ ⟨⟩
      exact hb

/-! ## One row only -/

theorem encoded_append_inj {c d : Char} {bytes others : List UInt8}
    (h : String.utf8EncodeChar c ++ bytes = String.utf8EncodeChar d ++ others) :
    c = d ∧ bytes = others := by
  have hletters := congrArg (lettersFrom none) h
  rw [lettersFrom_encoded, lettersFrom_encoded, List.cons.injEq, Option.some.injEq] at hletters
  obtain ⟨rfl, -⟩ := hletters
  exact ⟨rfl, List.append_cancel_left h⟩

/-- Nothing that is longer than the mistake begins a character. -/
theorem Mistake.eq_of_isPrefix {part rest whole others : List UInt8} (h : Mistake part rest)
    (happend : part ++ rest = whole ++ others) (hfront : part <+: whole)
    (hwhole : whole.length = 1 ∨ Begins whole) : part = whole := by
  obtain ⟨more, rfl⟩ := hfront
  cases more with
  | nil => rw [List.append_nil]
  | cons b more =>
    rw [List.append_assoc, List.append_cancel_left_eq] at happend
    have hpos : 0 < part.length := List.length_pos_iff.2 h.ne_nil
    rcases hwhole with hlength | hbegins
    · rw [List.length_append, List.length_cons] at hlength
      omega
    · exact absurd (hbegins.of_isPrefix ⟨more, by simp⟩) (h.longest b (by rw [happend]; rfl))

theorem Mistake.unique {part rest other others : List UInt8} (h : Mistake part rest)
    (hother : Mistake other others) (happend : part ++ rest = other ++ others) :
    part = other ∧ rest = others := by
  have hpart : part = other := by
    rcases List.prefix_or_prefix_of_prefix (List.prefix_append part rest)
      (happend ▸ List.prefix_append other others) with hfront | hfront
    · exact h.eq_of_isPrefix happend hfront hother.begins
    · exact (hother.eq_of_isPrefix happend.symm hfront h.begins).symm
  subst hpart
  exact ⟨rfl, List.append_cancel_left happend⟩

theorem Mistake.ne_encoded {part rest others : List UInt8} (h : Mistake part rest) (c : Char) :
    part ++ rest ≠ String.utf8EncodeChar c ++ others := by
  intro happend
  rcases List.prefix_or_prefix_of_prefix (List.prefix_append part rest)
    (happend ▸ List.prefix_append _ others) with hfront | ⟨more, rfl⟩
  · exact h.unfinished c (h.eq_of_isPrefix happend hfront (.inr ⟨c, List.prefix_rfl⟩))
  -- the character ends inside the part, which then cannot begin another one
  · have hmore : more ≠ [] := by
      rintro rfl
      exact h.unfinished c (List.append_nil _)
    rcases h.begins with hlength | ⟨d, rest, hd⟩
    · have hpos : 0 < (String.utf8EncodeChar c).length :=
        List.length_pos_iff.2 String.utf8EncodeChar_ne_nil
      have hmorepos : 0 < more.length := List.length_pos_iff.2 hmore
      rw [List.length_append] at hlength
      omega
    · have hsame : String.utf8EncodeChar c ++ (more ++ rest) = String.utf8EncodeChar d ++ [] := by
        rw [← List.append_assoc, hd, List.append_nil]
      exact hmore (List.append_eq_nil_iff.1 (encoded_append_inj hsame).2).1

theorem Decodes.unique {bytes : List UInt8} {letters others : List (Option Char)}
    (h : Decodes bytes letters) (hothers : Decodes bytes others) : letters = others := by
  induction h generalizing others with
  | nil =>
    generalize hbytes : ([] : List UInt8) = bytes at hothers
    cases hothers with
    | nil => rfl
    | char c => exact absurd (List.append_eq_nil_iff.1 hbytes.symm).1 String.utf8EncodeChar_ne_nil
    | mistake hpart => exact absurd (List.append_eq_nil_iff.1 hbytes.symm).1 hpart.ne_nil
  | @char c rest letters hrest ih =>
    generalize hbytes : String.utf8EncodeChar c ++ rest = bytes at hothers
    cases hothers with
    | nil => exact absurd (List.append_eq_nil_iff.1 hbytes).1 String.utf8EncodeChar_ne_nil
    | char d hrest' =>
      obtain ⟨rfl, rfl⟩ := encoded_append_inj hbytes
      rw [ih hrest']
    | mistake hpart => exact absurd hbytes.symm (hpart.ne_encoded c)
  | @mistake part rest letters hpart hrest ih =>
    generalize hbytes : part ++ rest = bytes at hothers
    cases hothers with
    | nil => exact absurd (List.append_eq_nil_iff.1 hbytes).1 hpart.ne_nil
    | char d => exact absurd hbytes (hpart.ne_encoded d)
    | mistake hpart' hrest' =>
      obtain ⟨rfl, rfl⟩ := hpart.unique hpart' hbytes
      rw [ih hrest']

/-- The decoder finds the row of characters and mistakes, of which there is one only. -/
theorem lettersFrom_eq_iff {bytes : List UInt8} {letters : List (Option Char)} :
    lettersFrom none bytes = letters ↔ Decodes bytes letters :=
  ⟨fun h => h ▸ (decodes_lettersFrom bytes).1, (decodes_lettersFrom bytes).1.unique⟩

/-- A text shows its bytes, with U+FFFD for each mistake. -/
def Reads (bytes : List UInt8) (text : String) : Prop :=
  ∃ letters, Decodes bytes letters ∧ text.toList = letters.map (·.getD '\uFFFD')

theorem lossy_eq_iff {bytes : List UInt8} {text : String} :
    lossy bytes = text ↔ Reads bytes text := by
  rw [lossy, ← String.toList_inj, String.toList_ofList]
  constructor
  · intro h
    exact ⟨_, lettersFrom_eq_iff.1 rfl, h.symm⟩
  · rintro ⟨letters, hletters, htext⟩
    rw [htext, lettersFrom_eq_iff.2 hletters]
    rfl

/-! ## Behind the bytes -/

/-- What stands behind a mistake can change, when no character goes on there. -/
theorem Mistake.snoc {part rest : List UInt8} {b : UInt8} (h : Mistake part rest)
    (hb : b.toNat < 128) : Mistake part (rest ++ [b]) := by
  refine { h with longest := fun a ha hbegins => ?_ }
  cases rest with
  | nil =>
    cases ha
    obtain ⟨c, hc⟩ := hbegins
    exact absurd (range_of_isPrefix h.ne_nil hc).1 (by omega)
  | cons d rest => exact h.longest a ha hbegins

/-- A character of one byte stands for itself behind any bytes. -/
theorem Decodes.snoc {bytes : List UInt8} {letters : List (Option Char)} {b : UInt8} {c : Char}
    (h : Decodes bytes letters) (hc : String.utf8EncodeChar c = [b]) (hb : b.toNat < 128) :
    Decodes (bytes ++ [b]) (letters ++ [some c]) := by
  induction h with
  | nil =>
    have hwhole := Decodes.char c .nil
    rwa [hc] at hwhole
  | char d hrest ih =>
    rw [List.append_assoc]
    exact .char d ih
  | mistake hpart hrest ih =>
    rw [List.append_assoc]
    exact .mistake (hpart.snoc hb) ih

theorem toList_lossy_snoc {bytes : List UInt8} {b : UInt8} {c : Char}
    (hc : String.utf8EncodeChar c = [b]) (hb : b.toNat < 128) :
    (lossy (bytes ++ [b])).toList = (lossy bytes).toList ++ [c] := by
  have hletters : Decodes bytes (lettersFrom none bytes) := lettersFrom_eq_iff.1 rfl
  rw [lossy, lossy, lettersFrom_eq_iff.2 (hletters.snoc hc hb), List.map_append]
  simp

end ClusterLedger.Text
