import ClusterLedger.Proofs.Json.Words

/-!
# Numerals

A number is written with digits that do not begin with a useless zero, then a fraction and an
exponent, each of which may be missing, and a sign in front or none. The scanner takes exactly such
words for numbers.
-/
namespace ClusterLedger.Json

/-- At least one digit, and nothing else. -/
def IsDigits (cs : List Char) : Prop :=
  cs ≠ [] ∧ ∀ c ∈ cs, c.isDigit = true

/-- The digits in front of the point: zero, or digits that begin with another one. -/
def IsWhole (cs : List Char) : Prop :=
  IsDigits cs ∧ (cs.head? = some '0' → cs = ['0'])

/-- The digits of a fraction, which may be missing. -/
inductive SpellsFraction : List Char → List Char → Prop
  | absent : SpellsFraction [] []
  | point {decimals : List Char} (digits : IsDigits decimals) :
    SpellsFraction decimals ('.' :: decimals)

/-- The value of an exponent, which may be missing. -/
inductive SpellsExponent : Int → List Char → Prop
  | absent : SpellsExponent 0 []
  | plain {mark : Char} {cs : List Char} (hmark : mark = 'e' ∨ mark = 'E') (digits : IsDigits cs) :
    SpellsExponent (Text.digitsValue 0 cs) (mark :: cs)
  | plus {mark : Char} {cs : List Char} (hmark : mark = 'e' ∨ mark = 'E') (digits : IsDigits cs) :
    SpellsExponent (Text.digitsValue 0 cs) (mark :: '+' :: cs)
  | minus {mark : Char} {cs : List Char} (hmark : mark = 'e' ∨ mark = 'E') (digits : IsDigits cs) :
    SpellsExponent (-(Text.digitsValue 0 cs : Int)) (mark :: '-' :: cs)

/-- A numeral in its parts. It is an integer where nothing stands behind the first digits. -/
inductive Numeral.Spells : Numeral → List Char → Prop
  | intro {negative : Bool} {whole decimals fraction power : List Char} {exponent : Int}
    (hwhole : IsWhole whole) (hfraction : SpellsFraction decimals fraction)
    (hpower : SpellsExponent exponent power) :
    Spells ⟨negative, whole, decimals, exponent, decide (fraction ++ power = [])⟩
      ((if negative then ['-'] else []) ++ (whole ++ (fraction ++ power)))

/-! ## Digits -/

theorem digits?_eq_some {cs : List Char} {n : Nat} :
    Text.digits? cs = some n ↔ IsDigits cs ∧ n = Text.digitsValue 0 cs := by
  rw [Text.digits?, IsDigits, ← List.all_eq_true]
  split
  · next h => simp [h, eq_comm]
  · next h =>
    simp only [reduceCtorEq, false_iff]
    exact fun hn => h hn.1

theorem IsDigits.of_takeWhile {cs : List Char} (h : cs.takeWhile Char.isDigit ≠ []) :
    IsDigits (cs.takeWhile Char.isDigit) :=
  ⟨h, List.all_eq_true.1 List.all_takeWhile⟩

/-- Digits end where something else follows. -/
theorem takeWhile_digits {cs rest : List Char} (hcs : ∀ c ∈ cs, c.isDigit = true)
    (hrest : ∀ c ∈ rest.head?, c.isDigit = false) :
    (cs ++ rest).takeWhile Char.isDigit = cs ∧ (cs ++ rest).dropWhile Char.isDigit = rest := by
  rw [List.takeWhile_append_of_pos hcs, List.dropWhile_append_of_pos hcs]
  cases rest with
  | nil => simp
  | cons c rest => simp [hrest c rfl]

/-! ## Fractions and exponents -/

/-- The digits of an exponent are read first, then its sign is put on them. -/
theorem signedDigits_eq_some {ds : List Char} {e : Int} (sign : Int → Int) :
    (Option.map sign do let n ← Text.digits? ds; pure (n : Int)) = some e ↔
      IsDigits ds ∧ e = sign (Text.digitsValue 0 ds) := by
  cases hd : Text.digits? ds with
  | none =>
    simp only [Option.bind_eq_bind, Option.bind_none, Option.map_none, reduceCtorEq, false_iff]
    rintro ⟨hdigits, -⟩
    rw [digits?_eq_some.2 ⟨hdigits, rfl⟩] at hd
    cases hd
  | some n =>
    obtain ⟨hdigits, rfl⟩ := digits?_eq_some.1 hd
    simp [hdigits, eq_comm]

theorem exponent?_eq_some {cs : List Char} {e : Int} :
    Text.exponent? cs = some e ↔ SpellsExponent e cs := by
  constructor
  · intro h
    unfold Text.exponent? at h
    split at h
    · cases h
      exact .absent
    split at h
    · next hmark =>
      split at h
      · obtain ⟨hdigits, rfl⟩ := (signedDigits_eq_some _).1 h
        exact .minus hmark hdigits
      · obtain ⟨hdigits, rfl⟩ := (signedDigits_eq_some _).1 h
        exact .plus hmark hdigits
      · obtain ⟨hdigits, rfl⟩ := (signedDigits_eq_some _).1 h
        exact .plain hmark hdigits
    · cases h
  · intro h
    cases h with
    | absent => rfl
    | plain hmark digits =>
      rw [Text.exponent?, if_pos hmark, signedDigits_eq_some]
      · exact ⟨digits, rfl⟩
      -- a sign is no digit, so the digits are read without one
      · rintro ds rfl
        exact absurd (digits.2 '-' List.mem_cons_self) (by decide)
      · rintro ds rfl
        exact absurd (digits.2 '+' List.mem_cons_self) (by decide)
    | plus hmark digits =>
      rw [Text.exponent?, if_pos hmark]
      exact (signedDigits_eq_some _).2 ⟨digits, rfl⟩
    | minus hmark digits =>
      rw [Text.exponent?, if_pos hmark]
      exact (signedDigits_eq_some _).2 ⟨digits, rfl⟩

/-- An exponent begins with its letter. -/
theorem SpellsExponent.head {cs : List Char} {e : Int} (h : SpellsExponent e cs) :
    ∀ c ∈ cs.head?, c.isDigit = false ∧ c ≠ '.' := by
  have hletter {mark : Char} (hmark : mark = 'e' ∨ mark = 'E') :
      mark.isDigit = false ∧ mark ≠ '.' := by
    rcases hmark with rfl | rfl <;> decide
  cases h with
  | absent => nofun
  | plain hmark => rintro c ⟨⟩; exact hletter hmark
  | plus hmark => rintro c ⟨⟩; exact hletter hmark
  | minus hmark => rintro c ⟨⟩; exact hletter hmark

theorem fraction?_eq_some {cs decimals tail : List Char} {e : Int}
    (hpower : SpellsExponent e tail) :
    fraction? cs = some (decimals, tail) ↔
      ∃ fraction, cs = fraction ++ tail ∧ SpellsFraction decimals fraction := by
  constructor
  · intro h
    unfold fraction? at h
    split at h
    · next rest =>
      split at h
      · cases h
      · next hne =>
        cases h
        refine ⟨'.' :: rest.takeWhile Char.isDigit, ?_, .point (.of_takeWhile hne)⟩
        rw [List.cons_append, List.takeWhile_append_dropWhile]
    · cases h
      exact ⟨[], rfl, .absent⟩
  · rintro ⟨fraction, rfl, hfraction⟩
    cases hfraction with
    | absent =>
      rw [List.nil_append, fraction?]
      rintro rest rfl
      exact (hpower.head '.' rfl).2 rfl
    | point digits =>
      obtain ⟨htake, hdrop⟩ := takeWhile_digits digits.2 fun c hc => (hpower.head c hc).1
      rw [List.cons_append, fraction?, htake, hdrop, if_neg digits.1]

/-! ## The words that are numbers -/

theorem ofUnsigned?_eq_some {negative : Bool} {cs : List Char} {n : Numeral} :
    Numeral.ofUnsigned? negative cs = some n ↔ ∃ whole decimals fraction power exponent,
      IsWhole whole ∧ SpellsFraction decimals fraction ∧ SpellsExponent exponent power ∧
        cs = whole ++ (fraction ++ power) ∧
        n = ⟨negative, whole, decimals, exponent, decide (fraction ++ power = [])⟩ := by
  constructor
  · intro h
    rw [Numeral.ofUnsigned?] at h
    dsimp only at h
    split at h
    · cases h
    next hwhole =>
    obtain ⟨hne, hzero⟩ := not_or.1 hwhole
    have hwhole : IsWhole (cs.takeWhile Char.isDigit) :=
      ⟨.of_takeWhile hne, fun hhead => Decidable.not_not.1 fun hne => hzero ⟨hhead, hne⟩⟩
    have hcs := (List.takeWhile_append_dropWhile (p := Char.isDigit) (l := cs)).symm
    split at h
    · next hrest =>
      cases h
      rw [hrest] at hcs
      exact ⟨_, [], [], [], 0, hwhole, .absent, .absent, hcs, rfl⟩
    · next hrest =>
      obtain ⟨⟨decimals, tail⟩, hf, h⟩ := Option.bind_eq_some_iff.1 h
      obtain ⟨e, he, h⟩ := Option.bind_eq_some_iff.1 h
      cases h
      have hpower := exponent?_eq_some.1 he
      obtain ⟨fraction, hsplit, hfraction⟩ := (fraction?_eq_some hpower).1 hf
      rw [hsplit] at hcs hrest
      exact ⟨_, decimals, fraction, tail, e, hwhole, hfraction, hpower, hcs, by simp [hrest]⟩
  · rintro ⟨whole, decimals, fraction, power, exponent, hwhole, hfraction, hpower, rfl, rfl⟩
    have hhead : ∀ c ∈ (fraction ++ power).head?, c.isDigit = false := by
      cases hfraction with
      | absent => exact fun c hc => (hpower.head c hc).1
      | point => rintro c ⟨⟩; rfl
    obtain ⟨htake, hdrop⟩ := takeWhile_digits hwhole.1.2 hhead
    rw [Numeral.ofUnsigned?]
    dsimp only
    rw [htake, hdrop, if_neg]
    · split
      · next hnil =>
        obtain ⟨rfl, rfl⟩ := List.append_eq_nil_iff.1 hnil
        cases hfraction
        cases hpower
        rfl
      · next hsome =>
        rw [(fraction?_eq_some hpower).2 ⟨fraction, rfl, hfraction⟩]
        simp [exponent?_eq_some.2 hpower, hsome]
    · rintro (hnil | ⟨hzero, hne⟩)
      · exact hwhole.1.1 hnil
      · exact hne (hwhole.2 hzero)

/-- The scanner takes a word for a number exactly when it is a numeral. -/
theorem Numeral.ofChars?_eq_some {cs : List Char} {n : Numeral} :
    ofChars? cs = some n ↔ n.Spells cs := by
  constructor
  · intro h
    unfold ofChars? at h
    split at h
    · obtain ⟨whole, decimals, fraction, power, exponent, hwhole, hfraction, hpower, rfl, rfl⟩ :=
        ofUnsigned?_eq_some.1 h
      exact @Spells.intro true _ _ _ _ _ hwhole hfraction hpower
    · obtain ⟨whole, decimals, fraction, power, exponent, hwhole, hfraction, hpower, rfl, rfl⟩ :=
        ofUnsigned?_eq_some.1 h
      exact @Spells.intro false _ _ _ _ _ hwhole hfraction hpower
  · rintro @⟨negative, whole, decimals, fraction, power, exponent, hwhole, hfraction, hpower⟩
    have hunsigned := (@ofUnsigned?_eq_some negative _ _).2
      ⟨whole, decimals, fraction, power, exponent, hwhole, hfraction, hpower, rfl, rfl⟩
    cases negative with
    | true => exact hunsigned
    | false =>
      rw [if_neg Bool.false_ne_true, List.nil_append, ← hunsigned]
      unfold ofChars?
      split
      · next rest hminus =>
        obtain ⟨c, ds, rfl⟩ := List.exists_cons_of_ne_nil hwhole.1.1
        cases hminus
        exact absurd (hwhole.1.2 '-' List.mem_cons_self) (by decide)
      · rfl

end ClusterLedger.Json
