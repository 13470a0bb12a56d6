import ClusterLedger.Proofs.Json.RoundTrip

/-!
# Spellings

A text spells tokens when it consists of them, each in one of its spellings, with any white space
around them. What a text spells, the scanner finds.
-/
namespace ClusterLedger.Json

/-! ## Strings -/

/-- The code unit that hexadecimal digits spell. -/
def hex? (digits : List Char) : Option Nat :=
  digits.foldlM (fun bits c => (hexDigit? c).map (bits * 16 + ·)) 0

/-- A code unit as an escape with four digits. -/
inductive SpellsUnit (unit : Nat) : List Char → Prop
  | intro {digits : List Char} (hex : hex? digits = some unit) (four : digits.length = 4) :
    SpellsUnit unit (['\\', 'u'] ++ digits)

/-- One character of a string: as it is, behind a backslash, as a code unit, or as two halves. -/
inductive SpellsChar : Char → List Char → Prop
  | plain {c : Char} (quote : c ≠ '"') (backslash : c ≠ '\\') (control : 0x20 ≤ c.toNat) :
    SpellsChar c [c]
  | short {c e : Char} (escape : simpleEscape? e = some c) : SpellsChar c ['\\', e]
  | unit {n : Nat} {cs : List Char} (spells : SpellsUnit n cs) (whole : n < 0xD800 ∨ 0xE000 ≤ n) :
    SpellsChar (Char.ofNat n) cs
  | pair {high low : Nat} {cs ds : List Char} (spellsHigh : SpellsUnit high cs)
    (spellsLow : SpellsUnit low ds) (first : 0xD800 ≤ high ∧ high < 0xDC00)
    (second : 0xDC00 ≤ low ∧ low < 0xE000) :
    SpellsChar (Char.ofNat (0x10000 + (high - 0xD800) * 0x400 + (low - 0xDC00))) (cs ++ ds)

/-- What stands between the quotes of a string. -/
inductive SpellsText : List Char → List Char → Prop
  | nil : SpellsText [] []
  | cons {c : Char} {text cs ds : List Char} (char : SpellsChar c cs) (rest : SpellsText text ds) :
    SpellsText (c :: text) (cs ++ ds)

/-! ## Tokens -/

/-- A text that consists of the tokens and white space. A word goes on until something ends it. -/
inductive Spells : List Token → List Char → Prop
  | nil : Spells [] []
  | space {c : Char} {ts : List Token} {cs : List Char} (hc : isSpace c = true)
    (rest : Spells ts cs) : Spells ts (c :: cs)
  | mark {c : Char} {t : Token} {ts : List Token} {cs : List Char} (hc : punctuation? c = some t)
    (rest : Spells ts cs) : Spells (t :: ts) (c :: cs)
  | word {word : List Char} {t : Token} {ts : List Token} {cs : List Char}
    (spells : Token.ofWord? word = some t) (ends : ∀ c ∈ cs.head?, endsWord c = true)
    (rest : Spells ts cs) : Spells (t :: ts) (word ++ cs)
  | string {s : String} {ts : List Token} {body cs : List Char} (text : SpellsText s.toList body)
    (rest : Spells ts cs) : Spells (.string (some s) :: ts) ('"' :: (body ++ '"' :: cs))

/-! ## Written strings -/

theorem spells_control {c : Char} (h : c.toNat < 0x20) :
    SpellsChar c (['\\', 'u', '0', '0'] ++ hexPair c.toNat) := by
  have hzero : hexDigit? '0' = some 0 := rfl
  have hhex : hex? (['0', '0'] ++ hexPair c.toNat) = some c.toNat := by
    have hhigh := Scanner.hexDigit?_digitChar (n := c.toNat / 16 % 16) (by omega)
    have hlow := Scanner.hexDigit?_digitChar (n := c.toNat % 16) (by omega)
    simp only [hex?, hexPair, List.cons_append, List.nil_append, List.foldlM_cons, List.foldlM_nil,
      hzero, hhigh, hlow, Option.map_some, Option.bind_eq_bind, Option.bind_some, Option.pure_def,
      Option.some.injEq]
    omega
  have hchar := SpellsChar.unit (SpellsUnit.intro hhex rfl) (.inl (by omega))
  rwa [Char.ofNat_toNat] at hchar

theorem spells_escapeChar (c : Char) : SpellsChar c (escapeChar c) := by
  rw [escapeChar]
  split
  · next h => subst h; exact .short rfl
  split
  · next h => subst h; exact .short rfl
  split
  · next h => subst h; exact .short rfl
  split
  · next h => subst h; exact .short rfl
  split
  · next h => subst h; exact .short rfl
  split
  · next h => subst h; exact .short rfl
  split
  · next h => subst h; exact .short rfl
  split
  · next h => exact spells_control h
  · next hquote hbackslash _ _ _ _ _ hcontrol => exact .plain hquote hbackslash (by omega)

theorem spells_escaped (cs : List Char) : SpellsText cs (cs.flatMap escapeChar) := by
  induction cs with
  | nil => exact .nil
  | cons c cs ih => exact .cons (spells_escapeChar c) ih

/-- A string as it is written spells its token. -/
theorem spells_quoted {ts : List Token} {cs : List Char} (s : String) (h : Spells ts cs) :
    Spells (.string (some s) :: ts) (quoted s ++ cs) := by
  rw [quoted, List.cons_append, List.append_assoc]
  exact .string (spells_escaped s.toList) h

/-- A string is written on one line. -/
theorem newline_not_mem_quoted (s : String) : '\n' ∉ quoted s := by
  have hdigit (n : Nat) : '\n' ≠ Nat.digitChar (n % 16) := by
    have hall : ∀ m : Fin 16, '\n' ≠ Nat.digitChar m.val := by decide
    exact hall ⟨n % 16, Nat.mod_lt n (by decide)⟩
  have hchar (c : Char) : '\n' ∉ escapeChar c := by
    rw [escapeChar]
    repeat' split
    all_goals simp_all [hexPair, eq_comm]
  simp only [quoted, List.mem_cons, List.mem_append, List.mem_flatMap, not_or, not_exists, not_and]
  exact ⟨by decide, fun c _ => hchar c, by decide⟩

/-! ## Scanning a spelling -/

namespace Scanner

variable {s : Scanner} {ts us : List Token} {cs seen : List Char} {high : Option Nat} {unit : Nat}

theorem scan_hex {digits : List Char} {bits : Nat} (hne : digits ≠ [])
    (h : digits.foldlM (fun bits c => (hexDigit? c).map (bits * 16 + ·)) bits = some unit) :
    scan ⟨.string (some seen) (.unit high digits.length bits), ts⟩ digits =
      some ⟨codeUnit (some seen) high unit, ts⟩ := by
  induction digits generalizing bits with
  | nil => exact absurd rfl hne
  | cons c digits ih =>
    obtain ⟨next, hnext, hrest⟩ := Option.bind_eq_some_iff.1 h
    obtain ⟨n, hn, rfl⟩ := Option.map_eq_some_iff.1 hnext
    rw [scan_cons, step_hexDigit hn, Option.bind_some, List.length_cons, Nat.add_sub_cancel]
    cases digits with
    | nil =>
      cases hrest
      rfl
    | cons d digits =>
      rw [if_neg (by simp)]
      exact ih nofun hrest

/-- A code unit by itself, or the second half of a pair. -/
theorem scan_unit {escape : Escape} (h : SpellsUnit unit cs)
    (hopen : scan ⟨.string (some seen) escape, ts⟩ ['\\', 'u'] =
      some ⟨.string (some seen) (.unit high 4 0), ts⟩) :
    scan ⟨.string (some seen) escape, ts⟩ cs = some ⟨codeUnit (some seen) high unit, ts⟩ := by
  obtain @⟨digits, hex, four⟩ := h
  have hdigits : scan ⟨.string (some seen) (.unit high 4 0), ts⟩ digits =
      some ⟨codeUnit (some seen) high unit, ts⟩ := by
    rw [← four]
    exact scan_hex (List.ne_nil_of_length_eq_add_one four) hex
  rw [scan_append, hopen, Option.bind_some, hdigits]

theorem scan_char {c : Char} (h : SpellsChar c cs) :
    scan ⟨.string (some seen) .none, ts⟩ cs = some ⟨.string (some (c :: seen)) .none, ts⟩ := by
  cases h with
  | plain quote backslash control =>
    have hquote : (some c = some '"') ↔ False := by simp [quote]
    simp [scan, step?, unpaired, stringStep?, quote, backslash, control, nextChar]
  | @short c e escape =>
    have hu : e ≠ 'u' := by
      rintro rfl
      cases escape
    simp [scan, step?, unpaired, stringStep?, hu, escape, nextChar]
  | unit spells whole =>
    rw [scan_unit spells rfl, codeUnit, if_neg (by omega), if_neg (by omega)]
    rfl
  | pair spellsHigh spellsLow first second =>
    rw [scan_append, scan_unit spellsHigh rfl, codeUnit, if_pos first, Option.bind_some,
      scan_unit spellsLow rfl, codeUnit, if_pos second]
    rfl

theorem scan_text {text : List Char} (h : SpellsText text cs) :
    scan ⟨.string (some seen) .none, ts⟩ cs =
      some ⟨.string (some (text.reverse ++ seen)) .none, ts⟩ := by
  induction h generalizing seen with
  | nil => rfl
  | cons char rest ih =>
    rw [scan_append, scan_char char, Option.bind_some, ih, List.reverse_cons, List.append_assoc]
    rfl

theorem outsideStep_mark {c : Char} {t : Token} (hc : punctuation? c = some t) :
    outsideStep ts c = ⟨.between, t :: ts⟩ := by
  unfold punctuation? at hc
  split at hc <;> cases hc <;> rfl

/-- A word cannot follow another one, so it starts between tokens. -/
theorem Settled.between_of_word {word : List Char} {t : Token} (hs : s.Settled ts)
    (hword : Token.ofWord? word = some t)
    (hstart : s.mode = .between ∨ ∀ c ∈ (word ++ cs).head?, endsWord c = true) :
    s = ⟨.between, ts⟩ := by
  cases hs with
  | between => rfl
  | word ts spells =>
    obtain ⟨hne, hall⟩ := Token.of_ofWord? hword
    obtain ⟨c, rest, rfl⟩ := List.exists_cons_of_ne_nil hne
    have hends : endsWord c = true := hstart.resolve_left nofun c rfl
    rw [hall c List.mem_cons_self] at hends
    cases hends

/-- Spelled tokens are found behind settled ones, a word only where no other word is still read. -/
theorem reaches_spells (h : Spells us cs) (hs : s.Settled ts)
    (hstart : s.mode = .between ∨ ∀ c ∈ cs.head?, endsWord c = true) :
    s.Reaches cs (us.reverse ++ ts) := by
  induction h generalizing s ts with
  | nil => exact hs.reaches_nil
  | @space c us cs hc rest ih =>
    refine hs.reaches_cons (by simp [endsWord, hc]) ?_
    rw [outsideStep, if_pos hc]
    exact ih (.between ts) (.inl rfl)
  | @mark c t us cs hc rest ih =>
    refine hs.reaches_cons (by simp [endsWord, hc]) ?_
    rw [outsideStep_mark hc, List.reverse_cons, List.append_assoc]
    exact ih (.between _) (.inl rfl)
  | @word word t us cs spells ends rest ih =>
    rw [List.reverse_cons, List.append_assoc, hs.between_of_word spells hstart]
    exact (reaches_word spells).append fun s' hs' => ih hs' (.inr ends)
  | @string text us body cs spells rest ih =>
    obtain ⟨s', hs', hsettled⟩ := ih (.between (.string (some text) :: ts)) (.inl rfl)
    refine hs.reaches_cons rfl ⟨s', ?_, by simpa using hsettled⟩
    have hopen : outsideStep ts '"' = ⟨.string (some []) .none, ts⟩ := rfl
    have hclose : step? ⟨.string (some (text.toList.reverse ++ [])) .none, ts⟩ (some '"') =
        some ⟨.between, .string (some text) :: ts⟩ := by
      simp [step?, unpaired, String.ofList_toList]
    rw [hopen, scan_append, scan_text spells, Option.bind_some, scan_cons, hclose]
    exact hs'

end Scanner

theorem tokens?_of_spells {ts : List Token} {cs : List Char} (h : Spells ts cs) :
    tokens? cs = some ts := by
  obtain ⟨s, hs, hsettled⟩ := Scanner.reaches_spells h (.between []) (.inl rfl)
  have hrun : Scanner.run? (cs.map some) = some s := hs
  rw [tokens?, hrun, Option.bind_some, hsettled.finish]
  simp

end ClusterLedger.Json
