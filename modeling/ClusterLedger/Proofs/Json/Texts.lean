import ClusterLedger.Proofs.Json.Grammar
import ClusterLedger.Proofs.Json.Numeral

/-!
# JSON texts

The grammar of JSON over values: an array is its items between brackets with a comma after each but
the last one, and white space may stand on both sides of every value, key and bracket. A text is read
as a value exactly when the grammar has it as a text of that value.
-/
namespace ClusterLedger.Json

/-- White space, if anything. -/
def IsGap (cs : List Char) : Prop :=
  ∀ c ∈ cs, isSpace c = true

theorem isGap_nil : IsGap [] :=
  nofun

/-- A string between its quotes. -/
inductive StringText (s : String) : List Char → Prop
  | intro {body : List Char} (text : SpellsText s.toList body) :
    StringText s ('"' :: (body ++ ['"']))

mutual
/-- A text of a value that begins and ends with the value. -/
inductive Written : Json → List Char → Prop
  | null : Written null ['n', 'u', 'l', 'l']
  | true : Written (bool true) ['t', 'r', 'u', 'e']
  | false : Written (bool false) ['f', 'a', 'l', 's', 'e']
  | number {n : Numeral} {x : Number} {cs : List Char} (spells : n.Spells cs)
    (value : n.value? = some x) : Written (number x) cs
  | string {s : String} {cs : List Char} (text : StringText s cs) : Written (string s) cs
  | emptyArray {gap : List Char} (blank : IsGap gap) : Written (array []) ('[' :: (gap ++ [']']))
  | array {v : Json} {items : List Json} {cs ds : List Char} (first : TextOf v cs)
    (others : ItemTexts items ds) : Written (array (v :: items)) ('[' :: (cs ++ (ds ++ [']'])))
  | emptyObject {gap : List Char} (blank : IsGap gap) : Written (object []) ('{' :: (gap ++ ['}']))
  | object {k : String} {v : Json} {members : List (String × Json)} {cs ds : List Char}
    (first : MemberText k v cs) (others : MemberTexts members ds) :
    Written (object ((k, v) :: members)) ('{' :: (cs ++ (ds ++ ['}'])))

/-- A text of a value, with white space around it. -/
inductive TextOf : Json → List Char → Prop
  | intro {v : Json} {left cs right : List Char} (blankLeft : IsGap left) (written : Written v cs)
    (blankRight : IsGap right) : TextOf v (left ++ (cs ++ right))

/-- The items behind the first one, each after a comma. -/
inductive ItemTexts : List Json → List Char → Prop
  | nil : ItemTexts [] []
  | cons {v : Json} {items : List Json} {cs ds : List Char} (first : TextOf v cs)
    (others : ItemTexts items ds) : ItemTexts (v :: items) (',' :: (cs ++ ds))

/-- A key and its value. -/
inductive MemberText : String → Json → List Char → Prop
  | intro {k : String} {v : Json} {left key right cs : List Char} (blankLeft : IsGap left)
    (keyText : StringText k key) (blankRight : IsGap right) (value : TextOf v cs) :
    MemberText k v (left ++ (key ++ (right ++ ':' :: cs)))

/-- The members behind the first one, each after a comma. -/
inductive MemberTexts : List (String × Json) → List Char → Prop
  | nil : MemberTexts [] []
  | cons {k : String} {v : Json} {members : List (String × Json)} {cs ds : List Char}
    (first : MemberText k v cs) (others : MemberTexts members ds) :
    MemberTexts ((k, v) :: members) (',' :: (cs ++ ds))
end

/-! ## Tokens one by one -/

/-- The text of one token. -/
inductive SpellsToken : Token → List Char → Prop
  | mark {c : Char} {t : Token} (hc : punctuation? c = some t) : SpellsToken t [c]
  | word {word : List Char} {t : Token} (spells : Token.ofWord? word = some t) : SpellsToken t word
  | string {s : String} {cs : List Char} (text : StringText s cs) :
    SpellsToken (.string (some s)) cs

/-- Tokens are spelled one behind the other. -/
theorem Spells.cons {t : Token} {ts : List Token} {cs : List Char} (h : Spells (t :: ts) cs) :
    ∃ gap body rest, cs = gap ++ (body ++ rest) ∧ IsGap gap ∧ SpellsToken t body ∧
      Spells ts rest := by
  generalize hus : t :: ts = us at h
  induction h with
  | nil => cases hus
  | @space c _ _ hc _ ih =>
    obtain ⟨gap, body, rest, rfl, hgap, hbody, hrest⟩ := ih hus
    exact ⟨c :: gap, body, rest, rfl, List.forall_mem_cons.2 ⟨hc, hgap⟩, hbody, hrest⟩
  | mark hc rest =>
    cases hus
    exact ⟨[], _, _, rfl, nofun, .mark hc, rest⟩
  | word spells _ rest =>
    cases hus
    exact ⟨[], _, _, rfl, nofun, .word spells, rest⟩
  | string text rest =>
    cases hus
    exact ⟨[], _, _, by simp, nofun, .string (.intro text), rest⟩

theorem isGap_of_spells_nil {cs : List Char} (h : Spells [] cs) : IsGap cs := by
  generalize hus : [] = us at h
  induction h with
  | nil => nofun
  | space hc _ ih => exact List.forall_mem_cons.2 ⟨hc, ih hus⟩
  | _ => cases hus

theorem punctuation?_inj {c d : Char} {t : Token} (hc : punctuation? c = some t)
    (hd : punctuation? d = some t) : c = d := by
  unfold punctuation? at hc hd
  split at hc <;> cases hc <;> split at hd <;> first | rfl | cases hd

/-- A word is a literal or a number. -/
theorem Token.ofWord?_cases {word : List Char} {t : Token} (h : ofWord? word = some t) :
    (word = ['n', 'u', 'l', 'l'] ∧ t = .null) ∨ (word = ['t', 'r', 'u', 'e'] ∧ t = .bool true) ∨
      (word = ['f', 'a', 'l', 's', 'e'] ∧ t = .bool false) ∨
        ∃ n : Numeral, n.Spells word ∧ t = .number n.value? := by
  rw [ofWord?] at h
  split at h
  · next hw => exact .inl ⟨hw, (Option.some.inj h).symm⟩
  split at h
  · next hw => exact .inr (.inl ⟨hw, (Option.some.inj h).symm⟩)
  split at h
  · next hw => exact .inr (.inr (.inl ⟨hw, (Option.some.inj h).symm⟩))
  · obtain ⟨n, hn, rfl⟩ := Option.map_eq_some_iff.1 h
    exact .inr (.inr (.inr ⟨n, Numeral.ofChars?_eq_some.1 hn, rfl⟩))

theorem Token.ofWord?_of_spells {word : List Char} {n : Numeral} (h : n.Spells word) :
    ofWord? word = some (.number n.value?) := by
  have hn := Numeral.ofChars?_eq_some.2 h
  have hall := (Numeral.of_ofChars? hn).2
  rw [ofWord?, if_neg, if_neg, if_neg, hn]
  · rfl
  all_goals
    rintro rfl
    exact absurd (hall _ List.mem_cons_self) (by decide)

/-- The tokens whose texts are words. -/
def Token.IsWord : Token → Prop
  | .null | .bool _ | .number _ => True
  | _ => False

theorem not_isWord_of_punctuation? {c : Char} {t : Token} (hc : punctuation? c = some t) :
    ¬ t.IsWord ∧ ∀ s, t ≠ .string s := by
  unfold punctuation? at hc
  split at hc <;> cases hc <;> exact ⟨id, nofun⟩

theorem isWord_of_ofWord? {word : List Char} {t : Token} (h : Token.ofWord? word = some t) :
    t.IsWord := by
  rcases Token.ofWord?_cases h with ⟨-, rfl⟩ | ⟨-, rfl⟩ | ⟨-, rfl⟩ | ⟨n, -, rfl⟩ <;> trivial

theorem SpellsToken.eq_mark {t : Token} {body : List Char} {c : Char} (h : SpellsToken t body)
    (hc : punctuation? c = some t) : body = [c] := by
  obtain ⟨hword, hstring⟩ := not_isWord_of_punctuation? hc
  cases h with
  | mark hd => rw [punctuation?_inj hd hc]
  | word spells => exact absurd (isWord_of_ofWord? spells) hword
  | string text => exact absurd rfl (hstring _)

theorem SpellsToken.ofWord? {t : Token} {body : List Char} (h : SpellsToken t body)
    (ht : t.IsWord) : Token.ofWord? body = some t := by
  cases h with
  | mark hc => exact absurd ht (not_isWord_of_punctuation? hc).1
  | word spells => exact spells
  | string text => exact ht.elim

theorem SpellsToken.null {body : List Char} (h : SpellsToken .null body) : Written .null body := by
  rcases Token.ofWord?_cases (h.ofWord? trivial) with ⟨rfl, -⟩ | ⟨-, ht⟩ | ⟨-, ht⟩ | ⟨n, -, ht⟩
  · exact .null
  all_goals cases ht

theorem SpellsToken.bool {b : Bool} {body : List Char} (h : SpellsToken (.bool b) body) :
    Written (.bool b) body := by
  rcases Token.ofWord?_cases (h.ofWord? trivial) with ⟨-, ht⟩ | ⟨rfl, ht⟩ | ⟨rfl, ht⟩ | ⟨n, -, ht⟩
  · cases ht
  · cases ht
    exact .true
  · cases ht
    exact .false
  · cases ht

theorem SpellsToken.number {x : Number} {body : List Char}
    (h : SpellsToken (.number (some x)) body) : Written (.number x) body := by
  rcases Token.ofWord?_cases (h.ofWord? trivial) with ⟨-, ht⟩ | ⟨-, ht⟩ | ⟨-, ht⟩ | ⟨n, hn, ht⟩
  · cases ht
  · cases ht
  · cases ht
  · exact .number hn (Token.number.inj ht).symm

theorem SpellsToken.stringText {s : String} {body : List Char}
    (h : SpellsToken (.string (some s)) body) : StringText s body := by
  cases h with
  | mark hc => exact absurd rfl ((not_isWord_of_punctuation? hc).2 _)
  | word spells => exact (isWord_of_ofWord? spells).elim
  | string text => exact text

/-- A mark is found behind white space. -/
theorem Spells.mark_inv {c : Char} {t : Token} {ts : List Token} {cs : List Char}
    (h : Spells (t :: ts) cs) (hc : punctuation? c = some t) :
    ∃ gap rest, cs = gap ++ c :: rest ∧ IsGap gap ∧ Spells ts rest := by
  obtain ⟨gap, body, rest, rfl, hgap, hbody, hrest⟩ := h.cons
  rw [hbody.eq_mark hc]
  exact ⟨gap, rest, rfl, hgap, hrest⟩

/-! ## The tokens of a text -/

theorem endsWord_append {gap cs : List Char} (hgap : IsGap gap)
    (hcs : ∀ c ∈ cs.head?, endsWord c = true) : ∀ c ∈ (gap ++ cs).head?, endsWord c = true := by
  cases gap with
  | nil => exact hcs
  | cons d gap =>
    rintro c ⟨⟩
    rw [endsWord, hgap d List.mem_cons_self, Bool.true_or, Bool.true_or]

theorem spells_gap {gap cs : List Char} {ts : List Token} (hgap : IsGap gap) (h : Spells ts cs) :
    Spells ts (gap ++ cs) := by
  induction gap with
  | nil => exact h
  | cons c gap ih =>
    obtain ⟨hc, hgap⟩ := List.forall_mem_cons.1 hgap
    exact .space hc (ih hgap)

theorem StringText.spells {s : String} {cs rest : List Char} {ts : List Token}
    (h : StringText s cs) (hrest : Spells ts rest) : Spells (.string (some s) :: ts) (cs ++ rest) := by
  cases h with
  | intro text =>
    have hstring := Spells.string text hrest
    simpa using hstring

/-- Behind a value its array goes on with a comma or ends, either of which ends a word. -/
theorem ItemTexts.endsWord_head {items : List Json} {cs rest : List Char} (h : ItemTexts items cs)
    (hrest : ∀ c ∈ rest.head?, endsWord c = true) : ∀ c ∈ (cs ++ rest).head?, endsWord c = true := by
  cases h with
  | nil => exact hrest
  | cons => rintro c ⟨⟩; rfl

theorem MemberTexts.endsWord_head {members : List (String × Json)} {cs rest : List Char}
    (h : MemberTexts members cs) (hrest : ∀ c ∈ rest.head?, endsWord c = true) :
    ∀ c ∈ (cs ++ rest).head?, endsWord c = true := by
  cases h with
  | nil => exact hrest
  | cons => rintro c ⟨⟩; rfl

theorem endsWord_head_mark {c : Char} {t : Token} (cs : List Char) (hc : punctuation? c = some t) :
    ∀ d ∈ (c :: cs).head?, endsWord d = true := by
  rintro d ⟨⟩
  rw [endsWord, hc, Option.isSome_some, Bool.or_true]

mutual
/-- The text of a value spells its tokens, in front of anything that ends a word. -/
theorem Written.spells {v : Json} {cs rest : List Char} {ts : List Token} (h : Written v cs)
    (hends : ∀ c ∈ rest.head?, endsWord c = true) (hrest : Spells ts rest) :
    Spells (v.tokens ++ ts) (cs ++ rest) := by
  match h with
  | .null => exact .word rfl hends hrest
  | .true => exact .word rfl hends hrest
  | .false => exact .word rfl hends hrest
  | .number spells value =>
    refine .word ?_ hends hrest
    rw [Token.ofWord?_of_spells spells, value]
  | .string text => exact text.spells hrest
  | .emptyArray blank =>
    have hclose : Spells (.closeArray :: ts) (']' :: rest) := .mark rfl hrest
    have hopen := Spells.mark (c := '[') rfl (spells_gap blank hclose)
    simpa [Json.tokens] using hopen
  | .array first others =>
    have hclose : Spells (.closeArray :: ts) (']' :: rest) := .mark rfl hrest
    have hhead := endsWord_head_mark (c := ']') rest rfl
    have hitems := first.spells (others.endsWord_head hhead) (others.spells hhead hclose)
    have hopen := Spells.mark (c := '[') rfl hitems
    simpa [Json.tokens] using hopen
  | .emptyObject blank =>
    have hclose : Spells (.closeObject :: ts) ('}' :: rest) := .mark rfl hrest
    have hopen := Spells.mark (c := '{') rfl (spells_gap blank hclose)
    simpa [Json.tokens] using hopen
  | .object first others =>
    have hclose : Spells (.closeObject :: ts) ('}' :: rest) := .mark rfl hrest
    have hhead := endsWord_head_mark (c := '}') rest rfl
    have hmembers := first.spells (others.endsWord_head hhead) (others.spells hhead hclose)
    have hopen := Spells.mark (c := '{') rfl hmembers
    simpa [Json.tokens] using hopen

theorem TextOf.spells {v : Json} {cs rest : List Char} {ts : List Token} (h : TextOf v cs)
    (hends : ∀ c ∈ rest.head?, endsWord c = true) (hrest : Spells ts rest) :
    Spells (v.tokens ++ ts) (cs ++ rest) := by
  match h with
  | .intro blankLeft written blankRight =>
    rw [List.append_assoc, List.append_assoc]
    refine spells_gap blankLeft (written.spells (endsWord_append blankRight hends) ?_)
    exact spells_gap blankRight hrest

theorem ItemTexts.spells {items : List Json} {cs rest : List Char} {ts : List Token}
    (h : ItemTexts items cs) (hends : ∀ c ∈ rest.head?, endsWord c = true)
    (hrest : Spells ts rest) : Spells (tokensItems items ++ ts) (cs ++ rest) := by
  match h with
  | .nil => exact hrest
  | .cons first others =>
    have hitems := first.spells (others.endsWord_head hends) (others.spells hends hrest)
    have hcomma := Spells.mark (c := ',') rfl hitems
    simpa [tokensItems] using hcomma

theorem MemberText.spells {k : String} {v : Json} {cs rest : List Char} {ts : List Token}
    (h : MemberText k v cs) (hends : ∀ c ∈ rest.head?, endsWord c = true)
    (hrest : Spells ts rest) :
    Spells (.string (some k) :: .colon :: (v.tokens ++ ts)) (cs ++ rest) := by
  match h with
  | .intro blankLeft keyText blankRight value =>
    have hcolon := Spells.mark (c := ':') rfl (value.spells hends hrest)
    have hkey := keyText.spells (spells_gap blankRight hcolon)
    simpa using spells_gap blankLeft hkey

theorem MemberTexts.spells {members : List (String × Json)} {cs rest : List Char}
    {ts : List Token} (h : MemberTexts members cs)
    (hends : ∀ c ∈ rest.head?, endsWord c = true) (hrest : Spells ts rest) :
    Spells (tokensMembers members ++ ts) (cs ++ rest) := by
  match h with
  | .nil => exact hrest
  | .cons first others =>
    have hmembers := first.spells (others.endsWord_head hends) (others.spells hends hrest)
    have hcomma := Spells.mark (c := ',') rfl hmembers
    simpa [tokensMembers] using hcomma
end

/-! ## The text of some tokens -/

/-- White space, something that `P` describes, and a text of the tokens behind it. -/
def GapThen (P : List Char → Prop) (ts : List Token) (cs : List Char) : Prop :=
  ∃ gap body rest, cs = gap ++ (body ++ rest) ∧ IsGap gap ∧ P body ∧ Spells ts rest

mutual
/-- Where the tokens of a value begin, a text of the value stands behind white space. -/
theorem written_of_spells {cs : List Char} {ts : List Token} : (v : Json) →
    Spells (v.tokens ++ ts) cs → GapThen (Written v) ts cs
  | .null, h => by
    obtain ⟨gap, body, rest, rfl, hgap, hbody, hrest⟩ := h.cons
    exact ⟨gap, body, rest, rfl, hgap, hbody.null, hrest⟩
  | .bool b, h => by
    obtain ⟨gap, body, rest, rfl, hgap, hbody, hrest⟩ := h.cons
    exact ⟨gap, body, rest, rfl, hgap, hbody.bool, hrest⟩
  | .number x, h => by
    obtain ⟨gap, body, rest, rfl, hgap, hbody, hrest⟩ := h.cons
    exact ⟨gap, body, rest, rfl, hgap, hbody.number, hrest⟩
  | .string s, h => by
    obtain ⟨gap, body, rest, rfl, hgap, hbody, hrest⟩ := h.cons
    exact ⟨gap, body, rest, rfl, hgap, .string hbody.stringText, hrest⟩
  | .array [], h => by
    obtain ⟨left, cs, rfl, hleft, h⟩ := h.mark_inv (c := '[') rfl
    obtain ⟨gap, rest, rfl, hgap, hrest⟩ := h.mark_inv (c := ']') rfl
    exact ⟨left, _, rest, by simp, hleft, .emptyArray hgap, hrest⟩
  | .array (v :: items), h => by
    rw [Json.tokens] at h
    simp only [List.cons_append, List.append_assoc] at h
    obtain ⟨left, cs, rfl, hleft, h⟩ := h.mark_inv (c := '[') rfl
    obtain ⟨gap, first, cs, rfl, hgap, hfirst, h⟩ := written_of_spells v h
    obtain ⟨before, others, rest, rfl, hbefore, hothers, hrest⟩ :=
      itemTexts_of_spells (c := ']') items rfl h
    have hvalue := TextOf.intro hgap hfirst hbefore
    exact ⟨left, _, rest, by simp, hleft, .array hvalue hothers, hrest⟩
  | .object [], h => by
    obtain ⟨left, cs, rfl, hleft, h⟩ := h.mark_inv (c := '{') rfl
    obtain ⟨gap, rest, rfl, hgap, hrest⟩ := h.mark_inv (c := '}') rfl
    exact ⟨left, _, rest, by simp, hleft, .emptyObject hgap, hrest⟩
  | .object ((k, v) :: members), h => by
    rw [Json.tokens] at h
    simp only [List.cons_append, List.append_assoc] at h
    obtain ⟨left, cs, rfl, hleft, h⟩ := h.mark_inv (c := '{') rfl
    obtain ⟨gap, key, cs, rfl, hgap, hkey, h⟩ := h.cons
    obtain ⟨gap', cs, rfl, hgap', h⟩ := h.mark_inv (c := ':') rfl
    obtain ⟨start, first, cs, rfl, hstart, hfirst, h⟩ := written_of_spells v h
    obtain ⟨before, others, rest, rfl, hbefore, hothers, hrest⟩ :=
      memberTexts_of_spells (c := '}') members rfl h
    have hmember := MemberText.intro hgap hkey.stringText hgap' (.intro hstart hfirst hbefore)
    exact ⟨left, _, rest, by simp, hleft, .object hmember hothers, hrest⟩

/-- Where the tokens of items and a mark stand, so do their texts and the mark. White space in front
of a comma belongs to the item before it. -/
theorem itemTexts_of_spells {cs : List Char} {c : Char} {t : Token} {ts : List Token} :
    (items : List Json) → punctuation? c = some t → Spells (tokensItems items ++ t :: ts) cs →
    ∃ gap body rest, cs = gap ++ (body ++ c :: rest) ∧ IsGap gap ∧ ItemTexts items body ∧
      Spells ts rest
  | [], hc, h => by
    obtain ⟨gap, rest, rfl, hgap, hrest⟩ := h.mark_inv hc
    exact ⟨gap, [], rest, rfl, hgap, .nil, hrest⟩
  | v :: items, hc, h => by
    rw [tokensItems] at h
    simp only [List.cons_append, List.append_assoc] at h
    obtain ⟨left, cs, rfl, hleft, h⟩ := h.mark_inv (c := ',') rfl
    obtain ⟨gap, first, cs, rfl, hgap, hfirst, h⟩ := written_of_spells v h
    obtain ⟨before, others, rest, rfl, hbefore, hothers, hrest⟩ := itemTexts_of_spells items hc h
    have hvalue := TextOf.intro hgap hfirst hbefore
    exact ⟨left, _, rest, by simp, hleft, .cons hvalue hothers, hrest⟩

theorem memberTexts_of_spells {cs : List Char} {c : Char} {t : Token} {ts : List Token} :
    (members : List (String × Json)) → punctuation? c = some t →
    Spells (tokensMembers members ++ t :: ts) cs →
    ∃ gap body rest, cs = gap ++ (body ++ c :: rest) ∧ IsGap gap ∧ MemberTexts members body ∧
      Spells ts rest
  | [], hc, h => by
    obtain ⟨gap, rest, rfl, hgap, hrest⟩ := h.mark_inv hc
    exact ⟨gap, [], rest, rfl, hgap, .nil, hrest⟩
  | (k, v) :: members, hc, h => by
    rw [tokensMembers] at h
    simp only [List.cons_append, List.append_assoc] at h
    obtain ⟨left, cs, rfl, hleft, h⟩ := h.mark_inv (c := ',') rfl
    obtain ⟨gap, key, cs, rfl, hgap, hkey, h⟩ := h.cons
    obtain ⟨gap', cs, rfl, hgap', h⟩ := h.mark_inv (c := ':') rfl
    obtain ⟨start, first, cs, rfl, hstart, hfirst, h⟩ := written_of_spells v h
    obtain ⟨before, others, rest, rfl, hbefore, hothers, hrest⟩ := memberTexts_of_spells members hc h
    have hmember := MemberText.intro hgap hkey.stringText hgap' (.intro hstart hfirst hbefore)
    exact ⟨left, _, rest, by simp, hleft, .cons hmember hothers, hrest⟩
end

theorem spells_tokens_iff {v : Json} {cs : List Char} : Spells v.tokens cs ↔ TextOf v cs := by
  constructor
  · intro h
    rw [← List.append_nil v.tokens] at h
    obtain ⟨left, body, right, rfl, hleft, hbody, hright⟩ := written_of_spells v h
    exact .intro hleft hbody (isGap_of_spells_nil hright)
  · intro h
    have hspells : Spells (v.tokens ++ []) (cs ++ []) := h.spells nofun .nil
    rwa [List.append_nil, List.append_nil] at hspells

/-- A text is read as a value exactly when it is a text of the value and the value is not nested too
deeply. -/
theorem parse?_eq_some_iff_textOf {limit : Nat} {cs : List Char} {v : Json} :
    parse? limit cs = some v ↔ TextOf v cs ∧ v.depth ≤ limit := by
  rw [parse?_eq_some, spells_tokens_iff]

theorem read?_eq_some {s : String} {v : Json} :
    read? s = some v ↔ ∃ w, TextOf w s.toList ∧ w.depth ≤ maxDepth ∧ w.canonical = v := by
  rw [read?, Option.map_eq_some_iff]
  simp only [parse?_eq_some_iff_textOf, and_assoc]

/-! ## The text without white space -/

theorem written_number {x : Number} (h : x.ReadsBack) : Written (number x) x.chars :=
  SpellsToken.number (.word h)

theorem stringText_quoted (s : String) : StringText s (quoted s) :=
  .intro (spells_escaped s.toList)

theorem memberText_quoted (k : String) {v : Json} {cs : List Char} (h : TextOf v cs) :
    MemberText k v (quoted k ++ ':' :: cs) :=
  .intro isGap_nil (stringText_quoted k) isGap_nil h

theorem Written.textOf {v : Json} {cs : List Char} (h : Written v cs) : TextOf v cs := by
  have htext := TextOf.intro isGap_nil h isGap_nil
  rwa [List.nil_append, List.append_nil] at htext

/-- The items behind the first one as they are written without white space. -/
def commaItems (items : List Json) : List Char :=
  items.flatMap fun v => ',' :: v.compactChars

/-- The members behind the first one as they are written without white space. -/
def commaMembers (members : List (String × Json)) : List Char :=
  members.flatMap fun e => ',' :: (quoted e.1 ++ ':' :: e.2.compactChars)

theorem compactItems_cons (v : Json) (items : List Json) :
    compactItems (v :: items) = v.compactChars ++ commaItems items := by
  induction items generalizing v with
  | nil => simp [compactItems, commaItems]
  | cons w items ih =>
    rw [compactItems, ih w]
    · simp [commaItems]
    · exact List.cons_ne_nil w items

theorem compactMembers_cons (k : String) (v : Json) (members : List (String × Json)) :
    compactMembers ((k, v) :: members) =
      quoted k ++ ':' :: v.compactChars ++ commaMembers members := by
  induction members generalizing k v with
  | nil => simp [compactMembers, commaMembers]
  | cons e members ih =>
    rw [compactMembers, ih e.1 e.2]
    · simp [commaMembers]
    · exact List.cons_ne_nil e members

mutual
/-- The text without white space is a text of the value. -/
theorem written_compact : (v : Json) → (∀ n ∈ v.numbers, n.ReadsBack) → Written v v.compactChars
  | .null, _ => .null
  | .bool true, _ => .true
  | .bool false, _ => .false
  | .number x, hn => written_number (hn x List.mem_cons_self)
  | .string s, _ => .string (stringText_quoted s)
  | .array [], _ => .emptyArray isGap_nil
  | .array (v :: items), hn => by
    rw [numbers, numbersItems] at hn
    have hv := written_compact v fun n h => hn n (List.mem_append_left _ h)
    have hitems := itemTexts_compact items fun n h => hn n (List.mem_append_right _ h)
    rw [compactChars, compactItems_cons, List.append_assoc]
    exact .array hv.textOf hitems
  | .object [], _ => .emptyObject isGap_nil
  | .object ((k, v) :: members), hn => by
    rw [numbers, numbersMembers] at hn
    have hv := written_compact v fun n h => hn n (List.mem_append_left _ h)
    have hmembers := memberTexts_compact members fun n h => hn n (List.mem_append_right _ h)
    rw [compactChars, compactMembers_cons, List.append_assoc]
    exact .object (memberText_quoted k hv.textOf) hmembers

theorem itemTexts_compact : (items : List Json) → (∀ n ∈ numbersItems items, n.ReadsBack) →
    ItemTexts items (commaItems items)
  | [], _ => .nil
  | v :: items, hn => by
    rw [numbersItems] at hn
    have hv := written_compact v fun n h => hn n (List.mem_append_left _ h)
    have hitems := itemTexts_compact items fun n h => hn n (List.mem_append_right _ h)
    exact .cons hv.textOf hitems

theorem memberTexts_compact : (members : List (String × Json)) →
    (∀ n ∈ numbersMembers members, n.ReadsBack) → MemberTexts members (commaMembers members)
  | [], _ => .nil
  | (k, v) :: members, hn => by
    rw [numbersMembers] at hn
    have hv := written_compact v fun n h => hn n (List.mem_append_left _ h)
    have hmembers := memberTexts_compact members fun n h => hn n (List.mem_append_right _ h)
    exact .cons (memberText_quoted k hv.textOf) hmembers
end

end ClusterLedger.Json
