import ClusterLedger.Proofs.Json.Spelling

/-!
# The texts that are read

A text is read as a value exactly when it spells the tokens of that value and the value is not nested
too deeply. The scanner is followed by what the text must go on with, the reader by the tokens that
have led to its stack.
-/
namespace ClusterLedger.Json

/-! ## What was scanned -/

/-- What has been read of a character inside a string. -/
inductive Begun : Escape → List Char → Prop
  | none : Begun .none []
  | backslash : Begun .backslash ['\\']
  | unit {digits : List Char} {missing bits : Nat} (hex : hex? digits = some bits)
    (four : digits.length + missing = 4) (more : 0 < missing) :
    Begun (.unit .none missing bits) (['\\', 'u'] ++ digits)
  | lowBackslash {high : Nat} {cs : List Char} (spells : SpellsUnit high cs)
    (first : 0xD800 ≤ high ∧ high < 0xDC00) : Begun (.lowBackslash high) cs
  | lowU {high : Nat} {cs : List Char} (spells : SpellsUnit high cs)
    (first : 0xD800 ≤ high ∧ high < 0xDC00) : Begun (.lowU high) (cs ++ ['\\'])
  | low {high : Nat} {cs digits : List Char} {missing bits : Nat} (spells : SpellsUnit high cs)
    (first : 0xD800 ≤ high ∧ high < 0xDC00) (hex : hex? digits = some bits)
    (four : digits.length + missing = 4) (more : 0 < missing) :
    Begun (.unit (some high) missing bits) (cs ++ (['\\', 'u'] ++ digits))

/-- The text goes on with the rest of a string and the tokens behind it. -/
def StringGoesOn (seen : List Char) (us : List Token) (cs : List Char) : Prop :=
  ∃ text body rest vs, cs = body ++ '"' :: rest ∧
    us = .string (some (String.ofList (seen.reverse ++ text))) :: vs ∧ SpellsText text body ∧
      Spells vs rest

/-- The text goes on with the tokens, the first of which may have begun already. -/
def GoesOn : Mode → List Token → List Char → Prop
  | .between, us, cs => Spells us cs
  | .word seen, us, cs => ∃ word rest t vs, cs = word ++ rest ∧ us = t :: vs ∧
      Token.ofWord? (seen.reverse ++ word) = some t ∧ (∀ c ∈ rest.head?, endsWord c = true) ∧
        Spells vs rest
  | .string (some seen) escape, us, cs =>
    ∀ begun, Begun escape begun → StringGoesOn seen us (begun ++ cs)
  | .string none _, _, _ => False

theorem StringGoesOn.char {seen us cs ds} {c : Char} (h : StringGoesOn (c :: seen) us cs)
    (hc : SpellsChar c ds) : StringGoesOn seen us (ds ++ cs) := by
  obtain ⟨text, body, rest, vs, rfl, rfl, htext, hrest⟩ := h
  refine ⟨c :: text, ds ++ body, rest, vs, by simp, by simp, htext.cons hc, hrest⟩

theorem GoesOn.char {seen us cs ds} {c : Char} (h : GoesOn (nextChar (some seen) c) us cs)
    (hc : SpellsChar c ds) : StringGoesOn seen us (ds ++ cs) :=
  (h [] .none).char hc

theorem hex?_snoc {digits : List Char} {bits n : Nat} {c : Char} (h : hex? digits = some bits)
    (hc : hexDigit? c = some n) : hex? (digits ++ [c]) = some (bits * 16 + n) := by
  rw [hex?] at h
  rw [hex?, List.foldlM_append, h]
  simp [hc]

theorem spellsUnit_snoc {digits : List Char} {bits n : Nat} {c : Char}
    (h : hex? digits = some bits) (four : digits.length + 1 = 4) (hc : hexDigit? c = some n) :
    SpellsUnit (bits * 16 + n) (['\\', 'u'] ++ (digits ++ [c])) :=
  .intro (hex?_snoc h hc) (by simp; omega)

/-- A step finds a token or none; whatever tokens the text goes on with behind it, it goes on with
these tokens before it. -/
structure Steps (s s' : Scanner) (c : Char) (new : List Token) : Prop where
  tokens : s'.tokens = new ++ s.tokens
  back : .string none ∉ new → ∀ us cs, GoesOn s'.mode us cs → GoesOn s.mode (new.reverse ++ us) (c :: cs)

theorem steps_outside (ts : List Token) (c : Char) :
    ∃ new, Steps ⟨.between, ts⟩ (outsideStep ts c) c new := by
  rw [outsideStep]
  split
  · next hc => exact ⟨[], rfl, fun _ us cs h => .space hc h⟩
  split
  · next hc =>
    subst hc
    refine ⟨[], rfl, fun _ us cs h => ?_⟩
    obtain ⟨text, body, rest, vs, hcs, hus, htext, hrest⟩ := h [] .none
    rw [List.nil_append] at hcs
    subst hcs hus
    exact .string (by simpa using htext) hrest
  split
  · next t hc => exact ⟨[t], rfl, fun _ us cs h => .mark hc h⟩
  · refine ⟨[], rfl, fun _ us cs h => ?_⟩
    obtain ⟨word, rest, t, vs, rfl, rfl, hword, hends, hrest⟩ := h
    exact @Spells.word (c :: word) t vs rest hword hends hrest

theorem steps_word {seen : List Char} {ts : List Token} {c : Char} {s' : Scanner}
    (h : Scanner.step? ⟨.word seen, ts⟩ (some c) = some s') :
    ∃ new, Steps ⟨.word seen, ts⟩ s' c new := by
  change (if endsWord c then _ else _) = _ at h
  split at h
  · next hends =>
    obtain ⟨t, ht, rfl⟩ := Option.map_eq_some_iff.1 h
    obtain ⟨new, htokens, hback⟩ := steps_outside (t :: ts) c
    refine ⟨new ++ [t], by simp [htokens], fun hnew us cs hgoes => ?_⟩
    have hrest := hback (fun hmem => hnew (List.mem_append_left _ hmem)) us cs hgoes
    refine ⟨[], c :: cs, t, new.reverse ++ us, rfl, by simp, by simpa using ht, ?_, hrest⟩
    rintro d ⟨⟩
    exact hends
  · cases h
    refine ⟨[], rfl, fun _ us cs hgoes => ?_⟩
    obtain ⟨word, rest, t, vs, rfl, rfl, hword, hends, hrest⟩ := hgoes
    exact ⟨c :: word, rest, t, vs, rfl, rfl, by simpa using hword, hends, hrest⟩

/-- What is no text any more stays none. -/
theorem stringStep?_none {c : Option Char} {escape : Escape} {mode : Mode}
    (h : stringStep? none c escape = some mode) : ∃ escape', mode = .string none escape' := by
  cases escape with
  | none =>
    cases c with
    | none =>
      cases h
      exact ⟨_, rfl⟩
    | some c =>
      rw [stringStep?] at h
      split at h
      · cases h
        exact ⟨_, rfl⟩
      split at h
      · cases h
      · cases h
        exact ⟨_, rfl⟩
  | backslash =>
    rw [stringStep?] at h
    split at h
    · cases h
      exact ⟨_, rfl⟩
    · obtain ⟨d, -, rfl⟩ := Option.map_eq_some_iff.1 h
      exact ⟨_, rfl⟩
  | unit high missing bits =>
    obtain ⟨n, -, h⟩ := Option.bind_eq_some_iff.1 h
    split at h
    · cases h
      unfold codeUnit
      split
      · split <;> exact ⟨_, rfl⟩
      · split
        · exact ⟨_, rfl⟩
        · split <;> exact ⟨_, rfl⟩
    · cases h
      exact ⟨_, rfl⟩
  | lowBackslash high =>
    cases h
    exact ⟨_, rfl⟩
  | lowU high =>
    cases h
    exact ⟨_, rfl⟩

theorem steps_codeUnit {seen : List Char} {escape : Escape} {high : Option Nat} {unit : Nat}
    {ts : List Token} {c : Char}
    (hbegun : ∀ begun, Begun escape begun → ∃ cs ds, begun ++ [c] = cs ++ ds ∧ SpellsUnit unit ds ∧
      match high with
      | none => cs = []
      | some h => SpellsUnit h cs ∧ 0xD800 ≤ h ∧ h < 0xDC00) :
    Steps ⟨.string (some seen) escape, ts⟩ ⟨codeUnit (some seen) high unit, ts⟩ c [] := by
  refine ⟨rfl, fun _ us cs hgoes begun hb => ?_⟩
  obtain ⟨head, ds, hsplit, hunit, hhigh⟩ := hbegun begun hb
  have hcons : begun ++ c :: cs = head ++ ds ++ cs := by rw [← hsplit]; simp
  show StringGoesOn seen ([].reverse ++ us) (begun ++ c :: cs)
  rw [hcons]
  -- A first half waits for the second one, any other unit is a character.
  cases high with
  | none =>
    subst hhigh
    simp only [codeUnit] at hgoes
    split at hgoes
    · next hfirst => exact hgoes ds (.lowBackslash hunit hfirst)
    split at hgoes
    · cases hgoes
    · next hnot hnot' =>
      exact GoesOn.char hgoes (.unit hunit (by omega))
  | some h =>
    simp only [codeUnit] at hgoes
    split at hgoes
    · next hsecond => exact GoesOn.char hgoes (.pair hhigh.1 hunit hhigh.2 hsecond)
    · cases hgoes

theorem steps_lost {mode : Mode} {escape : Escape} {ts : List Token} {c : Char} {s' : Scanner}
    (h : (if escape = .none ∧ some c = some '"' then
        some ⟨.between, .string ((none : Option (List Char)).map fun cs => String.ofList cs.reverse) :: ts⟩
      else (stringStep? none (some c) escape).map fun mode => ⟨mode, ts⟩) = some s') :
    ∃ new, Steps ⟨mode, ts⟩ s' c new := by
  split at h
  · cases h
    exact ⟨[.string none], rfl, fun hnew => absurd (List.mem_singleton_self _) hnew⟩
  · obtain ⟨next, hnext, rfl⟩ := Option.map_eq_some_iff.1 h
    obtain ⟨escape', rfl⟩ := stringStep?_none hnext
    exact ⟨[], rfl, fun _ us cs hgoes => hgoes.elim⟩

/-- A string that is no text already ends as no text. -/
theorem steps_noText {escape : Escape} {ts : List Token} {c : Char} {s' : Scanner}
    (h : Scanner.step? ⟨.string none escape, ts⟩ (some c) = some s') :
    ∃ new, Steps ⟨.string none escape, ts⟩ s' c new := by
  have hnone : (unpaired none (some c) escape).1 = none := by
    cases escape with
    | lowBackslash high => rw [unpaired]; split <;> rfl
    | lowU high => rw [unpaired]; split <;> rfl
    | _ => rfl
  simp only [Scanner.step?, hnone] at h
  exact steps_lost h

/-- What has been read of a character goes on with the next one. -/
theorem steps_begun {seen : List Char} {escape escape' : Escape} {ts : List Token} {c : Char}
    (h : ∀ begun, Begun escape begun → Begun escape' (begun ++ [c])) :
    Steps ⟨.string (some seen) escape, ts⟩ ⟨.string (some seen) escape', ts⟩ c [] := by
  refine ⟨rfl, fun _ us cs hgoes begun hb => ?_⟩
  have hrest := hgoes _ (h begun hb)
  rw [List.append_assoc] at hrest
  exact hrest

/-- A character of a string is complete. -/
theorem steps_char {seen : List Char} {escape : Escape} {ts : List Token} {c d : Char}
    (h : ∀ begun, Begun escape begun → SpellsChar d (begun ++ [c])) :
    Steps ⟨.string (some seen) escape, ts⟩ ⟨nextChar (some seen) d, ts⟩ c [] := by
  refine ⟨rfl, fun _ us cs hgoes begun hb => ?_⟩
  have hrest := GoesOn.char hgoes (h begun hb)
  rw [List.append_assoc] at hrest
  exact hrest

theorem steps_string {seen : List Char} {escape : Escape} {ts : List Token} {c : Char} {s' : Scanner}
    (h : Scanner.step? ⟨.string (some seen) escape, ts⟩ (some c) = some s') :
    ∃ new, Steps ⟨.string (some seen) escape, ts⟩ s' c new := by
  cases escape with
  | none =>
    simp only [Scanner.step?, unpaired, stringStep?, true_and] at h
    split at h
    · next hquote =>
      cases hquote
      cases h
      refine ⟨[.string (some (String.ofList seen.reverse))], rfl, fun _ us cs hgoes begun hb => ?_⟩
      cases hb
      exact ⟨[], [], cs, us, rfl, by simp, .nil, hgoes⟩
    · next hquote =>
      split at h
      · next hbackslash =>
        cases h
        refine ⟨[], steps_begun fun begun hb => ?_⟩
        cases hb
        subst hbackslash
        exact .backslash
      split at h
      · cases h
      · next hbackslash hcontrol =>
        cases h
        refine ⟨[], steps_char fun begun hb => ?_⟩
        cases hb
        exact .plain (by simpa using hquote) hbackslash (by omega)
  | backslash =>
    simp only [Scanner.step?, unpaired, stringStep?, reduceCtorEq, false_and, if_false] at h
    split at h
    · next hu =>
      cases hu
      cases h
      refine ⟨[], steps_begun fun begun hb => ?_⟩
      cases hb
      have hnil : hex? [] = some 0 := rfl
      exact .unit hnil rfl (by decide)
    · obtain ⟨d, hd, rfl⟩ := Option.map_eq_some_iff.1 h
      obtain ⟨e, he, rfl⟩ := Option.map_eq_some_iff.1 hd
      refine ⟨[], steps_char fun begun hb => ?_⟩
      cases hb
      exact .short he
  | unit high missing bits =>
    simp only [Scanner.step?, unpaired, stringStep?, reduceCtorEq, false_and, if_false] at h
    obtain ⟨mode, hmode, rfl⟩ := Option.map_eq_some_iff.1 h
    obtain ⟨n, hn, hmode⟩ := Option.bind_eq_some_iff.1 hmode
    split at hmode
    · next hlast =>
      cases hmode
      subst hlast
      refine ⟨[], steps_codeUnit fun begun hb => ?_⟩
      cases hb with
      | unit hex four => exact ⟨[], _, by simp, spellsUnit_snoc hex four hn, rfl⟩
      | low spells first hex four =>
        exact ⟨_, _, by simp, spellsUnit_snoc hex four hn, spells, first⟩
    · next hmore =>
      cases hmode
      refine ⟨[], steps_begun fun begun hb => ?_⟩
      cases hb with
      | unit hex four more =>
        rw [List.append_assoc]
        exact .unit (hex?_snoc hex hn) (by simp; omega) (by omega)
      | low spells first hex four more =>
        rw [List.append_assoc, List.append_assoc]
        exact .low spells first (hex?_snoc hex hn) (by simp; omega) (by omega)
  | lowBackslash high =>
    simp only [Scanner.step?, unpaired] at h
    split at h
    · next hc =>
      cases hc
      cases h
      refine ⟨[], steps_begun fun begun hb => ?_⟩
      cases hb with
      | lowBackslash spells first => exact .lowU spells first
    · exact steps_lost h
  | lowU high =>
    simp only [Scanner.step?, unpaired] at h
    split at h
    · next hc =>
      cases hc
      cases h
      refine ⟨[], steps_begun fun begun hb => ?_⟩
      cases hb with
      | lowU spells first =>
        rw [List.append_assoc]
        have hnil : hex? [] = some 0 := rfl
        exact .low spells first hnil rfl (by decide)
    · exact steps_lost h

theorem steps_of_step? {s s' : Scanner} {c : Char} (h : s.step? (some c) = some s') :
    ∃ new, Steps s s' c new := by
  obtain ⟨mode, ts⟩ := s
  cases mode with
  | between =>
    cases h
    exact steps_outside ts c
  | word seen => exact steps_word h
  | string seen escape =>
    cases seen with
    | none => exact steps_noText h
    | some seen => exact steps_string h

/-- From any state on, the text consists of the tokens that are found in it. -/
theorem goesOn_of_scan {cs : List Char} {s s' : Scanner} {ts : List Token}
    (hs : s.scan cs = some s') (hts : s'.finish? = some ts) :
    ∃ us, ts = s.tokens.reverse ++ us ∧ (.string none ∉ us → GoesOn s.mode us cs) := by
  induction cs generalizing s with
  | nil =>
    obtain ⟨mode, us⟩ := s
    cases hs
    cases mode with
    | between =>
      cases hts
      exact ⟨[], by simp, fun _ => .nil⟩
    | word seen =>
      obtain ⟨t, ht, rfl⟩ := Option.map_eq_some_iff.1 hts
      exact ⟨[t], by simp, fun _ => ⟨[], [], t, [], rfl, rfl, by simpa using ht, nofun, .nil⟩⟩
    | string seen escape => cases hts
  | cons c cs ih =>
    rw [Scanner.scan_cons] at hs
    obtain ⟨next, hnext, hrest⟩ := Option.bind_eq_some_iff.1 hs
    obtain ⟨us, rfl, hgoes⟩ := ih hrest
    obtain ⟨new, htokens, hback⟩ := steps_of_step? hnext
    refine ⟨new.reverse ++ us, by simp [htokens], fun hnone => ?_⟩
    simp only [List.mem_append, List.mem_reverse, not_or] at hnone
    exact hback hnone.1 us cs (hgoes hnone.2)

/-- A text spells exactly the tokens that are found in it. -/
theorem tokens?_eq_some {cs : List Char} {ts : List Token} (hts : .string none ∉ ts) :
    tokens? cs = some ts ↔ Spells ts cs := by
  refine ⟨fun h => ?_, tokens?_of_spells⟩
  obtain ⟨s, hs, hfinish⟩ := Option.bind_eq_some_iff.1 h
  obtain ⟨us, rfl, hgoes⟩ := goesOn_of_scan (s := ⟨.between, []⟩) hs hfinish
  exact hgoes hts

/-! ## What was read -/

/-- The tokens of items that a comma stands behind. -/
def tokensBefore (items : List Json) : List Token :=
  items.flatMap fun v => v.tokens ++ [.comma]

/-- The tokens of members that a comma stands behind. -/
def tokensBeforeMember (members : List (String × Json)) : List Token :=
  members.flatMap fun e => .string (some e.1) :: .colon :: (e.2.tokens ++ [.comma])

/-- The tokens of an array or object that waits for its next part. -/
def Frame.tokens : Frame → List Token
  | .array items => .openArray :: tokensBefore items.reverse
  | .object members => .openObject :: tokensBeforeMember members.reverse
  | .entry members k =>
    .openObject :: (tokensBeforeMember members.reverse ++ [.string (some k), .colon])

/-- The tokens of everything that is open, the innermost last. -/
def opened (stack : List Frame) : List Token :=
  stack.reverse.flatMap Frame.tokens

/-- The tokens that lead to a state. -/
inductive Reader.Consumed : Reader → List Token → Prop
  | value (stack : List Frame) : Consumed ⟨stack, .value⟩ (opened stack)
  | firstItem (stack : List Frame) :
    Consumed ⟨.array [] :: stack, .firstItem⟩ (opened (.array [] :: stack))
  | nextItem (v : Json) (items : List Json) (stack : List Frame) :
    Consumed ⟨.array (v :: items) :: stack, .nextItem⟩ (opened (.array items :: stack) ++ v.tokens)
  | firstKey (stack : List Frame) :
    Consumed ⟨.object [] :: stack, .firstKey⟩ (opened (.object [] :: stack))
  | key (members : List (String × Json)) (stack : List Frame) :
    Consumed ⟨.object members :: stack, .key⟩ (opened (.object members :: stack))
  | colon (k : String) (members : List (String × Json)) (stack : List Frame) :
    Consumed ⟨.object members :: stack, .colon k⟩
      (opened (.object members :: stack) ++ [.string (some k)])
  | nextMember (k : String) (v : Json) (members : List (String × Json)) (stack : List Frame) :
    Consumed ⟨.object ((k, v) :: members) :: stack, .nextMember⟩
      (opened (.entry members k :: stack) ++ v.tokens)
  | nothing (v : Json) : Consumed ⟨[], .nothing v⟩ v.tokens

theorem opened_cons (f : Frame) (stack : List Frame) : opened (f :: stack) = opened stack ++ f.tokens := by
  simp [opened]

theorem tokens_array_snoc (items : List Json) (v : Json) :
    (array (items ++ [v])).tokens =
      .openArray :: (tokensBefore items ++ v.tokens ++ [.closeArray]) := by
  have hitems (w : Json) (items : List Json) :
      w.tokens ++ tokensItems (items ++ [v]) =
        tokensBefore (w :: items) ++ v.tokens := by
    induction items generalizing w with
    | nil => simp [tokensItems, tokensBefore]
    | cons x items ih =>
      rw [List.cons_append, tokensItems, ih x]
      simp [tokensBefore]
  cases items with
  | nil => simp [Json.tokens, tokensItems, tokensBefore]
  | cons w items => rw [List.cons_append, Json.tokens, hitems]

theorem tokens_object_snoc (members : List (String × Json)) (k : String) (v : Json) :
    (object (members ++ [(k, v)])).tokens =
      .openObject :: (tokensBeforeMember members ++ [.string (some k), .colon] ++ v.tokens
        ++ [.closeObject]) := by
  have hmembers (j : String) (w : Json) (members : List (String × Json)) :
      .string (some j) :: .colon :: (w.tokens ++ tokensMembers (members ++ [(k, v)])) =
        tokensBeforeMember ((j, w) :: members) ++ [.string (some k), .colon] ++ v.tokens := by
    induction members generalizing j w with
    | nil => simp [tokensMembers, tokensBeforeMember]
    | cons e members ih =>
      rw [List.cons_append, tokensMembers, ih e.1 e.2]
      simp [tokensBeforeMember]
  cases members with
  | nil => simp [Json.tokens, tokensMembers, tokensBeforeMember]
  | cons e members =>
    rw [List.cons_append, Json.tokens, ← List.cons_append, ← List.cons_append, hmembers]

namespace Reader

variable {limit : Nat} {stack : List Frame} {ts : List Token} {r r' : Reader} {t : Token} {v : Json}

theorem consumed_complete? (h : complete? v stack = some r) :
    r.Consumed (opened stack ++ v.tokens) := by
  cases stack with
  | nil =>
    cases h
    exact .nothing v
  | cons f rest =>
    cases f with
    | array items =>
      cases h
      exact .nextItem v items rest
    | entry members k =>
      cases h
      exact .nextMember k v members rest
    | object members => cases h

theorem consumed_begin? (h : begin? limit stack t = some r) : r.Consumed (opened stack ++ [t]) := by
  unfold begin? at h
  split at h
  · split at h
    · cases h
      have hopened := Consumed.firstItem stack
      rwa [opened_cons] at hopened
    · cases h
  · split at h
    · cases h
      have hopened := Consumed.firstKey stack
      rwa [opened_cons] at hopened
    · cases h
  · exact consumed_complete? h
  · exact consumed_complete? h
  · exact consumed_complete? h
  · exact consumed_complete? h
  · cases h

theorem Consumed.step? (h : r.Consumed ts) (hr : r.step? limit t = some r') :
    r'.Consumed (ts ++ [t]) := by
  cases h with
  | value stack => exact consumed_begin? hr
  | firstItem stack =>
    by_cases ht : t = .closeArray
    · subst ht
      rw [opened_cons, List.append_assoc]
      exact consumed_complete? (v := .array []) hr
    · rw [ready_firstItem limit _ t ht] at hr
      exact consumed_begin? hr
  | nextItem v items stack =>
    cases t with
    | comma =>
      cases hr
      have hopened : opened (.array (v :: items) :: stack) =
          opened (.array items :: stack) ++ v.tokens ++ [.comma] := by
        simp [opened_cons, Frame.tokens, tokensBefore]
      rw [← hopened]
      exact .value _
    | closeArray =>
      have hclosed : opened (.array items :: stack) ++ v.tokens ++ [.closeArray] =
          opened stack ++ (array (v :: items).reverse).tokens := by
        rw [List.reverse_cons, tokens_array_snoc]
        simp [opened_cons, Frame.tokens]
      rw [hclosed]
      exact consumed_complete? hr
    | _ => cases hr
  | firstKey stack =>
    cases t with
    | closeObject =>
      rw [opened_cons, List.append_assoc]
      exact consumed_complete? (v := .object []) hr
    | string key =>
      cases key with
      | none => cases hr
      | some k =>
        cases hr
        exact .colon k [] stack
    | _ => cases hr
  | key members stack =>
    cases t with
    | string key =>
      cases key with
      | none => cases hr
      | some k =>
        cases hr
        exact .colon k members stack
    | _ => cases hr
  | colon k members stack =>
    cases t with
    | colon =>
      cases hr
      have hopened : opened (.entry members k :: stack) =
          opened (.object members :: stack) ++ [.string (some k)] ++ [.colon] := by
        simp [opened_cons, Frame.tokens]
      rw [← hopened]
      exact .value _
    | _ => cases hr
  | nextMember k v members stack =>
    cases t with
    | comma =>
      cases hr
      have hopened : opened (.object ((k, v) :: members) :: stack) =
          opened (.entry members k :: stack) ++ v.tokens ++ [.comma] := by
        simp [opened_cons, Frame.tokens, tokensBeforeMember]
      rw [← hopened]
      exact .key _ _
    | closeObject =>
      have hclosed : opened (.entry members k :: stack) ++ v.tokens ++ [.closeObject] =
          opened stack ++ (object ((k, v) :: members).reverse).tokens := by
        rw [List.reverse_cons, tokens_object_snoc]
        simp [opened_cons, Frame.tokens]
      rw [hclosed]
      exact consumed_complete? hr
    | _ => cases hr
  | nothing v => cases t <;> cases hr

theorem Consumed.run? (h : r.Consumed ts) {us : List Token} (hr : r.run? limit us = some r') :
    r'.Consumed (ts ++ us) := by
  induction us generalizing r ts with
  | nil =>
    cases hr
    rwa [List.append_nil]
  | cons t us ih =>
    obtain ⟨next, hnext, hrest⟩ := Option.bind_eq_some_iff.1 hr
    have hus := ih (h.step? hnext) hrest
    rwa [List.append_assoc] at hus

end Reader

/-- What is read of tokens is the value that they are the tokens of. -/
theorem ofTokens?_eq_some {limit : Nat} {ts : List Token} {v : Json} :
    ofTokens? limit ts = some v ↔ ts = v.tokens ∧ v.depth ≤ limit := by
  constructor
  · intro h
    obtain ⟨r, hr, hfinish⟩ := Option.bind_eq_some_iff.1 h
    have hconsumed := Reader.Consumed.run? (.value []) hr
    have hts : ts = v.tokens := by
      cases hconsumed with
      | nothing w =>
        cases hfinish
        rfl
      | _ => cases hfinish
    subst hts
    rw [ofTokens?_tokens] at h
    split at h
    · next hdepth => exact ⟨rfl, hdepth⟩
    · cases h
  · rintro ⟨rfl, hdepth⟩
    rw [ofTokens?_tokens, if_pos hdepth]

mutual
/-- A value has only tokens with a value. -/
theorem string_none_not_mem_tokens : (v : Json) → .string none ∉ v.tokens
  | .null | .bool _ | .number _ | .string _ | .array [] | .object [] => by simp [Json.tokens]
  | .array (v :: items) => by
    simp [Json.tokens, string_none_not_mem_tokens v, string_none_not_mem_tokensItems items]
  | .object ((k, v) :: members) => by
    simp [Json.tokens, string_none_not_mem_tokens v, string_none_not_mem_tokensMembers members]

theorem string_none_not_mem_tokensItems : (items : List Json) → .string none ∉ tokensItems items
  | [] => by simp [tokensItems]
  | v :: rest => by
    simp [tokensItems, string_none_not_mem_tokens v, string_none_not_mem_tokensItems rest]

theorem string_none_not_mem_tokensMembers : (members : List (String × Json)) →
    .string none ∉ tokensMembers members
  | [] => by simp [tokensMembers]
  | (k, v) :: rest => by
    simp [tokensMembers, string_none_not_mem_tokens v, string_none_not_mem_tokensMembers rest]
end

/-- A text is read as a value exactly when it spells it and the value is not nested too deeply. -/
theorem parse?_eq_some {limit : Nat} {cs : List Char} {v : Json} :
    parse? limit cs = some v ↔ Spells v.tokens cs ∧ v.depth ≤ limit := by
  rw [← tokens?_eq_some (string_none_not_mem_tokens v), parse?, Option.bind_eq_some_iff]
  constructor
  · rintro ⟨ts, hts, hv⟩
    obtain ⟨rfl, hdepth⟩ := ofTokens?_eq_some.1 hv
    exact ⟨hts, hdepth⟩
  · rintro ⟨hts, hdepth⟩
    exact ⟨_, hts, ofTokens?_eq_some.2 ⟨rfl, hdepth⟩⟩

end ClusterLedger.Json
