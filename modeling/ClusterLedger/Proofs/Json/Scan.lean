import ClusterLedger.Proofs.Json.Words

/-!
# Scanning what was written

The indented text of a value is scanned into the tokens of that value. Around a word the scanner
does not know yet that it has ended, so the tokens are settled only up to that word.
-/
namespace ClusterLedger.Json

/-! ## The parts of a value -/

mutual
/-- The numbers in a value. -/
def numbers : Json → List Number
  | array items => numbersItems items
  | object members => numbersMembers members
  | number n => [n]
  | null | bool _ | string _ => []

def numbersItems : List Json → List Number
  | [] => []
  | v :: rest => v.numbers ++ numbersItems rest

def numbersMembers : List (String × Json) → List Number
  | [] => []
  | (_, v) :: rest => v.numbers ++ numbersMembers rest
end

mutual
/-- The tokens of a value. -/
def tokens : Json → List Token
  | null => [.null]
  | bool b => [.bool b]
  | number n => [.number (some n)]
  | string s => [.string (some s)]
  | array [] => [.openArray, .closeArray]
  | array (v :: items) => .openArray :: (v.tokens ++ tokensItems items ++ [.closeArray])
  | object [] => [.openObject, .closeObject]
  | object ((k, v) :: members) =>
    .openObject :: .string (some k) :: .colon :: (v.tokens ++ tokensMembers members ++ [.closeObject])

/-- The tokens of the items behind the first one. -/
def tokensItems : List Json → List Token
  | [] => []
  | v :: rest => .comma :: (v.tokens ++ tokensItems rest)

/-- The tokens of the members behind the first one. -/
def tokensMembers : List (String × Json) → List Token
  | [] => []
  | (k, v) :: rest => .comma :: .string (some k) :: .colon :: (v.tokens ++ tokensMembers rest)
end

/-! ## Scanning characters -/

namespace Scanner

/-- The state after some characters. -/
def scan (s : Scanner) (cs : List Char) : Option Scanner :=
  (cs.map some).foldlM step? s

theorem scan_cons (s : Scanner) (c : Char) (cs : List Char) :
    s.scan (c :: cs) = (s.step? (some c)).bind (scan · cs) :=
  rfl

theorem scan_append (s : Scanner) (cs ds : List Char) :
    s.scan (cs ++ ds) = (s.scan cs).bind (scan · ds) := by
  rw [scan, List.map_append, List.foldlM_append]
  rfl

/-- The tokens so far, a word that is still read being counted in. -/
inductive Settled : Scanner → List Token → Prop
  | between (ts : List Token) : Settled ⟨.between, ts⟩ ts
  | word {seen : List Char} {t : Token} (ts : List Token)
      (spells : Token.ofWord? seen.reverse = some t) : Settled ⟨.word seen, ts⟩ (t :: ts)

theorem Settled.step {s : Scanner} {ts : List Token} (h : s.Settled ts) {c : Char}
    (hc : endsWord c = true) : s.step? (some c) = some (outsideStep ts c) := by
  cases h with
  | between => rfl
  | word ts spells => simp [step?, hc, spells]

theorem Settled.finish {s : Scanner} {ts : List Token} (h : s.Settled ts) :
    s.finish? = some ts.reverse := by
  cases h with
  | between => rfl
  | word ts spells => simp [finish?, spells]

/-- The characters lead to settled tokens. -/
def Reaches (s : Scanner) (cs : List Char) (ts : List Token) : Prop :=
  ∃ s', s.scan cs = some s' ∧ s'.Settled ts

variable {s : Scanner} {cs ds : List Char} {ts us : List Token}

theorem Reaches.append (h : s.Reaches cs ts) (h' : ∀ s', Settled s' ts → s'.Reaches ds us) :
    s.Reaches (cs ++ ds) us := by
  obtain ⟨s₁, h₁, hs₁⟩ := h
  obtain ⟨s₂, h₂, hs₂⟩ := h' s₁ hs₁
  refine ⟨s₂, ?_, hs₂⟩
  rw [scan_append, h₁]
  exact h₂

/-! ## Separators -/

/-- A character that ends a word leads on from settled tokens as it does from between tokens. -/
theorem Settled.reaches_cons (h : s.Settled ts) {c : Char} (hc : endsWord c = true)
    (hcs : (outsideStep ts c).Reaches cs us) : s.Reaches (c :: cs) us := by
  obtain ⟨s', hs', hsettled⟩ := hcs
  refine ⟨s', ?_, hsettled⟩
  rw [scan_cons, h.step hc]
  exact hs'

theorem Settled.reaches_nil (h : s.Settled ts) : s.Reaches [] ts :=
  ⟨s, rfl, h⟩

theorem reaches_spaces (hcs : ∀ c ∈ cs, isSpace c = true) (h : s.Settled ts) :
    s.Reaches cs ts := by
  induction cs generalizing s with
  | nil => exact h.reaches_nil
  | cons c cs ih =>
    obtain ⟨hc, hrest⟩ := List.forall_mem_cons.1 hcs
    have hends : endsWord c = true := by simp [endsWord, hc]
    refine h.reaches_cons hends ?_
    rw [outsideStep, if_pos hc]
    exact ih hrest (.between ts)

/-- Behind a new line the scanner is between tokens. -/
theorem scan_newline {indent : List Char} (hi : ∀ c ∈ indent, isSpace c = true) (level : Nat)
    (h : s.Settled ts) : s.scan (newline indent level) = some ⟨.between, ts⟩ := by
  have hspaces : ∀ cs : List Char, (∀ c ∈ cs, isSpace c = true) →
      scan ⟨.between, ts⟩ cs = some ⟨.between, ts⟩ := by
    intro cs hcs
    induction cs with
    | nil => rfl
    | cons c cs ih =>
      obtain ⟨hc, hrest⟩ := List.forall_mem_cons.1 hcs
      rw [scan_cons, step?, Option.map_some, outsideStep, if_pos hc]
      exact ih hrest
  have hindent : ∀ c ∈ (List.replicate level indent).flatten, isSpace c = true := by
    intro c hc
    obtain ⟨line, hline, hc⟩ := List.mem_flatten.1 hc
    rw [List.eq_of_mem_replicate hline] at hc
    exact hi c hc
  rw [newline, scan_cons, h.step rfl]
  exact hspaces _ hindent

/-! ## Words -/

theorem outsideStep_of_not_endsWord {c : Char} (hc : endsWord c = false) :
    outsideStep ts c = ⟨.word [c], ts⟩ := by
  simp only [endsWord, Bool.or_eq_false_iff, decide_eq_false_iff_not] at hc
  obtain ⟨⟨hspace, hquote⟩, hpunctuation⟩ := hc
  rw [outsideStep, if_neg (by simp [hspace]), if_neg hquote]
  split
  · next heq => rw [heq] at hpunctuation; cases hpunctuation
  · rfl

theorem scan_word_rest (seen : List Char) (hcs : ∀ c ∈ cs, endsWord c = false) :
    scan ⟨.word seen, ts⟩ cs = some ⟨.word (cs.reverse ++ seen), ts⟩ := by
  induction cs generalizing seen with
  | nil => rfl
  | cons c cs ih =>
    obtain ⟨hc, hrest⟩ := List.forall_mem_cons.1 hcs
    have hstep : step? ⟨.word seen, ts⟩ (some c) = some ⟨.word (c :: seen), ts⟩ := by
      simp [step?, hc]
    rw [scan_cons, hstep, Option.bind_some, ih _ hrest, List.reverse_cons, List.append_assoc]
    rfl

theorem reaches_word {word : List Char} {t : Token} (h : Token.ofWord? word = some t) :
    Reaches ⟨.between, ts⟩ word (t :: ts) := by
  obtain ⟨hne, hall⟩ := Token.of_ofWord? h
  cases word with
  | nil => exact absurd rfl hne
  | cons c cs =>
    obtain ⟨hc, hrest⟩ := List.forall_mem_cons.1 hall
    refine ⟨⟨.word (cs.reverse ++ [c]), ts⟩, ?_, .word ts ?_⟩
    · rw [scan_cons, step?, Option.map_some, Option.bind_some, outsideStep_of_not_endsWord hc,
        scan_word_rest _ hrest]
    · rw [List.reverse_append, List.reverse_reverse]
      exact h

/-! ## Strings -/

theorem hexDigit?_digitChar {n : Nat} (h : n < 16) : hexDigit? n.digitChar = some n := by
  have hall : ∀ m : Fin 16, hexDigit? m.val.digitChar = some m.val := by decide
  exact hall ⟨n, h⟩

/-- One more digit of an escape. -/
theorem step_hexDigit {seen : List Char} {high : Option Nat} {missing bits n : Nat} {c : Char}
    (hc : hexDigit? c = some n) :
    step? ⟨.string (some seen) (.unit high missing bits), ts⟩ (some c) =
      some ⟨if missing = 1 then codeUnit (some seen) high (bits * 16 + n)
        else .string (some seen) (.unit high (missing - 1) (bits * 16 + n)), ts⟩ := by
  simp only [step?, unpaired, stringStep?, Option.bind_some, hc]
  split
  · next h => cases h.1
  · split <;> rfl

/-- A control character is written with four digits. -/
theorem scan_control {c : Char} (hc : c.toNat < 0x20) (seen : List Char) :
    scan ⟨.string (some seen) .none, ts⟩ (['\\', 'u', '0', '0'] ++ hexPair c.toNat) =
      some ⟨.string (some (c :: seen)) .none, ts⟩ := by
  have hprefix : scan ⟨.string (some seen) .none, ts⟩ ['\\', 'u', '0', '0'] =
      some ⟨.string (some seen) (.unit none 2 0), ts⟩ := rfl
  have hbits : (0 * 16 + c.toNat / 16 % 16) * 16 + c.toNat % 16 = c.toNat := by omega
  rw [scan_append, hprefix, Option.bind_some, hexPair, scan_cons,
    step_hexDigit (hexDigit?_digitChar (by omega)), Option.bind_some, if_neg (by decide), scan_cons,
    step_hexDigit (hexDigit?_digitChar (by omega)), Option.bind_some, if_pos rfl, hbits, codeUnit]
  rw [if_neg (by omega), if_neg (by omega), nextChar, Char.ofNat_toNat]
  rfl

theorem scan_escapeChar (c : Char) (seen : List Char) :
    scan ⟨.string (some seen) .none, ts⟩ (escapeChar c) =
      some ⟨.string (some (c :: seen)) .none, ts⟩ := by
  rw [escapeChar]
  split
  · next h => subst h; rfl
  split
  · next h => subst h; rfl
  split
  · next h => subst h; rfl
  split
  · next h => subst h; rfl
  split
  · next h => subst h; rfl
  split
  · next h => subst h; rfl
  split
  · next h => subst h; rfl
  split
  · next h => exact scan_control h seen
  · next hquote hbackslash _ _ _ _ _ hcontrol =>
    have hquote' : (some c = some '"') ↔ False := by simp [hquote]
    simp [scan, step?, unpaired, stringStep?, hquote, hbackslash, hcontrol, nextChar]

theorem scan_escaped (cs seen : List Char) :
    scan ⟨.string (some seen) .none, ts⟩ (cs.flatMap escapeChar) =
      some ⟨.string (some (cs.reverse ++ seen)) .none, ts⟩ := by
  induction cs generalizing seen with
  | nil => rfl
  | cons c cs ih =>
    rw [List.flatMap_cons, scan_append, scan_escapeChar, Option.bind_some, ih, List.reverse_cons,
      List.append_assoc]
    rfl

theorem scan_quoted (text : String) :
    scan ⟨.between, ts⟩ (quoted text) = some ⟨.between, .string (some text) :: ts⟩ := by
  have hopen : step? ⟨.between, ts⟩ (some '"') = some ⟨.string (some []) .none, ts⟩ := rfl
  rw [quoted, scan_cons, hopen, Option.bind_some, scan_append, scan_escaped, Option.bind_some]
  simp [scan, step?, unpaired, String.ofList_toList]

/-! ## Values -/

section Pretty

variable {indent : List Char} (hi : ∀ c ∈ indent, isSpace c = true)
include hi

/-- Whatever stands on a new line is scanned as behind the settled tokens. -/
theorem Settled.reaches_line (h : s.Settled ts) (level : Nat)
    (hcs : Reaches ⟨.between, ts⟩ cs us) : s.Reaches (newline indent level ++ cs) us := by
  obtain ⟨s', hs', hsettled⟩ := hcs
  refine ⟨s', ?_, hsettled⟩
  rw [scan_append, scan_newline hi level h]
  exact hs'

/-- A key on a new line. -/
theorem Settled.reaches_key (h : s.Settled ts) (level : Nat) (k : String)
    (hcs : Reaches ⟨.between, .colon :: .string (some k) :: ts⟩ cs us) :
    s.Reaches (newline indent level ++ (quoted k ++ ':' :: ' ' :: cs)) us := by
  refine h.reaches_line hi level ?_
  obtain ⟨s', hs', hsettled⟩ := hcs
  refine ⟨s', ?_, hsettled⟩
  rw [scan_append, scan_quoted]
  exact hs'

/-- A closing bracket on a new line. -/
theorem Settled.reaches_close (h : s.Settled ts) (level : Nat) {c : Char} {t : Token}
    (hc : outsideStep ts c = ⟨.between, t :: ts⟩) :
    s.Reaches (newline indent level ++ [c]) (t :: ts) := by
  refine h.reaches_line hi level ⟨⟨.between, t :: ts⟩, ?_, .between _⟩
  rw [scan_cons, step?, Option.map_some, hc]
  rfl

mutual
/-- The indented text of a value is scanned into its tokens. -/
theorem reaches_pretty (level : Nat) (ts : List Token) : (v : Json) →
    (∀ n ∈ v.numbers, n.ReadsBack) →
    Reaches ⟨.between, ts⟩ (v.prettyChars indent level) (v.tokens.reverse ++ ts)
  | .null, _ => reaches_word rfl
  | .bool true, _ => reaches_word rfl
  | .bool false, _ => reaches_word rfl
  | .number n, hn => by
    rw [numbers] at hn
    exact reaches_word (hn n List.mem_cons_self)
  | .string s, _ => ⟨_, scan_quoted s, .between _⟩
  | .array [], _ => ⟨_, rfl, .between _⟩
  | .array (v :: items), hn => by
    rw [numbers, numbersItems] at hn
    have hv := reaches_pretty (level + 1) (.openArray :: ts) v
      fun n h => hn n (List.mem_append_left _ h)
    have hbody := (hv.append fun s h => reaches_prettyItems (level + 1) _ items
      (fun n hn' => hn n (List.mem_append_right _ hn')) s h).append
      fun s h => h.reaches_close hi level (c := ']') (t := .closeArray) rfl
    have hline := (Settled.between (.openArray :: ts)).reaches_line hi (level + 1) hbody
    have hopen := (Settled.between ts).reaches_cons (c := '[') rfl hline
    rw [prettyChars, Json.tokens]
    simpa using hopen
  | .object [], _ => ⟨_, rfl, .between _⟩
  | .object ((k, v) :: members), hn => by
    rw [numbers, numbersMembers] at hn
    have hv := reaches_pretty (level + 1) (.colon :: .string (some k) :: .openObject :: ts) v
      fun n h => hn n (List.mem_append_left _ h)
    have hbody := (hv.append fun s h => reaches_prettyMembers (level + 1) _ members
      (fun n hn' => hn n (List.mem_append_right _ hn')) s h).append
      fun s h => h.reaches_close hi level (c := '}') (t := .closeObject) rfl
    have hkey := (Settled.between (.openObject :: ts)).reaches_key hi (level + 1) k hbody
    have hopen := (Settled.between ts).reaches_cons (c := '{') rfl hkey
    rw [prettyChars, Json.tokens]
    simpa using hopen

theorem reaches_prettyItems (level : Nat) (ts : List Token) : (items : List Json) →
    (∀ n ∈ numbersItems items, n.ReadsBack) → ∀ s, Settled s ts →
    s.Reaches (prettyItems indent level items) ((tokensItems items).reverse ++ ts)
  | [], _, _, h => h.reaches_nil
  | v :: rest, hn, s, h => by
    rw [numbersItems] at hn
    have hv := reaches_pretty level (.comma :: ts) v fun n h => hn n (List.mem_append_left _ h)
    have hbody := hv.append fun s h => reaches_prettyItems level _ rest
      (fun n hn' => hn n (List.mem_append_right _ hn')) s h
    have hline := (Settled.between (.comma :: ts)).reaches_line hi level hbody
    have hcomma := h.reaches_cons (c := ',') rfl hline
    rw [prettyItems, tokensItems]
    simpa using hcomma

theorem reaches_prettyMembers (level : Nat) (ts : List Token) : (members : List (String × Json)) →
    (∀ n ∈ numbersMembers members, n.ReadsBack) → ∀ s, Settled s ts →
    s.Reaches (prettyMembers indent level members) ((tokensMembers members).reverse ++ ts)
  | [], _, _, h => h.reaches_nil
  | (k, v) :: rest, hn, s, h => by
    rw [numbersMembers] at hn
    have hv := reaches_pretty level (.colon :: .string (some k) :: .comma :: ts) v
      fun n h => hn n (List.mem_append_left _ h)
    have hbody := hv.append fun s h => reaches_prettyMembers level _ rest
      (fun n hn' => hn n (List.mem_append_right _ hn')) s h
    have hkey := (Settled.between (.comma :: ts)).reaches_key hi level k hbody
    have hcomma := h.reaches_cons (c := ',') rfl hkey
    rw [prettyMembers, tokensMembers]
    simpa using hcomma
end

end Pretty

end Scanner

/-- White space behind a value changes nothing. -/
theorem tokens?_pretty {indent : List Char} (hi : ∀ c ∈ indent, isSpace c = true) {v : Json}
    (hn : ∀ n ∈ v.numbers, n.ReadsBack) {blank : List Char} (hb : ∀ c ∈ blank, isSpace c = true) :
    tokens? (v.prettyChars indent 0 ++ blank) = some v.tokens := by
  obtain ⟨s, hs, hsettled⟩ := (Scanner.reaches_pretty hi 0 [] v hn).append
    fun s h => Scanner.reaches_spaces hb h
  have hrun : Scanner.run? ((v.prettyChars indent 0 ++ blank).map some) = some s := hs
  rw [tokens?, hrun, Option.bind_some, hsettled.finish]
  simp

end ClusterLedger.Json
