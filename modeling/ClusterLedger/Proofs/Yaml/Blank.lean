import ClusterLedger.Text.Blank
import ClusterLedger.Yaml.Reader

/-!
# Texts without anything in them

White space alone is at most a plain scalar, so that a text with a mapping in it is not blank.
-/
namespace ClusterLedger.Yaml

/-- Nothing but white space comes next. -/
def AllBlank (input : Input) : Prop :=
  ∀ g ∈ input, Text.isBlank g.char = true

variable {input rest : Input} {g : Glyph} {c : Char}

theorem AllBlank.of_suffix (h : AllBlank input) (hrest : rest <:+ input) : AllBlank rest :=
  fun g hg => h g (hrest.subset hg)

theorem isBlank_of_lineBreak? {b : Char} (h : lineBreak? c = some b) (hc : Text.isBlank c = true) :
    Text.isBlank b = true := by
  rw [lineBreak?] at h
  split at h
  · cases h
    decide
  · split at h
    · cases h
      exact hc
    · cases h

theorem allBlank_placed {cs : List Char} (h : ∀ c ∈ cs, Text.isBlank c = true)
    (line column index : Nat) : AllBlank (placed line column index cs) := by
  fun_induction placed line column index cs with
  | case1 => exact nofun
  | case2 line column index cs ih =>
    have hbreak : Text.isBlank '\n' = true := by decide
    refine List.forall_mem_cons.2 ⟨hbreak, ih fun c hc => h c ?_⟩
    exact List.mem_cons_of_mem _ (List.mem_cons_of_mem _ hc)
  | case3 line column index c cs _ b hbreak ih =>
    obtain ⟨hc, hcs⟩ := List.forall_mem_cons.1 h
    exact List.forall_mem_cons.2 ⟨isBlank_of_lineBreak? hbreak hc, ih hcs⟩
  | case4 line column index c cs _ hbreak ih =>
    obtain ⟨hc, hcs⟩ := List.forall_mem_cons.1 h
    exact List.forall_mem_cons.2 ⟨hc, ih hcs⟩

/-! ## What the reader leaves -/

theorem plainFrom_suffix {flow : Bool} {least : Nat} {seen : List Char} {gap : Gap} {p : Plain}
    (h : plainFrom flow least seen gap input = some p) : p.rest <:+ input := by
  fun_induction plainFrom flow least seen gap input with
  | case1 => cases h; exact List.suffix_refl _
  | case2 => cases h
  | case3 seen gap g rest _ _ ih => exact (ih h).trans (List.suffix_cons g rest)
  | case4 => cases h; exact List.suffix_refl _
  | case5 => cases h
  | case6 => cases h; exact List.suffix_refl _
  | case7 seen gap g rest _ _ _ _ _ ih => exact (ih h).trans (List.suffix_cons g rest)

theorem skip_suffix (flow allowsKey comment : Bool) (input : Input) :
    (Scanner.skip flow allowsKey comment input).2 <:+ input := by
  fun_induction Scanner.skip flow allowsKey comment input with
  | case1 => exact List.suffix_refl _
  | case2 _ _ g rest _ ih => exact ih.trans (List.suffix_cons g rest)
  | case3 _ g rest _ ih => exact ih.trans (List.suffix_cons g rest)
  | case4 _ _ g rest _ _ _ ih => exact ih.trans (List.suffix_cons g rest)
  | case5 _ _ g rest _ _ _ _ ih => exact ih.trans (List.suffix_cons g rest)
  | case6 _ _ g rest _ _ _ _ _ ih => exact ih.trans (List.suffix_cons g rest)
  | case7 => exact List.suffix_refl _

/-! ## Tokens of white space -/

namespace Scanner

variable {s s' : Scanner}

/-- No block is open, and there are only plain scalars so far. -/
structure OnlyPlain (s : Scanner) : Prop where
  columns : s.columns = []
  tokens : ∀ t ∈ s.tokens, ∃ text, t = .scalar .plain text

theorem OnlyPlain.of_eq (h : s.OnlyPlain) (hcolumns : s'.columns = s.columns)
    (htokens : s'.tokens = s.tokens) : s'.OnlyPlain :=
  ⟨hcolumns.trans h.columns, htokens.symm ▸ h.tokens⟩

theorem OnlyPlain.closeBlocks (h : s.OnlyPlain) (column : Nat) : (s.closeBlocks column).OnlyPlain := by
  rw [Scanner.closeBlocks]
  split
  · exact h
  · refine h.of_eq ?_ ?_ <;> simp [h.columns]

theorem OnlyPlain.forget? (h : s.OnlyPlain) (hs : s.forget? = some s') : s'.OnlyPlain := by
  obtain ⟨_, -, rfl⟩ := Option.map_eq_some_iff.1 hs
  exact h.of_eq rfl rfl

theorem OnlyPlain.expire? (h : s.OnlyPlain) (hs : s.expire? g = some s') : s'.OnlyPlain := by
  simp only [Scanner.expire?, Option.bind_eq_bind, Option.bind_eq_some_iff] at hs
  obtain ⟨_, -, _, -, hs⟩ := hs
  cases hs
  exact h.of_eq rfl rfl

theorem OnlyPlain.remember? (h : s.OnlyPlain) (hs : s.remember? g = some s') : s'.OnlyPlain := by
  rw [Scanner.remember?] at hs
  split at hs
  · obtain ⟨s₁, hs₁, rfl⟩ := Option.map_eq_some_iff.1 hs
    exact (h.forget? hs₁).of_eq rfl rfl
  · cases hs
    exact h

theorem OnlyPlain.plain? (h : s.OnlyPlain) (hs : s.plain? g input = some (s', rest)) :
    s'.OnlyPlain ∧ rest <:+ g :: input := by
  simp only [Scanner.plain?, Option.bind_eq_bind, Option.bind_eq_some_iff] at hs
  obtain ⟨s₁, hs₁, p, hp, hs⟩ := hs
  cases hs
  have h₁ := h.remember? hs₁
  refine ⟨⟨h₁.columns, ?_⟩, plainFrom_suffix hp⟩
  exact List.forall_mem_cons.2 ⟨⟨p.text, rfl⟩, h₁.tokens⟩

theorem atMarker_of_ne {mark : Char} (h : g.char ≠ mark) : atMarker mark (g :: input) = false := by
  match input with
  | [] => rfl
  | [_] => rfl
  | _ :: _ :: _ => simp [atMarker, h]

/-- White space is at most a plain scalar. -/
theorem OnlyPlain.token? (h : s.OnlyPlain) (hg : Text.isBlank g.char = true)
    (hs : s.token? g input = some (s', rest)) : s'.OnlyPlain ∧ rest <:+ g :: input := by
  have hne {c : Char} (hc : Text.isBlank c = false) : g.char ≠ c :=
    fun he => Bool.false_ne_true (hc.symm.trans (he ▸ hg))
  have hplain : s.token? g input =
      if startsPlain s.inFlow (g :: input) then s.plain? g input else none := by
    simp [Scanner.token?, atMarker_of_ne (hne (c := '-') (by decide)),
      atMarker_of_ne (hne (c := '.') (by decide)), hne (c := '[') (by decide),
      hne (c := '{') (by decide), hne (c := ']') (by decide), hne (c := '}') (by decide),
      hne (c := ',') (by decide), hne (c := '"') (by decide), hne (c := '\'') (by decide),
      hne (c := '-') (by decide), hne (c := '?') (by decide), hne (c := ':') (by decide)]
  rw [hplain] at hs
  split at hs
  · exact h.plain? hs
  · cases hs

theorem OnlyPlain.scan? (h : s.OnlyPlain) (hinput : AllBlank input) {fuel : Nat}
    (hs : scan? fuel s input = some s') : s'.OnlyPlain := by
  induction fuel generalizing s input with
  | zero => cases hs
  | succ fuel ih =>
    have hsuffix := skip_suffix s.inFlow s.allowsKey false input
    rw [Scanner.scan?] at hs
    generalize skip s.inFlow s.allowsKey false input = skipped at hs hsuffix
    obtain ⟨allowsKey, rest⟩ := skipped
    cases rest with
    | nil => exact (h.closeBlocks 0).forget? hs
    | cons g rest =>
      simp only [Option.bind_eq_bind, Option.bind_eq_some_iff] at hs
      obtain ⟨s₁, hs₁, ⟨s₂, rest'⟩, hs₂, hs⟩ := hs
      have hblank := hinput.of_suffix hsuffix
      have hopen : OnlyPlain { s with allowsKey } := h.of_eq rfl rfl
      have h₁ := hopen.expire? hs₁
      obtain ⟨h₂, hrest⟩ := (h₁.closeBlocks (g.column + 1)).token? (hblank g List.mem_cons_self) hs₂
      exact ih h₂ (hblank.of_suffix hrest) hs

end Scanner

/-- White space alone is at most a plain scalar. -/
theorem read?_of_blank {s : String} {v : Yaml} (h : Text.blank s = true) (hv : read? s = some v) :
    ∃ text, v = .scalar none .plain text := by
  have hblank : ∀ c ∈ s.toList, Text.isBlank c = true := List.all_eq_true.1 h
  simp only [read?, Option.bind_eq_bind, Option.bind_eq_some_iff] at hv
  obtain ⟨ts, ⟨input, hinput, hts⟩, hv⟩ := hv
  obtain ⟨s', hs', rfl⟩ := Option.map_eq_some_iff.1 hts
  have hplaced : input = placed 0 0 0 s.toList := by
    rw [input?] at hinput
    split at hinput
    · exact (Option.some.inj hinput).symm
    · cases hinput
  have hall : AllBlank input := hplaced ▸ allBlank_placed hblank 0 0 0
  have hstart : Scanner.OnlyPlain {} := ⟨rfl, nofun⟩
  have htokens : ∀ t ∈ s'.tokens.reverse, ∃ text, t = .scalar .plain text :=
    fun t ht => (hstart.scan? hall hs').tokens t (List.mem_reverse.1 ht)
  cases hreverse : s'.tokens.reverse with
  | nil =>
    rw [hreverse] at hv
    exact ⟨"", (Option.some.inj hv).symm⟩
  | cons t ts =>
    rw [hreverse] at hv htokens
    obtain ⟨text, rfl⟩ := htokens t List.mem_cons_self
    have hnode : node? (steps (.scalar .plain text :: ts)) true false (.scalar .plain text :: ts) =
        some (.scalar none .plain text, ts) := rfl
    simp only [document?, hnode, Option.bind_eq_bind, Option.bind_some] at hv
    split at hv
    · exact ⟨text, (Option.some.inj hv).symm⟩
    · cases hv

/-- In white space alone a reader of YAML finds no mapping. -/
def Reader.PassesBlanks (yaml : Reader) : Prop :=
  ∀ s, Text.blank s = true → ∀ tag entries, yaml s ≠ some (.mapping tag entries)

theorem passesBlanks_read? : Reader.PassesBlanks read? := by
  intro s hblank tag entries h
  obtain ⟨text, hscalar⟩ := read?_of_blank hblank h
  cases hscalar

end ClusterLedger.Yaml
