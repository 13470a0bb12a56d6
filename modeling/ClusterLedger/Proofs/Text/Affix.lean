import ClusterLedger.Text.Affix

/-!
# Texts around a mark

A text is cut in one way only at the first mark in it. What is trimmed once has nothing left to
trim.
-/
namespace ClusterLedger.Text

theorem append_mark_inj {mark : Char} {a b c d : List Char} (h : a ++ mark :: b = c ++ mark :: d)
    (ha : mark ∉ a) (hc : mark ∉ c) : a = c ∧ b = d := by
  have hcut := cutChars?_eq_some.2 ⟨h, hc⟩
  rw [cutChars?_eq_some.2 ⟨rfl, ha⟩] at hcut
  cases hcut
  exact ⟨rfl, rfl⟩

/-- A text is cut in one way only at the last mark in it. -/
theorem append_last_mark_inj {mark : Char} {a b c d : List Char}
    (h : a ++ mark :: b = c ++ mark :: d) (hb : mark ∉ b) (hd : mark ∉ d) : a = c ∧ b = d := by
  have hreverse := congrArg List.reverse h
  simp only [List.reverse_append, List.reverse_cons, List.append_assoc, List.singleton_append]
    at hreverse
  obtain ⟨hbd, hac⟩ :=
    append_mark_inj hreverse (mt List.mem_reverse.1 hb) (mt List.mem_reverse.1 hd)
  exact ⟨List.reverse_inj.1 hac, List.reverse_inj.1 hbd⟩

theorem append_underscore_inj {a b c d : String} (h : a ++ "_" ++ b = c ++ "_" ++ d)
    (ha : '_' ∉ a.toList) (hc : '_' ∉ c.toList) : a = c ∧ b = d := by
  have hl := congrArg String.toList h
  simp only [String.toList_append, List.append_assoc] at hl
  obtain ⟨h₁, h₂⟩ := append_mark_inj hl ha hc
  exact ⟨String.toList_inj.1 h₁, String.toList_inj.1 h₂⟩

theorem append_left_cancel {p a b : String} (h : p ++ a = p ++ b) : a = b := by
  have hl := congrArg String.toList h
  rw [String.toList_append, String.toList_append] at hl
  exact String.toList_inj.1 (List.append_cancel_left hl)

theorem cut?_eq_some {mark : Char} {s before behind : String} :
    cut? mark s = some (before, behind) ↔
      s.toList = before.toList ++ mark :: behind.toList ∧ mark ∉ before.toList := by
  rw [cut?, Option.map_eq_some_iff]
  constructor
  · rintro ⟨⟨a, b⟩, h, ⟨⟩⟩
    rw [String.toList_ofList, String.toList_ofList]
    exact cutChars?_eq_some.1 h
  · intro h
    exact ⟨_, cutChars?_eq_some.2 h, by simp [String.ofList_toList]⟩

theorem cut?_eq_none {mark : Char} {s : String} : cut? mark s = none ↔ mark ∉ s.toList := by
  constructor
  · intro h hmem
    obtain ⟨before, behind, hs, hbefore⟩ := List.eq_append_cons_of_mem hmem
    rw [cut?, cutChars?_eq_some.2 ⟨hs, hbefore⟩] at h
    cases h
  · intro h
    cases hc : cut? mark s with
    | none => rfl
    | some parts =>
      rw [(cut?_eq_some.1 hc).1] at h
      exact absurd (List.mem_append_right _ List.mem_cons_self) h

theorem after?_append (p s : String) : after? p (p ++ s) = some s :=
  after?_eq_some.2 rfl

theorem after?_eq_none {p s : String} (h : ∀ rest, s ≠ p ++ rest) : after? p s = none := by
  cases ha : after? p s with
  | none => rfl
  | some rest => exact absurd (after?_eq_some.1 ha) (h rest)

/-! ## Segments -/

theorem segments_of_not_mem {mark : Char} {s : String} (h : mark ∉ s.toList) :
    segments mark s = [s] := by
  rw [segments, List.splitOn_eq_singleton h, List.map_singleton, String.ofList_toList]

/-- There is a part before the first mark, and at least one after it. -/
theorem segments_of_mem {mark : Char} {s : String} (h : mark ∈ s.toList) :
    ∃ front rest, segments mark s = front :: rest ∧ rest ≠ [] ∧
      front.toList ++ [mark] <+: s.toList := by
  obtain ⟨before, after, hs, hbefore⟩ := List.eq_append_cons_of_mem h
  refine ⟨String.ofList before, (after.splitOn mark).map String.ofList, ?_, by simp, ?_⟩
  · rw [segments, hs, List.splitOn_append_cons_self, List.splitOn_eq_singleton hbefore]
    rfl
  · exact ⟨after, by rw [String.toList_ofList, hs, List.append_assoc, List.singleton_append]⟩

theorem segments_append_dot (a b : String) :
    segments '.' (a ++ "." ++ b) = segments '.' a ++ segments '.' b := by
  have hlist : (a ++ "." ++ b).toList = a.toList ++ '.' :: b.toList := by
    simp [String.toList_append]
  rw [segments, hlist, List.splitOn_append_cons_self, List.map_append, segments, segments]

theorem join_segments (s : String) : join "." (segments '.' s) = s := by
  have hself : String.toList ∘ String.ofList = id := funext fun _ => String.toList_ofList
  rw [← String.toList_inj, join, String.toList_intercalate, segments, List.map_map, hself,
    List.map_id]
  exact List.intercalate_splitOn '.'

theorem not_mem_of_mem_splitOn {mark : Char} {cs part : List Char} (h : part ∈ cs.splitOn mark) :
    mark ∉ part := by
  induction cs generalizing part with
  | nil =>
    rw [List.splitOn_nil, List.mem_singleton] at h
    rw [h]
    exact List.not_mem_nil
  | cons c cs ih =>
    obtain ⟨first, rest, hsplit⟩ := List.exists_cons_of_ne_nil (List.splitOn_ne_nil mark cs)
    rw [List.splitOn_cons_eq_if_modifyHead, hsplit] at h
    rw [hsplit] at ih
    split at h
    · rcases List.mem_cons.1 h with rfl | h
      · exact List.not_mem_nil
      · exact ih h
    · next hc =>
      rcases List.mem_cons.1 h with rfl | h
      · have hne : mark ≠ c := fun he => hc (by simp [he])
        exact List.not_mem_cons_of_ne_of_not_mem hne (ih List.mem_cons_self)
      · exact ih (List.mem_cons_of_mem _ h)

/-- What a text ends in without a mark, its last segment ends in as well. -/
theorem suffix_getLast_splitOn {mark : Char} {last : List Char} (h : mark ∉ last) (cs : List Char) :
    last <:+ ((cs ++ last).splitOn mark).getLastD [] := by
  induction cs with
  | nil =>
    rw [List.nil_append, List.splitOn_eq_singleton h]
    exact List.suffix_refl last
  | cons c cs ih =>
    obtain ⟨first, rest, hsplit⟩ :=
      List.exists_cons_of_ne_nil (List.splitOn_ne_nil mark (cs ++ last))
    rw [hsplit] at ih
    rw [List.cons_append, List.splitOn_cons_eq_if_modifyHead, hsplit]
    split
    · exact ih
    · cases rest with
      | nil => exact ih.trans (List.suffix_cons c first)
      | cons second rest => exact ih

theorem suffix_getLast_segments {mark : Char} {last : String} (h : mark ∉ last.toList)
    (s : String) :
    last.toList <:+ ((segments mark (s ++ last)).getLastD "").toList := by
  have hmap (parts : List (List Char)) :
      (parts.map String.ofList).getLastD "" = String.ofList (parts.getLastD []) := by
    rw [List.getLastD_eq_getLast?, List.getLastD_eq_getLast?, List.getLast?_map]
    exact Option.getD_map String.ofList [] _
  rw [segments, String.toList_append, hmap, String.toList_ofList]
  exact suffix_getLast_splitOn h s.toList

/-- The segments of a dotted text: there is at least one, and none has a dot. -/
structure Splits (parts : List String) (s : String) : Prop where
  ne_nil : parts ≠ []
  dotless : ∀ part ∈ parts, '.' ∉ part.toList
  joined : s = join "." parts

theorem splits_segments (s : String) : Splits (segments '.' s) s := by
  refine ⟨?_, ?_, (join_segments s).symm⟩
  · rw [segments, Ne, List.map_eq_nil_iff]
    exact List.splitOn_ne_nil _ _
  · intro part hpart
    obtain ⟨cs, hcs, rfl⟩ := List.mem_map.1 hpart
    rw [String.toList_ofList]
    exact not_mem_of_mem_splitOn hcs

theorem Splits.segments_eq {parts : List String} {s : String} (h : Splits parts s) :
    segments '.' s = parts := by
  have hself : String.ofList ∘ String.toList = id := funext fun _ => String.ofList_toList
  have hsplit : (['.'].intercalate (parts.map String.toList)).splitOn '.' =
      parts.map String.toList := by
    refine List.splitOn_intercalate '.' ?_ ?_
    · intro cs hcs
      obtain ⟨part, hpart, rfl⟩ := List.mem_map.1 hcs
      exact h.dotless part hpart
    · rw [Ne, List.map_eq_nil_iff]
      exact h.ne_nil
  have hjoined : s.toList = ['.'].intercalate (parts.map String.toList) := by
    rw [h.joined, join, String.toList_intercalate]
    rfl
  rw [segments, hjoined, hsplit, List.map_map, hself, List.map_id]

theorem splits_iff {parts : List String} {s : String} : Splits parts s ↔ segments '.' s = parts :=
  ⟨Splits.segments_eq, fun h => h ▸ splits_segments s⟩

/-! ## Trimmed texts -/

theorem dropWhile_of_head? {p : Char → Bool} {cs : List Char}
    (h : ∀ c, cs.head? = some c → p c = false) : cs.dropWhile p = cs := by
  cases cs with
  | nil => rfl
  | cons c cs => rw [List.dropWhile_cons, h c rfl]; rfl

theorem head?_dropWhile {p : Char → Bool} {cs : List Char} {c : Char}
    (h : (cs.dropWhile p).head? = some c) : p c = false := by
  have hhead := List.head?_dropWhile_not p cs
  rw [h] at hhead
  simpa using hhead

theorem head?_dropEnd {p : Char → Bool} {cs : List Char} {c : Char}
    (h : (dropEnd p cs).head? = some c) : cs.head? = some c := by
  have happend : cs = dropEnd p cs ++ (cs.reverse.takeWhile p).reverse := by
    rw [dropEnd, ← List.reverse_append, List.takeWhile_append_dropWhile, List.reverse_reverse]
  rw [happend, List.head?_append, h]
  rfl

/-- No character of `p` stands at either end. -/
structure Trimmed (p : Char → Bool) (cs : List Char) : Prop where
  head : ∀ c ∈ cs.head?, p c = false
  last : ∀ c ∈ cs.getLast?, p c = false

instance (p : Char → Bool) (cs : List Char) : Decidable (Trimmed p cs) :=
  decidable_of_iff (cs.head?.all (!p ·) ∧ cs.getLast?.all (!p ·)) <| by
    simp only [Option.all_eq_true, Bool.not_eq_true']
    exact ⟨fun h => ⟨h.1, h.2⟩, fun h => ⟨h.head, h.last⟩⟩

theorem dropEnd_append {p : Char → Bool} {cs right : List Char} (hright : ∀ c ∈ right, p c = true)
    (hlast : ∀ c ∈ cs.getLast?, p c = false) : dropEnd p (cs ++ right) = cs := by
  have hreverse : ∀ c ∈ right.reverse, p c = true := fun c hc => hright c (List.mem_reverse.1 hc)
  rw [dropEnd, List.reverse_append, List.dropWhile_append_of_pos hreverse, dropWhile_of_head?,
    List.reverse_reverse]
  rw [List.head?_reverse]
  exact hlast

/-- What is left without the characters at the end, and what was left out. -/
theorem dropEnd_eq_iff {p : Char → Bool} {cs body : List Char} :
    dropEnd p cs = body ↔ (∀ c ∈ body.getLast?, p c = false) ∧
      ∃ right, cs = body ++ right ∧ ∀ c ∈ right, p c = true := by
  constructor
  · rintro rfl
    refine ⟨fun c hc => ?_, (cs.reverse.takeWhile p).reverse, ?_, fun c hc => ?_⟩
    · rw [dropEnd, List.getLast?_reverse] at hc
      exact head?_dropWhile hc
    · rw [dropEnd, ← List.reverse_append, List.takeWhile_append_dropWhile, List.reverse_reverse]
    · exact List.all_eq_true.1 List.all_takeWhile c (List.mem_reverse.1 hc)
  · rintro ⟨hlast, right, rfl, hright⟩
    exact dropEnd_append hright hlast

/-- What is left without the characters at both ends, and what was left out. -/
theorem dropEnds_eq_iff {p : Char → Bool} {cs body : List Char} :
    dropEnds p cs = body ↔ Trimmed p body ∧ ∃ left right, cs = left ++ (body ++ right) ∧
      (∀ c ∈ left, p c = true) ∧ ∀ c ∈ right, p c = true := by
  constructor
  · intro h
    obtain ⟨hlast, right, hcs, hright⟩ := dropEnd_eq_iff.1 h
    refine ⟨⟨fun c hc => head?_dropWhile (head?_dropEnd (h ▸ hc)), hlast⟩,
      cs.takeWhile p, right, ?_, List.all_eq_true.1 List.all_takeWhile, hright⟩
    rw [← hcs, List.takeWhile_append_dropWhile]
  · rintro ⟨⟨hhead, hlast⟩, left, right, rfl, hleft, hright⟩
    rw [dropEnds, List.dropWhile_append_of_pos hleft]
    cases body with
    | nil =>
      rw [List.nil_append, ← List.append_nil right, List.dropWhile_append_of_pos hright]
      rfl
    | cons c body =>
      rw [dropWhile_of_head?, dropEnd_append hright hlast]
      exact hhead

theorem ofList_dropEnds_eq_iff {p : Char → Bool} {s body : String} :
    String.ofList (dropEnds p s.toList) = body ↔ Trimmed p body.toList ∧
      ∃ left right : String, s = left ++ body ++ right ∧ (∀ c ∈ left.toList, p c = true) ∧
        ∀ c ∈ right.toList, p c = true := by
  rw [← String.toList_inj, String.toList_ofList, dropEnds_eq_iff]
  refine and_congr_right fun _ => ⟨?_, ?_⟩
  · rintro ⟨left, right, hs, hleft, hright⟩
    refine ⟨String.ofList left, String.ofList right, ?_, ?_, ?_⟩
    · rw [← String.toList_inj, hs]
      simp [String.toList_append]
    · rwa [String.toList_ofList]
    · rwa [String.toList_ofList]
  · rintro ⟨left, right, rfl, hleft, hright⟩
    exact ⟨left.toList, right.toList, by simp [String.toList_append], hleft, hright⟩

theorem trimBoth_trimBoth (c : Char) (s : String) : trimBoth c (trimBoth c s) = trimBoth c s := by
  obtain ⟨htrimmed, -⟩ := ofList_dropEnds_eq_iff.1 (rfl : trimBoth c s = trimBoth c s)
  exact ofList_dropEnds_eq_iff.2 ⟨htrimmed, "", "", by simp, nofun, nofun⟩

end ClusterLedger.Text
