/-!
# Cutting text

Taking a known beginning or end off a text, cutting at a character, and trimming one character.
All of it is recursion on the characters; the versions on `String` only wrap and unwrap.
-/
namespace ClusterLedger.Text

/-! ## On characters -/

/-- What follows `p` in the list, when the list starts with it. -/
def afterChars? : (p cs : List Char) → Option (List Char)
  | [], cs => some cs
  | _ :: _, [] => none
  | a :: p, c :: cs => if a = c then afterChars? p cs else none

theorem afterChars?_eq_some {p cs rest : List Char} :
    afterChars? p cs = some rest ↔ cs = p ++ rest := by
  induction p generalizing cs with
  | nil => simp [afterChars?, eq_comm]
  | cons a p ih =>
    cases cs with
    | nil => simp [afterChars?]
    | cons c cs => by_cases h : a = c <;> simp [afterChars?, h, ih, eq_comm]

/-- The first part up to the mark and the rest behind it, when the mark occurs. -/
def cutChars? (mark : Char) : List Char → Option (List Char × List Char)
  | [] => none
  | c :: cs => if c = mark then some ([], cs)
    else (cutChars? mark cs).map fun (before, behind) => (c :: before, behind)

theorem cutChars?_eq_some {mark : Char} {cs before behind : List Char} :
    cutChars? mark cs = some (before, behind) ↔ cs = before ++ mark :: behind ∧ mark ∉ before := by
  induction cs generalizing before with
  | nil => simp [cutChars?]
  | cons c cs ih =>
    by_cases h : c = mark
    · subst h
      simp only [cutChars?, if_true, Option.some.injEq, Prod.mk.injEq]
      constructor
      · rintro ⟨rfl, rfl⟩; simp
      · cases before with
        | nil => simp
        | cons b bs => rintro ⟨hc, hn⟩; simp_all
    · simp only [cutChars?, h, if_false, Option.map_eq_some_iff, Prod.mk.injEq]
      constructor
      · rintro ⟨⟨b, r⟩, hb, rfl, rfl⟩
        obtain ⟨rfl, hn⟩ := ih.1 hb
        exact ⟨rfl, by simp [hn, Ne.symm h]⟩
      · cases before with
        | nil => rintro ⟨hc, _⟩; simp_all
        | cons b bs =>
          rintro ⟨hc, hn⟩
          simp only [List.cons_append, List.cons.injEq] at hc
          exact ⟨(bs, behind), ih.2 ⟨hc.2, by simp_all⟩, by simp [hc.1], rfl⟩

/-- Leaves out the longest end all of whose characters satisfy `p`. -/
def dropEnd (p : Char → Bool) (cs : List Char) : List Char :=
  (cs.reverse.dropWhile p).reverse

/-- Leaves out the longest beginning and the longest end all of whose characters satisfy `p`. -/
def dropEnds (p : Char → Bool) (cs : List Char) : List Char :=
  dropEnd p (cs.dropWhile p)

/-! ## On text -/

/-- What follows `p` in `s`, when `s` starts with it. -/
def after? (p s : String) : Option String :=
  (afterChars? p.toList s.toList).map String.ofList

theorem after?_eq_some {p s rest : String} : after? p s = some rest ↔ s = p ++ rest := by
  rw [after?, Option.map_eq_some_iff]
  constructor
  · rintro ⟨cs, h, rfl⟩
    rw [afterChars?_eq_some] at h
    rw [← String.toList_inj, h, String.toList_append, String.toList_ofList]
  · rintro rfl
    exact ⟨rest.toList, afterChars?_eq_some.2 String.toList_append, String.ofList_toList⟩

/-- What stands before `p` in `s`, when `s` ends with it. -/
def before? (p s : String) : Option String :=
  (afterChars? p.toList.reverse s.toList.reverse).map fun cs => String.ofList cs.reverse

theorem before?_eq_some {p s rest : String} : before? p s = some rest ↔ s = rest ++ p := by
  rw [before?, Option.map_eq_some_iff]
  constructor
  · rintro ⟨cs, h, rfl⟩
    rw [afterChars?_eq_some] at h
    rw [← String.toList_inj, ← s.toList.reverse_reverse, h]
    simp
  · rintro rfl
    refine ⟨rest.toList.reverse, afterChars?_eq_some.2 ?_, by simp⟩
    simp

/-- The text before the first `mark` and the text behind it, when `mark` occurs. -/
def cut? (mark : Char) (s : String) : Option (String × String) :=
  (cutChars? mark s.toList).map fun (a, b) => (String.ofList a, String.ofList b)

/-- The parts between the marks; there is one more part than there are marks. -/
def segments (mark : Char) (s : String) : List String :=
  (s.toList.splitOn mark).map String.ofList

/-- Leaves out every `c` at the end. -/
def trimEnd (c : Char) (s : String) : String :=
  String.ofList (dropEnd (· == c) s.toList)

/-- Leaves out every `c` at the beginning. -/
def trimStart (c : Char) (s : String) : String :=
  String.ofList (s.toList.dropWhile (· == c))

/-- Leaves out every `c` at both ends. -/
def trimBoth (c : Char) (s : String) : String :=
  String.ofList (dropEnds (· == c) s.toList)

/-- The texts one after the other with `sep` between any two. -/
def join (sep : String) (parts : List String) : String :=
  String.intercalate sep parts

end ClusterLedger.Text
