import ClusterLedger.Lock.Instant
import ClusterLedger.Proofs.Except
import ClusterLedger.Proofs.Text.Digits

/-!
# Instants read back

Every instant that a clock can show is read back from its stamp: days and dates determine each other,
and the numbers of a stamp stand in it with their width.
-/
namespace ClusterLedger

/-! ## The calendar -/

namespace Date

section

variable {day year : Int} (hday : 0 ≤ day) (hlast : day < 146097)
  (hyear : year = (day - day / 1460 + day / 36524 - day / 146096) / 365)
include hday hlast hyear

/-- A day of an era of 400 years lies in one of these years. -/
theorem year_of_era : 0 ≤ year ∧ year < 400 := by
  omega

theorem century_of_era (hne : day ≠ 146096) : year / 100 = day / 36524 := by
  have hera : day / 146096 = 0 := by omega
  rw [hera] at hyear
  generalize hcenturies : day / 36524 = century at *
  have hcentury : century = 0 ∨ century = 1 ∨ century = 2 ∨ century = 3 := by omega
  rcases hcentury with rfl | rfl | rfl | rfl <;> omega

/-- The days before the year, and those of the year. -/
theorem dayOfYear_of_era :
    0 ≤ day - (365 * year + year / 4 - year / 100) ∧
      day - (365 * year + year / 4 - year / 100) ≤ 365 := by
  by_cases hne : day = 146096
  · omega
  have hcentury := century_of_era hday hlast hyear hne
  have hera : day / 146096 = 0 := by omega
  rw [hera] at hyear
  rw [hcentury]
  generalize hcenturies : day / 36524 = century at *
  have hcycle : year / 4 ≤ day / 1460 ∧ day / 1460 ≤ year / 4 + 1 := by omega
  omega

/-- Only a year that ends with February of a leap year has a day more. -/
theorem leap_of_era (h : day - (365 * year + year / 4 - year / 100) = 365) :
    isLeap (year + 1) = true := by
  rw [isLeap, decide_eq_true_eq]
  by_cases hne : day = 146096
  · omega
  have hcentury := century_of_era hday hlast hyear hne
  have hera : day / 146096 = 0 := by omega
  rw [hera] at hyear
  rw [hcentury] at h
  generalize hcenturies : day / 36524 = century at *
  have hcycle : day / 1460 = year / 4 + 1 := by omega
  have hlast : year % 4 = 3 ∧ year % 100 ≠ 99 := by omega
  omega

end

/-- The day behind the end of February, as a month and a day. -/
theorem month_of_day {day month : Int} (hday : 0 ≤ day) (hlast : day ≤ 365)
    (hmonth : month = (5 * day + 2) / 153) : 0 ≤ month ∧ month ≤ 11 ∧
      0 ≤ day - (153 * month + 2) / 5 ∧ day - (153 * month + 2) / 5 ≤ 30 := by
  omega

theorem isLeap_add_era (year era : Int) : isLeap (year + era * 400) = isLeap year := by
  rw [isLeap, isLeap, decide_eq_decide]
  omega

/-- What a date is made of: the year of an era, beginning in March, and the day in it. -/
theorem ofDays_eq (days : Int) : ∃ era year day month : Int,
    days + 719468 = era * 146097 + (365 * year + year / 4 - year / 100 + day) ∧
      0 ≤ year ∧ year < 400 ∧ 0 ≤ day ∧ day ≤ 365 ∧ (day = 365 → isLeap (year + 1)) ∧
      month = (5 * day + 2) / 153 ∧
      ofDays days = ⟨year + era * 400 + (if (if month < 10 then month + 3 else month - 9) ≤ 2
        then 1 else 0), (if month < 10 then month + 3 else month - 9).toNat,
        (day - (153 * month + 2) / 5 + 1).toNat⟩ := by
  have hfirst : 0 ≤ days + 719468 - (days + 719468) / 146097 * 146097 := by omega
  have hlast : days + 719468 - (days + 719468) / 146097 * 146097 < 146097 := by omega
  obtain ⟨hyear, hyear'⟩ := year_of_era hfirst hlast rfl
  obtain ⟨hday, hday'⟩ := dayOfYear_of_era hfirst hlast rfl
  exact ⟨_, _, _, _, by omega, hyear, hyear', hday, hday', leap_of_era hfirst hlast rfl, rfl, rfl⟩

theorem toDays_ofDays (days : Int) : (ofDays days).toDays = days := by
  obtain ⟨era, year, day, month, hdays, hyear, hyear', hday, hday', -, hmonth, hdate⟩ :=
    ofDays_eq days
  obtain ⟨hfirst, hlast, hnumber, -⟩ := month_of_day hday hday' hmonth
  have hera : (year + era * 400) / 400 = era := by omega
  rw [hdate]
  simp only [toDays]
  -- January and February belong to the year before.
  by_cases hmarch : month < 10
  · have hback : (((month + 3).toNat : Int) + 9) % 12 = month := by omega
    rw [if_pos hmarch, if_neg (by omega), if_neg (by omega), Int.add_zero, hera, hback]
    omega
  · have hback : (((month - 9).toNat : Int) + 9) % 12 = month := by omega
    rw [if_neg hmarch, if_pos (by omega), if_pos (by omega), Int.add_sub_cancel, hera, hback]
    omega

theorem exists?_ofDays (days : Int) : (ofDays days).exists? = true := by
  obtain ⟨era, year, day, month, -, -, -, hday, hday', hleap, hmonth, hdate⟩ := ofDays_eq days
  obtain ⟨hfirst, hlast, hnumber, hnumber'⟩ := month_of_day hday hday' hmonth
  rw [hdate, exists?, decide_eq_true_eq]
  by_cases hmarch : month < 10
  · simp only [if_pos hmarch, monthLength]
    refine ⟨by omega, by omega, by omega, ?_⟩
    split
    · omega
    · split <;> omega
  · have hyear : year + era * 400 + 1 = year + 1 + era * 400 := by omega
    simp only [if_neg hmarch, if_pos (show month - 9 ≤ 2 by omega), monthLength, hyear,
      isLeap_add_era]
    refine ⟨by omega, by omega, by omega, ?_⟩
    split
    · split
      · omega
      · next hleap' =>
        have hday365 : day ≠ 365 := fun h => hleap' (hleap h)
        omega
    · split <;> omega

end Date

/-! ## Numbers in a text -/

namespace Instant

open Text (padded)

theorem isBlank_of_isDigit {c : Char} (h : c.isDigit = true) : Text.isBlank c = false := by
  simp only [Char.isDigit, Bool.and_eq_true, decide_eq_true_eq] at h
  have hfirst : 48 ≤ c.toNat := UInt32.le_iff_toNat_le.1 h.1
  have hlast : c.toNat ≤ 57 := UInt32.le_iff_toNat_le.1 h.2
  simp only [Text.isBlank, Bool.or_eq_false_iff, Bool.and_eq_false_iff, decide_eq_false_iff_not,
    beq_eq_false_iff_ne]
  omega

theorem skipBlank_of_isDigit {cs rest : List Char} (hne : cs ≠ [])
    (h : ∀ c ∈ cs, c.isDigit = true) :
    skipBlank (cs ++ rest) = cs ++ rest := by
  cases cs with
  | nil => exact absurd rfl hne
  | cons c cs =>
    rw [skipBlank, List.cons_append, List.dropWhile_cons,
      isBlank_of_isDigit (h c List.mem_cons_self)]
    rfl

/-- Digits are read as their number, either all that may be read or all that there are. -/
theorem number_append {width : Nat} {cs rest : List Char} (hne : cs ≠ [])
    (h : ∀ c ∈ cs, c.isDigit = true) (hlength : cs.length ≤ width)
    (hend : cs.length = width ∨ ∀ c, rest.head? = some c → c.isDigit = false) :
    number width (cs ++ rest) = .ok (Text.digitsValue 0 cs, rest) := by
  have htake : ((cs ++ rest).take width).takeWhile Char.isDigit = cs := by
    rw [List.take_append, List.take_of_length_le hlength, List.takeWhile_append_of_pos h]
    rcases hend with hwidth | hrest
    · rw [hwidth, Nat.sub_self, List.take_zero, List.takeWhile_nil, List.append_nil]
    · cases rest with
      | nil => simp
      | cons c rest =>
        cases width - cs.length with
        | zero => simp
        | succ n => simp [hrest c rfl]
  have happend : cs ++ rest ≠ [] := List.append_ne_nil_of_left_ne_nil hne rest
  rw [number, htake, if_neg happend, if_neg hne, List.drop_left]

theorem number_padded {width n : Nat} (hwidth : 0 < width) (hn : n < 10 ^ width)
    (rest : List Char) :
    number width (padded width n ++ rest) = .ok (n, rest) := by
  have hlength := Text.length_padded hwidth hn
  rw [number_append (Text.padded_ne_nil width n) (fun _ => Text.isDigit_of_mem_padded)
    (Nat.le_of_eq hlength) (.inl hlength), Text.digitsValue_padded]

theorem skipBlank_padded (width n : Nat) (rest : List Char) :
    skipBlank (padded width n ++ rest) = padded width n ++ rest :=
  skipBlank_of_isDigit (Text.padded_ne_nil width n) fun _ => Text.isDigit_of_mem_padded

theorem field_padded {least greatest n : Nat} (hleast : least ≤ n) (hgreatest : n ≤ greatest)
    (hn : n < 100) (rest : List Char) :
    field least greatest (padded 2 n ++ rest) = .ok (n, rest) := by
  rw [field, skipBlank_padded, number_padded (by decide) hn]
  exact if_pos ⟨hleast, hgreatest⟩

theorem skipBlank_cons {c : Char} (h : Text.isBlank c = false) (cs : List Char) :
    skipBlank (c :: cs) = c :: cs := by
  rw [skipBlank, List.dropWhile_cons, h]
  rfl

/-- A number of any width ends where its digits end. -/
theorem number_ended (n : Nat) {c : Char} (h : c.isDigit = false) (rest : List Char) :
    number (padded 4 n ++ c :: rest).length (padded 4 n ++ c :: rest) = .ok (n, c :: rest) := by
  have hend (d : Char) (hd : (c :: rest).head? = some d) : d.isDigit = false := by
    cases hd
    exact h
  rw [number_append (Text.padded_ne_nil 4 n) (fun _ => Text.isDigit_of_mem_padded) (by simp)
    (.inr hend), Text.digitsValue_padded]

theorem head_padded {width n : Nat} {c : Char} {rest : List Char} (hc : c.isDigit = false)
    (cs : List Char) : padded width n ++ rest ≠ c :: cs := by
  intro h
  cases hpadded : padded width n with
  | nil => exact Text.padded_ne_nil width n hpadded
  | cons d ds =>
    have hd : d.isDigit = true := Text.isDigit_of_mem_padded (hpadded ▸ List.mem_cons_self)
    rw [hpadded, List.cons_append, List.cons.injEq] at h
    rw [← h.1, hd] at hc
    cases hc

theorem signed_yearChars (y : Int) (rest : List Char) :
    signed (yearChars y ++ '-' :: rest) = .ok (y, '-' :: rest) := by
  have hsame {n : Int} (h : n = y) :
      (pure (n, '-' :: rest) : Except Flaw (Int × List Char)) = .ok (y, '-' :: rest) := by
    rw [h]
    rfl
  have hdash : '-'.isDigit = false := rfl
  by_cases hshort : 0 ≤ y ∧ y ≤ 9999
  · have hn : y.toNat < 10 ^ 4 := by omega
    rw [yearChars, if_pos hshort, signed]
    · rw [number_padded (by decide) hn]
      exact hsame (Int.toNat_of_nonneg hshort.1)
    · exact head_padded rfl
    · exact head_padded rfl
  · by_cases hneg : y < 0
    · rw [yearChars, if_neg hshort, if_pos hneg, List.cons_append, signed,
        number_ended y.natAbs hdash rest]
      exact hsame (by omega)
    · rw [yearChars, if_neg hshort, if_neg hneg, List.cons_append, signed,
        number_ended y.natAbs hdash rest]
      exact hsame (by omega)

theorem skipBlank_yearChars (y : Int) (rest : List Char) :
    skipBlank (yearChars y ++ rest) = yearChars y ++ rest := by
  rw [yearChars]
  split
  · exact skipBlank_padded 4 _ rest
  · split
    · exact skipBlank_cons (by decide) _
    · exact skipBlank_cons (by decide) _

theorem year_yearChars {y : Int} (h : hasInstants y = true) (rest : List Char) :
    year (yearChars y ++ '-' :: rest) = .ok (y, '-' :: rest) := by
  rw [hasInstants, decide_eq_true_eq] at h
  have hyear : isYear y = true := by
    rw [isYear, decide_eq_true_eq]
    omega
  rw [year, skipBlank_yearChars, signed_yearChars]
  exact if_pos hyear

/-- A fraction is read with the weight of its last digit. -/
theorem fraction_padded {width n : Nat} (hwidth : 0 < width) (hle : width ≤ 9) (hn : n < 10 ^ width)
    (rest : List Char) :
    fraction ('.' :: padded width n ++ 'Z' :: rest) = .ok (n * 10 ^ (9 - width), 'Z' :: rest) := by
  have hlength := Text.length_padded hwidth hn
  have hend (c : Char) (hc : ('Z' :: rest).head? = some c) : c.isDigit = false := by
    cases hc
    rfl
  have hread : (padded width n ++ 'Z' :: rest).length - ('Z' :: rest).length = width := by
    rw [List.length_append]
    omega
  rw [List.cons_append, fraction, number_append (Text.padded_ne_nil width n)
    (fun _ => Text.isDigit_of_mem_padded) (by omega) (.inr hend), Text.digitsValue_padded]
  simp only [bind, Except.bind, hread]
  rfl

theorem fraction_fractionChars {n : Nat} (h : n < 1000000000) (rest : List Char) :
    fraction (fractionChars n ++ 'Z' :: rest) = .ok (n, 'Z' :: rest) := by
  have hsame {k : Nat} (hk : k = n) :
      (.ok (k, 'Z' :: rest) : Except Flaw (Nat × List Char)) = .ok (n, 'Z' :: rest) := by
    rw [hk]
  rw [fractionChars]
  split
  · next hzero =>
    rw [hzero]
    rfl
  · split
    · rw [fraction_padded (by decide) (by decide) (by omega)]
      exact hsame (by omega)
    · split
      · rw [fraction_padded (by decide) (by decide) (by omega)]
        exact hsame (by omega)
      · rw [fraction_padded (by decide) (by decide) (by omega)]
        exact hsame (by omega)

/-! ## Stamps -/

/-- An instant that a clock can show: its year has instants, and more than a second of nanoseconds
stands for a leap second at the end of a minute. -/
structure Shows (t : Instant) : Prop where
  year : hasInstants (Date.ofDays (t.seconds / 86400)).year
  nanos : t.nanos < 1000000000 ∨ t.nanos < 2000000000 ∧ t.seconds % 60 = 59

theorem mark_skipBlank {isMark : Char → Bool} {c : Char} (h : isMark c = true)
    (hblank : Text.isBlank c = false) (cs : List Char) :
    mark isMark (skipBlank (c :: cs)) = .ok cs := by
  rw [skipBlank_cons hblank]
  exact if_pos h

theorem ofTime_ofDays {t : Instant} (h : t.Shows) :
    ofTime (Date.ofDays (t.seconds / 86400)) (t.seconds % 86400).toNat t.nanos 0 = .ok t := by
  have hdate := Date.exists?_ofDays (t.seconds / 86400)
  have hseconds : (Date.ofDays (t.seconds / 86400)).toDays * 86400 + (t.seconds % 86400).toNat - 0 =
      t.seconds := by
    rw [Date.toDays_ofDays]
    omega
  rw [ofTime, if_neg (by simp [hdate, h.year])]
  simp only [hseconds]
  exact if_pos h.year

theorem Date.exists?_bounds {d : Date} (h : d.exists? = true) :
    1 ≤ d.month ∧ d.month ≤ 12 ∧ 1 ≤ d.day ∧ d.day ≤ 31 := by
  rw [Date.exists?, decide_eq_true_eq] at h
  obtain ⟨hmonth, hmonth', hday, hday'⟩ := h
  refine ⟨hmonth, hmonth', hday, Nat.le_trans hday' ?_⟩
  rw [Date.monthLength]
  split
  · split <;> decide
  · split <;> decide

/-- An instant that a clock shows is read back from its stamp. -/
theorem read_stamp {t : Instant} (h : t.Shows) : read t.stamp = .ok t := by
  obtain ⟨hmonth, hmonth', hday, hday'⟩ :=
    Date.exists?_bounds (Date.exists?_ofDays (t.seconds / 86400))
  have hsecond : (t.seconds % 86400).toNat < 86400 := by omega
  have hleap : t.nanos / 1000000000 = 0 ∨
      t.nanos / 1000000000 = 1 ∧ (t.seconds % 86400).toNat % 60 = 59 := by
    have hnanos := h.nanos
    omega
  rw [read, stamp, String.toList_ofList, dateTimeChars]
  simp only [List.append_assoc, List.cons_append]
  refine Except.do_eq_ok.2 ⟨_, year_yearChars h.year _, ?_⟩
  refine Except.do_eq_ok.2 ⟨_, mark_skipBlank rfl rfl _, ?_⟩
  refine Except.do_eq_ok.2 ⟨_, field_padded hmonth hmonth' (by omega) _, ?_⟩
  refine Except.do_eq_ok.2 ⟨_, mark_skipBlank rfl rfl _, ?_⟩
  refine Except.do_eq_ok.2 ⟨_, field_padded hday hday' (by omega) _, ?_⟩
  refine Except.do_eq_ok.2 ⟨_, rfl, ?_⟩
  refine Except.do_eq_ok.2 ⟨_, field_padded (by omega) (by omega) (by omega) _, ?_⟩
  refine Except.do_eq_ok.2 ⟨_, mark_skipBlank rfl rfl _, ?_⟩
  refine Except.do_eq_ok.2 ⟨_, field_padded (by omega) (by omega) (by omega) _, ?_⟩
  refine Except.do_eq_ok.2 ⟨_, mark_skipBlank rfl rfl _, ?_⟩
  refine Except.do_eq_ok.2 ⟨_, field_padded (by omega) (by omega) (by omega) _, ?_⟩
  refine Except.do_eq_ok.2 ⟨_, fraction_fractionChars (by omega) _, ?_⟩
  refine Except.do_eq_ok.2 ⟨_, rfl, ?_⟩
  -- The second behind the 59th of a minute is the leap second.
  have hlast : (if (t.seconds % 86400).toNat % 60 + t.nanos / 1000000000 = 60 then 1 else 0) =
      t.nanos / 1000000000 := by
    split <;> omega
  have htime : (t.seconds % 86400).toNat / 3600 * 3600 + (t.seconds % 86400).toNat / 60 % 60 * 60 +
      ((t.seconds % 86400).toNat % 60 + t.nanos / 1000000000 - t.nanos / 1000000000) =
      (t.seconds % 86400).toNat := by
    omega
  have hnanos : t.nanos % 1000000000 + t.nanos / 1000000000 * 1000000000 = t.nanos := by
    omega
  have hdone : skipBlank [] = [] := rfl
  simp only [hdone, ne_eq, not_true_eq_false, if_false, hlast, htime, hnanos]
  exact ofTime_ofDays h

/-! ## Years of four digits -/

/-- An instant of the years 0 to 9999 that is no leap second. -/
structure Plain (t : Instant) : Prop where
  first : 0 ≤ (Date.ofDays (t.seconds / 86400)).year
  last : (Date.ofDays (t.seconds / 86400)).year ≤ 9999
  nanos : t.nanos < 1000000000

theorem Plain.shows {t : Instant} (h : t.Plain) : t.Shows where
  year := by
    have hfirst := h.first
    have hlast := h.last
    rw [hasInstants, decide_eq_true_eq]
    omega
  nanos := .inl h.nanos

theorem Plain.eq_of_total {t u : Instant} (ht : t.Plain) (hu : u.Plain)
    (h : t.total = u.total) : t = u := by
  have hnanos := ht.nanos
  have hnanos' := hu.nanos
  obtain ⟨seconds, nanos⟩ := t
  obtain ⟨seconds', nanos'⟩ := u
  rw [total, total] at h
  dsimp only at *
  rw [Instant.mk.injEq]
  omega

end Instant

end ClusterLedger
