import ClusterLedger.Text.Blank
import ClusterLedger.Text.Digits

/-!
# Instants of time

An instant is a number of seconds of UTC since 1970 and a part of a second. It is written in
RFC 3339 with 0, 3, 6 or 9 digits of fraction. Reading also takes white space before a part of the
date, fewer digits, and a space in place of the `T`.
-/
namespace ClusterLedger

/-- Seconds since the beginning of 1970 in UTC, and nanoseconds; a leap second is the second before
it with more than a second of nanoseconds. -/
structure Instant where
  seconds : Int
  nanos : Nat
  deriving DecidableEq, Repr, Inhabited

/-- A day of the Gregorian calendar. -/
structure Date where
  year : Int
  month : Nat
  day : Nat
  deriving DecidableEq, Repr

namespace Date

/-- Whether a year has a 29th of February. -/
def isLeap (year : Int) : Bool :=
  year % 4 = 0 ∧ (year % 100 ≠ 0 ∨ year % 400 = 0)

/-- How many days a month has. -/
def monthLength (year : Int) (month : Nat) : Nat :=
  if month = 2 then (if isLeap year then 29 else 28)
  else if month = 4 ∨ month = 6 ∨ month = 9 ∨ month = 11 then 30
  else 31

/-- Whether there is such a day. -/
def exists? (d : Date) : Bool :=
  1 ≤ d.month ∧ d.month ≤ 12 ∧ 1 ≤ d.day ∧ d.day ≤ monthLength d.year d.month

/-- Days since the beginning of 1970. Years begin in March here, so that a leap day ends one. -/
def toDays (d : Date) : Int :=
  let y := if d.month ≤ 2 then d.year - 1 else d.year
  let era := y / 400
  let yearOfEra := y - era * 400
  let dayOfYear : Int := (153 * ((d.month + 9) % 12) + 2) / 5 + d.day - 1
  era * 146097 + (yearOfEra * 365 + yearOfEra / 4 - yearOfEra / 100 + dayOfYear) - 719468

/-- The day that is so many days after the beginning of 1970. -/
def ofDays (days : Int) : Date :=
  let z := days + 719468
  let era := z / 146097
  let dayOfEra := z - era * 146097
  let yearOfEra := (dayOfEra - dayOfEra / 1460 + dayOfEra / 36524 - dayOfEra / 146096) / 365
  let dayOfYear := dayOfEra - (365 * yearOfEra + yearOfEra / 4 - yearOfEra / 100)
  let m := (5 * dayOfYear + 2) / 153
  let day := dayOfYear - (153 * m + 2) / 5 + 1
  let month := if m < 10 then m + 3 else m - 9
  ⟨yearOfEra + era * 400 + (if month ≤ 2 then 1 else 0), month.toNat, day.toNat⟩

end Date

namespace Instant

/-- Nanoseconds since the beginning of 1970. -/
def total (t : Instant) : Int :=
  t.seconds * 1000000000 + t.nanos

/-- Whether `t` lies at least `seconds` before `now`; what lies ahead of `now` does not. -/
def isOlder (t now : Instant) (seconds : Nat) : Bool :=
  0 ≤ now.total - t.total ∧ (seconds : Int) * 1000000000 ≤ now.total - t.total

/-! ## Writing -/

/-- A year in four digits; outside of 0 to 9999 with its sign. -/
def yearChars (year : Int) : List Char :=
  if 0 ≤ year ∧ year ≤ 9999 then Text.padded 4 year.toNat
  else (if year < 0 then '-' else '+') :: Text.padded 4 year.natAbs

/-- A fraction in as few groups of three digits as it needs. -/
def fractionChars (nanos : Nat) : List Char :=
  if nanos = 0 then []
  else if nanos % 1000000 = 0 then '.' :: Text.padded 3 (nanos / 1000000)
  else if nanos % 1000 = 0 then '.' :: Text.padded 6 (nanos / 1000)
  else '.' :: Text.padded 9 nanos

/-- Date and time of day with `mark` between them. -/
def dateTimeChars (mark : Char) (t : Instant) : List Char :=
  let d := Date.ofDays (t.seconds / 86400)
  let second := (t.seconds % 86400).toNat
  let leap := t.nanos / 1000000000
  yearChars d.year ++ '-' :: Text.padded 2 d.month ++ '-' :: Text.padded 2 d.day
    ++ mark :: Text.padded 2 (second / 3600) ++ ':' :: Text.padded 2 (second / 60 % 60)
    ++ ':' :: Text.padded 2 (second % 60 + leap) ++ fractionChars (t.nanos % 1000000000)

/-- As in a record: `2999-01-01T00:00:00Z`. -/
def stamp (t : Instant) : String :=
  String.ofList (dateTimeChars 'T' t ++ ['Z'])

/-- As in a message: `2999-01-01 00:00:00 UTC`. -/
def shown (t : Instant) : String :=
  String.ofList (dateTimeChars ' ' t ++ [' ', 'U', 'T', 'C'])

/-! ## Reading -/

/-- Why a text names no instant. -/
inductive Flaw where
  | ended
  | otherCharacter
  | outOfRange
  | trailing
  | beyond
  deriving DecidableEq, Repr

/-- The reason in words. -/
def Flaw.message : Flaw → String
  | ended => "premature end of input"
  | otherCharacter => "input contains invalid characters"
  | outOfRange => "input is out of range"
  | trailing => "trailing input"
  | beyond => "no possible date and time matching input"

/-- Leaves out white space in front. -/
def skipBlank (cs : List Char) : List Char :=
  cs.dropWhile Text.isBlank

/-- A number of at least one and at most `width` digits, and what follows. -/
def number (width : Nat) (cs : List Char) : Except Flaw (Nat × List Char) :=
  let ds := (cs.take width).takeWhile Char.isDigit
  if cs = [] then .error .ended
  else if ds = [] then .error .otherCharacter
  else .ok (Text.digitsValue 0 ds, cs.drop ds.length)

/-- A number of one or two digits between two bounds, with white space in front. -/
def field (least greatest : Nat) (cs : List Char) : Except Flaw (Nat × List Char) := do
  let (n, rest) ← number 2 (skipBlank cs)
  if least ≤ n ∧ n ≤ greatest then return (n, rest) else .error .outOfRange

/-- Whether a year is a number of 32 bits. -/
def isYear (year : Int) : Bool :=
  -0x80000000 ≤ year ∧ year < 0x80000000

/-- A number of at most four digits, or of any number of digits behind a sign. -/
def signed : List Char → Except Flaw (Int × List Char)
  | '-' :: cs => do
    let (n, rest) ← number cs.length cs
    return (-(n : Int), rest)
  | '+' :: cs => do
    let (n, rest) ← number cs.length cs
    return ((n : Int), rest)
  | cs => do
    let (n, rest) ← number 4 cs
    return ((n : Int), rest)

/-- A year, with white space in front. -/
def year (cs : List Char) : Except Flaw (Int × List Char) := do
  let (n, rest) ← signed (skipBlank cs)
  if isYear n then return (n, rest) else .error .outOfRange

/-- What follows one of the marks. -/
def mark (isMark : Char → Bool) : List Char → Except Flaw (List Char)
  | c :: cs => if isMark c then .ok cs else .error .otherCharacter
  | [] => .error .ended

/-- Nanoseconds of a fraction, of which nine digits count, and what follows. -/
def fraction : List Char → Except Flaw (Nat × List Char)
  | '.' :: cs => do
    let (n, rest) ← number 9 cs
    return (n * Nat.pow 10 (9 - (cs.length - rest.length)), rest.dropWhile Char.isDigit)
  | cs => .ok (0, cs)

/-- Two digits; what is shorter than two bytes has ended. -/
def twoDigits : List Char → Except Flaw ((Char × Char) × List Char)
  | a :: b :: rest =>
    if a.isDigit ∧ b.isDigit then .ok ((a, b), rest) else .error .otherCharacter
  | [a] => .error (if a.utf8Size = 1 then .ended else .otherCharacter)
  | [] => .error .ended

/-- Hours and minutes of an offset, two digits each, in seconds. -/
def offsetDigits (cs : List Char) : Except Flaw (Int × List Char) := do
  let ((a, b), cs) ← twoDigits cs
  let ((c, d), rest) ← twoDigits (cs.dropWhile fun c => c = ':' || Text.isBlank c)
  if c.toNat < '6'.toNat then
    return (Text.digitsValue 0 [a, b] * 3600 + Text.digitsValue 0 [c, d] * 60, rest)
  else .error .outOfRange

/-- Whether a text begins with the name of UTC. -/
def startsWithUtc : List Char → Bool
  | u :: t :: c :: _ => u.toUpper = 'U' ∧ t.toUpper = 'T' ∧ c.toUpper = 'C'
  | _ => false

/-- An offset from UTC in seconds. -/
def offset (cs : List Char) : Except Flaw (Int × List Char) :=
  if startsWithUtc cs then .ok (0, cs.drop 3)
  else match cs with
    | 'Z' :: cs | 'z' :: cs => .ok (0, cs)
    | '+' :: cs => offsetDigits cs
    | '-' :: cs | '\u2212' :: cs => do
      let (n, rest) ← offsetDigits cs
      return (-n, rest)
    | _ :: _ => .error .otherCharacter
    | [] => .error .ended

/-- Whether a year has instants. -/
def hasInstants (year : Int) : Bool :=
  -262143 ≤ year ∧ year ≤ 262142

/-- The instant that a time of a day is. Its year has to have instants in UTC too. -/
def ofTime (date : Date) (second nanos : Nat) (offset : Int) : Except Flaw Instant :=
  if ¬date.exists? ∨ ¬hasInstants date.year ∨ 86400 ≤ offset.natAbs then .error .outOfRange
  else
    let t : Instant := ⟨date.toDays * 86400 + second - offset, nanos⟩
    if hasInstants (Date.ofDays (t.seconds / 86400)).year then .ok t else .error .beyond

/-- The instant that a text names; the offset is required. -/
def read (s : String) : Except Flaw Instant := do
  let (year, cs) ← year s.toList
  let cs ← mark (· = '-') (skipBlank cs)
  let (month, cs) ← field 1 12 cs
  let cs ← mark (· = '-') (skipBlank cs)
  let (day, cs) ← field 1 31 cs
  let cs ← mark (fun c => c = 'T' || c = 't' || c = ' ') cs
  let (hour, cs) ← field 0 23 cs
  let cs ← mark (· = ':') (skipBlank cs)
  let (minute, cs) ← field 0 59 cs
  let cs ← mark (· = ':') (skipBlank cs)
  let (second, cs) ← field 0 60 cs
  let (nanos, cs) ← fraction cs
  let (offset, cs) ← offset (skipBlank cs)
  if skipBlank cs ≠ [] then .error .trailing
  let leap := if second = 60 then 1 else 0
  ofTime ⟨year, month, day⟩ (hour * 3600 + minute * 60 + (second - leap))
    (nanos + leap * 1000000000) offset

/-- The instant that a text names, if it names one. -/
def read? (s : String) : Option Instant :=
  (read s).toOption

end Instant

end ClusterLedger
