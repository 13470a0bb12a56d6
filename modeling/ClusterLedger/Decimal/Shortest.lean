import ClusterLedger.Decimal.Binary64

/-!
# The shortest decimal of a floating-point number

A decimal reads back as `x` when it lies between the two midpoints around `x`, the midpoints
themselves counting when the significand is even. `shortest` tries grids of one digit, two digits
and so on; on each it looks at the two neighbours of `x`, and the first hit wins, of two hits the
nearer one.
-/
namespace ClusterLedger.Decimal

/-- A positive decimal `0.d₁d₂… · 10 ^ point`; the first digit is not zero. -/
structure Scientific where
  digits : List Char
  point : Int
  deriving DecidableEq, Repr

namespace Binary64

/-- Four times the value and four times both midpoints, over one denominator. -/
structure Interval where
  low : Nat
  value : Nat
  high : Nat
  den : Nat
  closed : Bool

/-- The decimals that read back as a positive number. -/
def interval (x : Binary64) : Interval :=
  let m := x.significand
  let e := x.exponent
  let step := if m = leadingBit ∧ -1074 < e then 1 else 2
  let scale := if 0 ≤ e then Nat.pow 2 e.toNat else 1
  let den := if 0 ≤ e then 1 else Nat.pow 2 (-e).toNat
  ⟨(4 * m - step) * scale, 4 * m * scale, (4 * m + 2) * scale, 4 * den, m % 2 = 0⟩

/-- Whether `n · 10 ^ place` reads back. -/
def Interval.holds (i : Interval) (n : Nat) (place : Int) : Bool :=
  let (a, d) := if 0 ≤ place then (n * Nat.pow 10 place.toNat * i.den, 1)
    else (n * i.den, Nat.pow 10 (-place).toNat)
  if i.closed then i.low * d ≤ a && a ≤ i.high * d else i.low * d < a && a < i.high * d

/-- The grid point `n · 10 ^ place` at or below the value, and twice the distance to it in steps,
as a fraction. -/
def Interval.below (i : Interval) (place : Int) : Nat × Nat × Nat :=
  let (num, den) := if 0 ≤ place then (i.value, i.den * Nat.pow 10 place.toNat)
    else (i.value * Nat.pow 10 (-place).toNat, i.den)
  (num / den, 2 * (num % den), den)

/-- The neighbour of the value that reads back on a grid, of two the nearer and of two equally near
ones the even one. -/
def Interval.hit? (i : Interval) (place : Int) : Option Nat :=
  let (n, twice, den) := i.below place
  match i.holds n place, i.holds (n + 1) place with
  | true, true =>
    if twice < den then some n else if den < twice then some (n + 1) else some (n + n % 2)
  | true, false => some n
  | false, true => some (n + 1)
  | false, false => none

/-- How many digits the value has before the decimal point; not positive for small values. -/
def Interval.magnitude (i : Interval) : Int :=
  let guess : Int := ((Nat.toDigits 10 i.value).length : Int) - (Nat.toDigits 10 i.den).length
  let (a, d) := if 0 ≤ guess then (i.value, i.den * Nat.pow 10 guess.toNat)
    else (i.value * Nat.pow 10 (-guess).toNat, i.den)
  if d ≤ a then guess + 1 else guess

/-- The first hit on grids with one digit more each time. -/
def Interval.search (i : Interval) (top : Int) (count : Nat) : Nat → Option (Nat × Int)
  | 0 => none
  | tries + 1 =>
    let place := top - count
    match i.hit? place with
    | some n => some (n, place)
    | none => i.search top (count + 1) tries

/-- The shortest decimal that reads back as a positive number; 17 digits always suffice. -/
def shortest (x : Binary64) : Scientific :=
  let i := x.interval
  let top := i.magnitude
  match i.search top 1 17 with
  | none => ⟨['0'], 1⟩
  | some (n, place) =>
    let ds := Nat.toDigits 10 n
    ⟨(ds.reverse.dropWhile (· == '0')).reverse, place + ds.length⟩

end Binary64

/-! ## The written form -/

namespace Scientific

/-- Positional notation, with at least one digit on both sides of the point. -/
def positional (s : Scientific) : List Char :=
  if s.point ≤ 0 then
    '0' :: '.' :: (List.replicate (-s.point).toNat '0' ++ s.digits)
  else
    let whole := s.point.toNat
    let before := s.digits.take whole
    let after := s.digits.drop whole
    before ++ List.replicate (whole - before.length) '0'
      ++ '.' :: (if after.isEmpty then ['0'] else after)

/-- One digit before the point, none behind it where there is only one, and a signed exponent. -/
def exponential (s : Scientific) : List Char :=
  let e := s.point - 1
  let fraction := match s.digits.tail with
    | [] => []
    | ds => '.' :: ds
  s.digits.take 1 ++ fraction ++ 'e' :: (if e < 0 then '-' else '+') :: Nat.toDigits 10 e.natAbs

end Scientific

/-- Positional between `10 ^ -5` and `10 ^ 16`, exponential elsewhere; zero keeps its sign. -/
def Binary64.text (x : Binary64) : List Char :=
  let body :=
    if x.magnitude = 0 then ['0', '.', '0']
    else
      let s := x.shortest
      if -5 < s.point ∧ s.point ≤ 16 then s.positional else s.exponential
  if x.negative then '-' :: body else body

end ClusterLedger.Decimal
