import ClusterLedger.Json.Basic
import ClusterLedger.Text.Digits

/-!
# JSON numerals

A number as it is written, and the value that it is read as. An integer of 64 bits stays one. Of any
other number the digits are gathered in 64 bits, those that do not fit being passed over, and what is
gathered is multiplied or divided by a power of ten. Each of these steps rounds, so what is read need
not be the floating-point number that is nearest to what is written.
-/
namespace ClusterLedger.Json

/-! ## What is written -/

/-- The fraction digits of `.ddd`, and what follows; a point needs a digit behind it. -/
def fraction? : List Char → Option (List Char × List Char)
  | '.' :: cs =>
    if cs.takeWhile Char.isDigit = [] then none
    else some (cs.takeWhile Char.isDigit, cs.dropWhile Char.isDigit)
  | cs => some ([], cs)

/-- A number as it is written: its digits on both sides of the point, and its exponent. -/
structure Numeral where
  negative : Bool
  whole : List Char
  decimals : List Char
  exponent : Int
  isInteger : Bool
  deriving DecidableEq, Repr

/-- A numeral without its sign; it has no leading zeros. -/
def Numeral.ofUnsigned? (negative : Bool) (cs : List Char) : Option Numeral :=
  let whole := cs.takeWhile Char.isDigit
  let rest := cs.dropWhile Char.isDigit
  if whole = [] ∨ (whole.head? = some '0' ∧ whole ≠ ['0']) then none
  else if rest = [] then some ⟨negative, whole, [], 0, true⟩
  else do
    let (decimals, tail) ← fraction? rest
    return ⟨negative, whole, decimals, ← Text.exponent? tail, false⟩

/-- The numeral that a word spells. -/
def Numeral.ofChars? : List Char → Option Numeral
  | '-' :: cs => Numeral.ofUnsigned? true cs
  | cs => Numeral.ofUnsigned? false cs

/-! ## What is read -/

/-- Gathers digits behind those of `n` as long as 64 bits hold them; the rest is left. -/
def gather (n : Nat) : List Char → Nat × List Char
  | [] => (n, [])
  | c :: cs =>
    let next := 10 * n + (c.toNat - '0'.toNat)
    if next < Text.wordLimit then gather next cs else (n, c :: cs)

/-- The exponent of the greatest power of ten that is a floating-point number. -/
def maxPower : Nat := 308

/-- A power of ten. -/
def power (n : Nat) : Float.Model :=
  .ofScientific 1 n

/-- Divides by the greatest power of ten so many times, or until nothing is left. -/
def divided (x : Float.Model) : Nat → Float.Model
  | 0 => x
  | n + 1 => if x == .ofNat 0 then x else divided (x / power maxPower) n

/-- `x · 10 ^ place`, rounded at every step, or `none` where it is too large. Only nothing is not too
large for a power beyond the greatest one. -/
def scale? (x : Float.Model) (place : Int) : Option Float.Model :=
  let n := place.natAbs
  if 0 ≤ place then
    if n ≤ maxPower then some (x * power n) |>.filter (!·.isInf)
    else if x == .ofNat 0 then some x
    else none
  else
    let times := (n - 1) / maxPower
    some (divided x times / power (n - times * maxPower))

/-- A floating-point number with a sign. -/
def Number.ofFloat (negative : Bool) (x : Float.Model) : Number :=
  .float ⟨(if negative then -x else x).toBits⟩

/-- An integer stays one when it fits into 64 bits, `-0` being no integer. -/
def Number.ofInteger (negative : Bool) (n : Nat) : Number :=
  if ¬negative then .int n
  else if n ≠ 0 ∧ n ≤ 0x8000000000000000 then .int (-n)
  else .ofFloat true (.ofNat n)

/-- The number of a numeral, if it is finite. An exponent of more than 31 bits is not looked at. -/
def Numeral.value? (n : Numeral) : Option Number :=
  let (whole, left) := gather 0 n.whole
  if n.isInteger ∧ left = [] then some (.ofInteger n.negative whole)
  else
    let (digits, passed) := gather whole n.decimals
    let place : Int := left.length + passed.length - n.decimals.length
    if n.exponent.natAbs < 0x80000000 then
      (scale? (.ofNat digits) (place + n.exponent)).map (.ofFloat n.negative)
    else if digits ≠ 0 ∧ 0 < n.exponent then none
    else some (.ofFloat n.negative (.ofNat 0))

end ClusterLedger.Json
