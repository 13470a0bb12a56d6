/-!
# Binary floating point in 64 bits

A number of this format is its bit pattern; its value is `significand · 2 ^ exponent` with a sign.
-/
namespace ClusterLedger.Decimal

/-- A floating-point number of 64 bits, as its bit pattern. -/
structure Binary64 where
  bits : UInt64
  deriving DecidableEq, Repr, Inhabited

namespace Binary64

/-- The bit of a pattern that holds the sign. -/
def signBit : Nat := 0x8000000000000000

/-- The leading bit of a significand, which a pattern leaves out. -/
def leadingBit : Nat := 0x10000000000000

/-- The pattern without its sign. -/
def magnitude (x : Binary64) : Nat :=
  x.bits.toNat % signBit

/-- Whether the sign bit is set. -/
def negative (x : Binary64) : Bool :=
  signBit ≤ x.bits.toNat

/-- The significand: the fraction, with the leading bit that a pattern leaves out. -/
def significand (x : Binary64) : Nat :=
  if x.magnitude / leadingBit = 0 then x.magnitude else x.magnitude % leadingBit + leadingBit

/-- The power of two by which the significand is multiplied. -/
def exponent (x : Binary64) : Int :=
  if x.magnitude / leadingBit = 0 then -1074 else (x.magnitude / leadingBit : Nat) - 1075

end Binary64

end ClusterLedger.Decimal
