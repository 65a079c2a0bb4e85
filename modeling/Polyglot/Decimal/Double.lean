/-! # Doubles by their bits

A double is given by the 64 bits of its IEEE 754 representation: a sign, eleven bits of exponent
and 52 bits of fraction. Finite doubles denote `significand * 2 ^ exponent` up to sign.
-/

namespace Polyglot.Double

/-- The number of fractions, which is two to the power 52. -/
def binade : Nat := 0x10000000000000

/-- The weight of the sign bit, which is two to the power 63. -/
def signWeight : Nat := 0x8000000000000000

def isNegative (bits : UInt64) : Bool :=
  signWeight ≤ bits.toNat

def exponentField (bits : UInt64) : Nat :=
  bits.toNat / binade % 2048

def fraction (bits : UInt64) : Nat :=
  bits.toNat % binade

/-- Neither an infinity nor a NaN. -/
def isFinite (bits : UInt64) : Bool :=
  exponentField bits ≠ 2047

def isNaN (bits : UInt64) : Bool :=
  exponentField bits = 2047 && fraction bits ≠ 0

/-- The fraction with its leading bit, which only subnormal doubles lack. -/
def significand (bits : UInt64) : Nat :=
  if exponentField bits = 0 then fraction bits else binade + fraction bits

def exponent (bits : UInt64) : Int :=
  (max (exponentField bits) 1 : Nat) - 1075

/-- Whether the next smaller double is only half as far away as the next larger one, which is so
where the exponent changes. -/
def startsBinade (bits : UInt64) : Bool :=
  fraction bits = 0 && 1 < exponentField bits

end Polyglot.Double
