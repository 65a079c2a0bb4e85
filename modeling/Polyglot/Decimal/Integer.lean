/-! # Integers in base ten

The plain spelling of whole numbers: digits without leading zeros, a minus sign in front of
negative numbers, and no separators.
-/

namespace Polyglot.Decimal

/-- The digits of a natural number, most significant first; zero is one digit. -/
def natDigits (n : Nat) : List Char :=
  Nat.toDigits 10 n

/-- The text of a natural number. -/
def natText (n : Nat) : String :=
  String.ofList (natDigits n)

/-- The text of an integer. -/
def intText (n : Int) : String :=
  if n < 0 then "-" ++ natText n.natAbs else natText n.natAbs

end Polyglot.Decimal
