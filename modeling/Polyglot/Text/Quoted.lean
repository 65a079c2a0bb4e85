/-! # Quoted text

Double-quoted literals that both targets read: quotes, backslashes and control characters are
escaped, and every other character stands for itself.
-/

namespace Polyglot.Text

/-- The control characters, which occupy two ranges of code points. -/
def isControl (c : Char) : Bool :=
  c.toNat ≤ 0x1F || (0x7F ≤ c.toNat && c.toNat ≤ 0x9F)

/-- A digit of base sixteen, in lower case. -/
def hexDigit (n : Nat) : Char :=
  Nat.digitChar (n % 16)

/-- The last four digits of a number in base sixteen. -/
def fourHexDigits (n : Nat) : List Char :=
  [hexDigit (n / 4096), hexDigit (n / 256), hexDigit (n / 16), hexDigit n]

/-- How a character is written between quotes. -/
def escape (c : Char) : List Char :=
  if c = '"' then ['\\', '"']
  else if c = '\\' then ['\\', '\\']
  else if c = '\n' then ['\\', 'n']
  else if c = '\r' then ['\\', 'r']
  else if c = '\t' then ['\\', 't']
  else if isControl c then '\\' :: 'u' :: fourHexDigits c.toNat
  else [c]

/-- The characters of a quoted literal. -/
def quoteChars (content : List Char) : List Char :=
  '"' :: (content.flatMap escape ++ ['"'])

/-- A quoted literal. -/
def quote (content : String) : String :=
  String.ofList (quoteChars content.toList)

end Polyglot.Text
