import Mathlib.Tactic.SplitIfs
import Polyglot.Text.Quoted

/-! # Reading quoted text

A reader of literals: it starts at an opening quote, undoes the escapes and stops at the first quote
that is not escaped. Whatever follows a literal, the reader finds its content and where it ends.
-/

namespace Polyglot.Text

/-- The value of a digit of base sixteen. -/
def hexValue? (c : Char) : Option Nat :=
  if '0' ≤ c ∧ c ≤ '9' then some (c.toNat - '0'.toNat)
  else if 'a' ≤ c ∧ c ≤ 'f' then some (c.toNat - 'a'.toNat + 10)
  else if 'A' ≤ c ∧ c ≤ 'F' then some (c.toNat - 'A'.toNat + 10)
  else none

/-- The character with the code point that four digits of base sixteen stand for. -/
def readCode (a b c d : Char) : Option Char := do
  return Char.ofNat
    ((((← hexValue? a) * 16 + (← hexValue? b)) * 16 + (← hexValue? c)) * 16 + (← hexValue? d))

/-- What a backslash and a mark stand for. -/
def readMark (mark : Char) : Option Char :=
  if mark = '"' then some '"'
  else if mark = '\\' then some '\\'
  else if mark = 'n' then some '\n'
  else if mark = 'r' then some '\r'
  else if mark = 't' then some '\t'
  else none

/-- Puts a character in front of what was read. -/
def prepend (c : Char) (found : List Char × List Char) : List Char × List Char :=
  (c :: found.1, found.2)

/-- Reads up to the closing quote: the content, and what follows the quote. -/
def readContent : List Char → Option (List Char × List Char)
  | [] => none
  | c :: rest =>
    if c = '"' then some ([], rest)
    else if c = '\\' then
      match rest with
      | 'u' :: a :: b :: c :: d :: rest => do
        return prepend (← readCode a b c d) (← readContent rest)
      | mark :: rest => do
        return prepend (← readMark mark) (← readContent rest)
      | [] => none
    else return prepend c (← readContent rest)

/-- Reads a literal: its content, and what follows it. -/
def readQuoted : List Char → Option (List Char × List Char)
  | '"' :: rest => readContent rest
  | _ => none

theorem hexValue?_hexDigit (n : Nat) : hexValue? (hexDigit n) = some (n % 16) := by
  have hall : ∀ m < 16, hexValue? (Nat.digitChar m) = some m := by decide
  exact hall (n % 16) (Nat.mod_lt n (by decide))

theorem readCode_fourHexDigits {n : Nat} (h : n < 65536) :
    readCode (hexDigit (n / 4096)) (hexDigit (n / 256)) (hexDigit (n / 16)) (hexDigit n) =
      some (Char.ofNat n) := by
  simp only [readCode, hexValue?_hexDigit, Option.pure_def, Option.bind_eq_bind, Option.bind_some]
  congr 2
  omega

theorem toNat_lt_of_isControl {c : Char} (h : isControl c = true) : c.toNat < 65536 := by
  simp only [isControl, Bool.or_eq_true, Bool.and_eq_true, decide_eq_true_eq] at h
  omega

theorem readContent_quote (rest : List Char) : readContent ('"' :: rest) = some ([], rest) := by
  rw [readContent.eq_def]
  simp

theorem readContent_plain {c : Char} (hquote : c ≠ '"') (hslash : c ≠ '\\') (rest : List Char) :
    readContent (c :: rest) = (readContent rest).map (prepend c) := by
  rw [readContent.eq_def (c :: rest)]
  cases h : readContent rest <;> simp [hquote, hslash, h]

/-- Reading what is written for a character gives the character back. -/
theorem readContent_escape (c : Char) (rest : List Char) :
    readContent (escape c ++ rest) = (readContent rest).map (prepend c) := by
  rw [escape]
  split_ifs with hquote hslash hline hreturn htab hcontrol
  · subst hquote
    cases h : readContent rest <;> simp [readContent, readMark, h]
  · subst hslash
    cases h : readContent rest <;> simp [readContent, readMark, h]
  · subst hline
    cases h : readContent rest <;> simp [readContent, readMark, h]
  · subst hreturn
    cases h : readContent rest <;> simp [readContent, readMark, h]
  · subst htab
    cases h : readContent rest <;> simp [readContent, readMark, h]
  · have hcode := readCode_fourHexDigits (toNat_lt_of_isControl hcontrol)
    cases h : readContent rest <;> simp [readContent, fourHexDigits, hcode, h]
  · exact readContent_plain hquote hslash rest

/-- Whatever follows a literal, its content is read back. -/
theorem readQuoted_quoteChars (content rest : List Char) :
    readQuoted (quoteChars content ++ rest) = some (content, rest) := by
  rw [quoteChars, List.cons_append, readQuoted, List.append_assoc]
  induction content with
  | nil => exact readContent_quote rest
  | cons c content ih =>
    rw [List.flatMap_cons, List.append_assoc, readContent_escape, ih]
    rfl

theorem quoteChars_append_inj {first second rest others : List Char}
    (h : quoteChars first ++ rest = quoteChars second ++ others) :
    first = second ∧ rest = others := by
  have hread := congrArg readQuoted h
  rw [readQuoted_quoteChars, readQuoted_quoteChars] at hread
  simpa using hread

end Polyglot.Text
