import Polyglot.Decimal.Shortest
import Polyglot.Imports
import Polyglot.Lowering.Spelling
import Polyglot.Step
import Polyglot.Text.Letter
import Polyglot.Text.Quoted
import Polyglot.Text.Separated

/-! # Types and values in Go

All numeric widths are kept. Members of the receiver are reached through the receiver variable of
the enclosing method, so a value is spelled relative to it. Spelling a value also notes the
packages that the text refers to, and notes them even if it fails later on.
-/

namespace Polyglot.Go

open Text Lowering

/-- The name of this target in diagnostics. -/
def target : String := "go"

/-- The spelling of a type; pointers have none. -/
def typeText : Ty → Except Fault String
  | .primitive kind => return kind.name
  | .model name => return name
  | .array element => return "[]" ++ (← typeText element)
  | .map key value => do
    let keyText ← typeText key
    let valueText ← typeText value
    return "map[" ++ keyText ++ "]" ++ valueText
  | .pointer pointee => throw (.unsupported target (.pointerType (.pointer pointee)))

/-- The receiver variable of the methods of a model: its first letter in lower case. -/
def receiverName (model : String) : String :=
  match model.toList with
  | [] => "m"
  | first :: _ => String.ofList (lowercase first)

/-- Whole floats keep a fraction, without which they would be integers. -/
def fractional (text : String) : String :=
  if '.' ∈ text.toList then text else text ++ ".0"

/-- Notes that the text refers to a package. -/
def refer (package : Package) : Step Imports Unit :=
  modify (·.insert package)

def floatText (bits : UInt64) : Step Imports String :=
  match Decimal.finiteText? bits with
  | some text => return fractional text
  | none => do
    refer .math
    return if Double.isNaN bits then "math.NaN()"
      else if Double.isNegative bits then "math.Inf(-1)"
      else "math.Inf(1)"

mutual
/-- The spelling of a value in a method with the given receiver variable; `none` stands for a
place outside of all methods. -/
def valueText (receiver : Option String) : Value → Step Imports String
  | .null => return "nil"
  | .text content => return quote content
  | .int n => return Decimal.intText n.toInt
  | .float bits => floatText bits
  | .bool b => return boolText b
  | .array element elements => do
    let arrayType ← typeText (.array element)
    let texts ← valueTexts receiver elements
    return arrayType ++ "\x7b" ++ commaSeparated texts ++ "\x7d"
  | .map key value entries => do
    let mapType ← typeText (.map key value)
    let texts ← entryTexts receiver entries
    return mapType ++ "\x7b" ++ commaSeparated texts ++ "\x7d"
  | .binding name => return name
  | .ownField field =>
    match receiver with
    | none => throw (.unsupported target .looseReceiverField)
    | some name => return name ++ "." ++ (← valueText receiver field)
  | .modelField model field => return model ++ "." ++ (← valueText receiver field)
  | .arrayElement source index => do
    let sourceText ← valueText receiver source
    let indexText ← valueText receiver index
    return sourceText ++ "[" ++ indexText ++ "]"
  | .mapElement source key => do
    let sourceText ← valueText receiver source
    let keyText ← valueText receiver key
    return sourceText ++ "[" ++ keyText ++ "]"
  | .combined left op right => do
    let leftText ← valueText receiver left
    let rightText ← valueText receiver right
    return grouped left leftText ++ " " ++ op.symbol ++ " " ++ grouped right rightText
  | .intToText inner => do
    refer .strconv
    return "strconv.FormatInt(int64(" ++ (← valueText receiver inner) ++ "), 10)"

def valueTexts (receiver : Option String) : List Value → Step Imports (List String)
  | [] => return []
  | value :: rest => do
    let text ← valueText receiver value
    let texts ← valueTexts receiver rest
    return text :: texts

def entryTexts (receiver : Option String) : List (Value × Value) → Step Imports (List String)
  | [] => return []
  | (key, value) :: rest => do
    let keyText ← valueText receiver key
    let text ← valueText receiver value
    let texts ← entryTexts receiver rest
    return (keyText ++ ": " ++ text) :: texts
end

/-- The spelling of a value as an operand. -/
def operandText (receiver : Option String) (value : Value) : Step Imports String :=
  return grouped value (← valueText receiver value)

end Polyglot.Go
