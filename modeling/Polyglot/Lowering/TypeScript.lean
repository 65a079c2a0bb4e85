import Polyglot.Decimal.Shortest
import Polyglot.Fault
import Polyglot.Lowering.Spelling
import Polyglot.Text.Quoted
import Polyglot.Text.Separated

/-! # Types and values in TypeScript

All numeric types become `number`. Members of the receiver are reached through `this`, so a value
needs no context to be spelled.
-/

namespace Polyglot.TypeScript

open Text Lowering

/-- The name of this target in diagnostics. -/
def target : String := "typescript"

def primitiveText : Primitive → String
  | .bool => "boolean"
  | .int | .int32 | .int64 | .float32 | .float64 => "number"
  | .string => "string"

/-- The spelling of a type; pointers have none. -/
def typeText : Ty → Except Fault String
  | .primitive kind => return primitiveText kind
  | .model name => return name
  | .array element => return (← typeText element) ++ "[]"
  | .map key value => do
    let keyText ← typeText key
    let valueText ← typeText value
    return "Map<" ++ keyText ++ ", " ++ valueText ++ ">"
  | .pointer pointee => throw (.unsupported target (.pointerType (.pointer pointee)))

/-- Equality is strict. -/
def operatorText : Operator → String
  | .eq => "==="
  | .notEq => "!=="
  | op => op.symbol

def floatText (bits : UInt64) : String :=
  match Decimal.finiteText? bits with
  | some text => text
  | none =>
    if Double.isNaN bits then "NaN"
    else if Double.isNegative bits then "-Infinity"
    else "Infinity"

mutual
/-- The spelling of a value. The element type of an array literal is not spelled, and not checked
either. -/
def valueText : Value → Except Fault String
  | .null => return "null"
  | .text content => return quote content
  | .int n => return Decimal.intText n.toInt
  | .float bits => return floatText bits
  | .bool b => return boolText b
  | .array _ elements => do
    let texts ← valueTexts elements
    return "[" ++ commaSeparated texts ++ "]"
  | .map key value entries => do
    let mapType ← typeText (.map key value)
    let texts ← entryTexts entries
    return "new " ++ mapType ++ "([" ++ commaSeparated texts ++ "])"
  | .binding name => return name
  | .ownField field => return "this." ++ (← valueText field)
  | .modelField model field => return model ++ "." ++ (← valueText field)
  | .arrayElement source index => do
    let sourceText ← valueText source
    let indexText ← valueText index
    return sourceText ++ "[" ++ indexText ++ "]"
  | .mapElement source key => do
    let sourceText ← valueText source
    let keyText ← valueText key
    return sourceText ++ ".get(" ++ keyText ++ ")"
  | .combined left op right => do
    let leftText ← valueText left
    let rightText ← valueText right
    return grouped left leftText ++ " " ++ operatorText op ++ " " ++ grouped right rightText
  | .intToText inner => return "String(" ++ (← valueText inner) ++ ")"

def valueTexts : List Value → Except Fault (List String)
  | [] => return []
  | value :: rest => do
    let text ← valueText value
    let texts ← valueTexts rest
    return text :: texts

def entryTexts : List (Value × Value) → Except Fault (List String)
  | [] => return []
  | (key, value) :: rest => do
    let keyText ← valueText key
    let text ← valueText value
    let texts ← entryTexts rest
    return ("[" ++ keyText ++ ", " ++ text ++ "]") :: texts
end

end Polyglot.TypeScript
