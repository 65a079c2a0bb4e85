import Polyglot.Suite.Basic
import Polyglot.Tag
import Polyglot.Text.Separated
import Polyglot.Text.Visible

/-! # Debugging views

One-line views of data by constructor: tags with their parts in parentheses, or in braces where
the parts have names. Texts are quoted, and characters that would not show are written by code
point.
-/

namespace Polyglot

namespace Inspect

/-- How a character appears in a quoted text. -/
def escape (c : Char) : List Char :=
  if c = '\x00' then ['\\', '0']
  else if c = '\t' then ['\\', 't']
  else if c = '\r' then ['\\', 'r']
  else if c = '\n' then ['\\', 'n']
  else if c = '"' then ['\\', '"']
  else if c = '\\' then ['\\', '\\']
  else if Text.isVisible c then [c]
  else '\\' :: 'u' :: '\x7b' :: (Nat.toDigits 16 c.toNat ++ ['\x7d'])

def text (content : String) : String :=
  String.ofList ('"' :: (content.toList.flatMap escape ++ ['"']))

/-- A tag with one part. -/
def applied (tag part : String) : String :=
  tag ++ "(" ++ part ++ ")"

def fields (parts : List (String × String)) : String :=
  Text.commaSeparated (parts.map fun part => part.1 ++ ": " ++ part.2)

/-- A tag with named parts. -/
def record (tag : String) (parts : List (String × String)) : String :=
  tag ++ " \x7b " ++ fields parts ++ " \x7d"

/-- A tag with named parts, of which not all are shown. -/
def openRecord (tag : String) (parts : List (String × String)) : String :=
  tag ++ " \x7b " ++ fields parts ++ ", .. \x7d"

def list (items : List String) : String :=
  "[" ++ Text.commaSeparated items ++ "]"

def optional (item : Option String) : String :=
  match item with
  | none => "None"
  | some view => applied "Some" view

end Inspect

open Inspect

def Handle.inspect (handle : Handle) : String :=
  applied "BlockId" (Decimal.natText handle.index)

def Ty.inspect : Ty → String
  | primitive kind => applied "Primitive" kind.tag
  | model name => applied "Model" (text name)
  | array element => applied "Array" element.inspect
  | map key value => record "Map" [("key", key.inspect), ("value", value.inspect)]
  | pointer pointee => applied "Pointer" pointee.inspect

def Field.inspect (field : Field) : String :=
  record "Field" [("name", text field.name), ("ty", field.ty.inspect)]

namespace Value

mutual
def inspect (value : Value) : String :=
  let tag := value.kind.tag
  match value with
  | null => tag
  | text content => applied tag (Inspect.text content)
  | int n => applied tag (Decimal.intText n.toInt)
  | float bits => applied tag (Decimal.natText bits.toNat)
  | bool b => applied tag (if b then "true" else "false")
  | array element elements =>
    record tag [("element_type", element.inspect), ("elements", list (inspectAll elements))]
  | map key value entries =>
    record tag [("key_type", key.inspect), ("value_type", value.inspect),
      ("entries", list (inspectEntries entries))]
  | binding name => applied tag (Inspect.text name)
  | ownField field => applied tag (inspect field)
  | modelField model field =>
    record tag [("model", Inspect.text model), ("field", inspect field)]
  | arrayElement source index =>
    record tag [("array", inspect source), ("index", inspect index)]
  | mapElement source key => record tag [("map", inspect source), ("key", inspect key)]
  | combined left op right =>
    record tag [("left", inspect left), ("op", op.tag), ("right", inspect right)]
  | intToText inner => applied tag (inspect inner)

def inspectAll : List Value → List String
  | [] => []
  | value :: rest => inspect value :: inspectAll rest

def inspectEntries : List (Value × Value) → List String
  | [] => []
  | (key, value) :: rest =>
    record "MapEntry" [("key", inspect key), ("value", inspect value)] :: inspectEntries rest
end

end Value

def SideEffect.inspect (effect : SideEffect) : String :=
  record "SideEffect" [("field", text effect.field), ("expected", effect.expected.inspect)]

def Fact.inspect (fact : Fact) : String :=
  record "Fact" [("name", text fact.name), ("inputs", list (fact.inputs.map Value.inspect)),
    ("side_effects", list (fact.sideEffects.map SideEffect.inspect)),
    ("output", optional (fact.output.map Value.inspect))]

/-- The view of a case leaves its body out. -/
def Case.inspect (case : Case) : String :=
  openRecord "Case" [("name", text case.name), ("description", text case.description),
    ("parameters", list (case.parameters.map Field.inspect)),
    ("returns", optional (case.returns.map Ty.inspect)),
    ("facts", list (case.facts.map Fact.inspect))]

end Polyglot
