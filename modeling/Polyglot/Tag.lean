import Polyglot.Value

/-! # Tags

The names under which primitives, operators and kinds of values appear outside of programs: in
stored programs and in debugging views.
-/

namespace Polyglot

def Primitive.tag : Primitive → String
  | bool => "Bool"
  | int => "Int"
  | int32 => "Int32"
  | int64 => "Int64"
  | float32 => "Float32"
  | float64 => "Float64"
  | string => "String"

def Primitive.ofTag? (tag : String) : Option Primitive :=
  Primitive.all.find? (·.tag = tag)

def Operator.tag : Operator → String
  | add => "Add"
  | sub => "Sub"
  | mul => "Mul"
  | div => "Div"
  | mod => "Mod"
  | eq => "Eq"
  | notEq => "NotEq"
  | lt => "Lt"
  | ltEq => "LtEq"
  | gt => "Gt"
  | gtEq => "GtEq"
  | and => "And"
  | or => "Or"

def Operator.ofTag? (tag : String) : Option Operator :=
  Operator.all.find? (·.tag = tag)

def Kind.tag : Kind → String
  | null => "Null"
  | text => "String"
  | int => "Int"
  | float => "Float"
  | bool => "Bool"
  | array => "Array"
  | map => "Map"
  | binding => "Id"
  | ownField => "OwnField"
  | modelField => "ModelField"
  | arrayElement => "ArrayElement"
  | mapElement => "MapElement"
  | combined => "Combined"
  | intToText => "IntToString"

theorem Primitive.ofTag?_tag (kind : Primitive) : ofTag? kind.tag = some kind := by
  cases kind <;> decide

theorem Operator.ofTag?_tag (op : Operator) : ofTag? op.tag = some op := by
  cases op <;> decide

end Polyglot
