import Polyglot.Tag
import Polyglot.Wire.Basic

/-! # Stored types and values

A type or value is stored as its tag together with its parts. The null value is stored as the
bare text `Null`, which keeps it apart from an absent value.
-/

namespace Polyglot

/-! ### Types -/

def Ty.toWire : Ty → Wire
  | primitive kind => .tagged "Primitive" (.text kind.tag)
  | model name => .tagged "Model" (.text name)
  | array element => .tagged "Array" element.toWire
  | map key value => .tagged "Map" (.record [("key", key.toWire), ("value", value.toWire)])
  | pointer pointee => .tagged "Pointer" pointee.toWire

def Ty.ofWire? (wire : Wire) : Option Ty := do
  let (tag, body) ← wire.variant?
  match tag with
  | "Primitive" => return primitive (← Primitive.ofTag? (← body.val.text?))
  | "Model" => return model (← body.val.text?)
  | "Array" => return array (← ofWire? body.val)
  | "Map" =>
    let key ← body.val.field? "key"
    let value ← body.val.field? "value"
    return map (← ofWire? key.val) (← ofWire? value.val)
  | "Pointer" => return pointer (← ofWire? body.val)
  | _ => none
termination_by sizeOf wire
decreasing_by
  · exact body.property
  · exact Nat.lt_trans key.property body.property
  · exact Nat.lt_trans value.property body.property
  · exact body.property

def Field.toWire (field : Field) : Wire :=
  .record [("name", .text field.name), ("ty", field.ty.toWire)]

def Field.ofWire? (wire : Wire) : Option Field :=
  return { name := ← (← wire.get? "name").text?, ty := ← Ty.ofWire? (← wire.get? "ty") }

def Operator.toWire (op : Operator) : Wire :=
  .text op.tag

def Operator.ofWire? (wire : Wire) : Option Operator := do
  ofTag? (← wire.text?)

/-! ### Values -/

namespace Value

mutual
def toWire : Value → Wire
  | null => .text "Null"
  | text content => .tagged "String" (.text content)
  | int n => .tagged "Int" (.int n.toInt)
  | float bits => .tagged "Float" (.int bits.toNat)
  | bool b => .tagged "Bool" (.bool b)
  | array element elements =>
    .tagged "Array"
      (.record [("element_type", element.toWire), ("elements", .list (toWires elements))])
  | map key value entries =>
    .tagged "Map"
      (.record [("key_type", key.toWire), ("value_type", value.toWire),
        ("entries", .list (entriesToWires entries))])
  | binding name => .tagged "Id" (.text name)
  | ownField field => .tagged "OwnField" (toWire field)
  | modelField model field =>
    .tagged "ModelField" (.record [("model", .text model), ("field", toWire field)])
  | arrayElement source index =>
    .tagged "ArrayElement" (.record [("array", toWire source), ("index", toWire index)])
  | mapElement source key =>
    .tagged "MapElement" (.record [("map", toWire source), ("key", toWire key)])
  | combined left op right =>
    .tagged "Combined"
      (.record [("left", toWire left), ("op", op.toWire), ("right", toWire right)])
  | intToText inner => .tagged "IntToString" (toWire inner)

def toWires : List Value → List Wire
  | [] => []
  | value :: rest => toWire value :: toWires rest

def entriesToWires : List (Value × Value) → List Wire
  | [] => []
  | (key, value) :: rest =>
    .record [("key", toWire key), ("value", toWire value)] :: entriesToWires rest
end

def ofWire? (wire : Wire) : Option Value :=
  match wire with
  | .text "Null" => some null
  | wire => do
    let (tag, body) ← wire.variant?
    match tag with
    | "String" => return text (← body.val.text?)
    | "Int" => return int (← body.val.int64?)
    | "Float" => return float (← body.val.uint64?)
    | "Bool" => return bool (← body.val.bool?)
    | "Array" =>
      let element ← Ty.ofWire? (← body.val.get? "element_type")
      let elements ← body.val.field? "elements"
      let items ← elements.val.items?
      return array element (← items.mapM fun item => ofWire? item.val)
    | "Map" =>
      let key ← Ty.ofWire? (← body.val.get? "key_type")
      let value ← Ty.ofWire? (← body.val.get? "value_type")
      let entries ← body.val.field? "entries"
      let items ← entries.val.items?
      return map key value (← items.mapM fun item => do
        let entryKey ← item.val.field? "key"
        let entryValue ← item.val.field? "value"
        return (← ofWire? entryKey.val, ← ofWire? entryValue.val))
    | "Id" => return binding (← body.val.text?)
    | "OwnField" => return ownField (← ofWire? body.val)
    | "ModelField" =>
      let model ← (← body.val.get? "model").text?
      let field ← body.val.field? "field"
      return modelField model (← ofWire? field.val)
    | "ArrayElement" =>
      let source ← body.val.field? "array"
      let index ← body.val.field? "index"
      return arrayElement (← ofWire? source.val) (← ofWire? index.val)
    | "MapElement" =>
      let source ← body.val.field? "map"
      let key ← body.val.field? "key"
      return mapElement (← ofWire? source.val) (← ofWire? key.val)
    | "Combined" =>
      let left ← body.val.field? "left"
      let op ← Operator.ofWire? (← body.val.get? "op")
      let right ← body.val.field? "right"
      return combined (← ofWire? left.val) op (← ofWire? right.val)
    | "IntToString" => return intToText (← ofWire? body.val)
    | _ => none
termination_by sizeOf wire
decreasing_by
  · exact Nat.lt_trans item.property (Nat.lt_trans elements.property body.property)
  · exact Nat.lt_trans entryKey.property
      (Nat.lt_trans item.property (Nat.lt_trans entries.property body.property))
  · exact Nat.lt_trans entryValue.property
      (Nat.lt_trans item.property (Nat.lt_trans entries.property body.property))
  · exact body.property
  · exact Nat.lt_trans field.property body.property
  · exact Nat.lt_trans source.property body.property
  · exact Nat.lt_trans index.property body.property
  · exact Nat.lt_trans source.property body.property
  · exact Nat.lt_trans key.property body.property
  · exact Nat.lt_trans left.property body.property
  · exact Nat.lt_trans right.property body.property
  · exact body.property

end Value

end Polyglot
