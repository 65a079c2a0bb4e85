import Polyglot.Program
import Polyglot.Wire.Value

/-! # Stored programs

Blocks are stored in the order of their handles, so that a handle is stored as the position of
its block.
-/

namespace Polyglot

def Handle.toWire (handle : Handle) : Wire :=
  .int handle.index

def Handle.ofWire? (wire : Wire) : Option Handle :=
  wire.uint32?.map Handle.mk

namespace Action

def toWire : Action → Wire
  | assign target source =>
    .tagged "Assign" (.record [("target", target.toWire), ("source", source.toWire)])
  | declare name value =>
    .tagged "Declare" (.record [("name", .text name), ("value", value.toWire)])
  | appendValue array value =>
    .tagged "AppendValue" (.record [("array", array.toWire), ("value", value.toWire)])
  | appendArray array values =>
    .tagged "AppendArray" (.record [("array", array.toWire), ("values", values.toWire)])
  | removeValue array index =>
    .tagged "RemoveValue" (.record [("array", array.toWire), ("index", index.toWire)])
  | mapPut map key value =>
    .tagged "MapPut"
      (.record [("map", map.toWire), ("key", key.toWire), ("value", value.toWire)])
  | mapDelete map key =>
    .tagged "MapDelete" (.record [("map", map.toWire), ("key", key.toWire)])
  | giveBack value => .tagged "Return" value.toWire

end Action

namespace Stmt

def toWire : Stmt → Wire
  | act action => action.toWire
  | enter (.forEach array indexName valueName) body =>
    .tagged "ForEach"
      (.record [("array", array.toWire), ("index_name", .text indexName),
        ("value_name", .text valueName), ("body", body.toWire)])
  | enter (.ifThen condition) body =>
    .tagged "If" (.record [("cond", condition.toWire), ("body", body.toWire)])
  | branch condition thenBody elseBody =>
    .tagged "IfElse"
      (.record [("cond", condition.toWire), ("then_body", thenBody.toWire),
        ("else_body", elseBody.toWire)])

def ofWire? (wire : Wire) : Option Stmt := do
  let (tag, body) ← wire.tagged?
  let text (name : String) : Option String := do (← body.get? name).text?
  let value (name : String) : Option Value := do Value.ofWire? (← body.get? name)
  let handle (name : String) : Option Handle := do Handle.ofWire? (← body.get? name)
  match tag with
  | "Assign" => return act (.assign (← value "target") (← value "source"))
  | "Declare" => return act (.declare (← text "name") (← value "value"))
  | "AppendValue" => return act (.appendValue (← value "array") (← value "value"))
  | "AppendArray" => return act (.appendArray (← value "array") (← value "values"))
  | "RemoveValue" => return act (.removeValue (← value "array") (← value "index"))
  | "MapPut" => return act (.mapPut (← value "map") (← value "key") (← value "value"))
  | "MapDelete" => return act (.mapDelete (← value "map") (← value "key"))
  | "Return" => return act (.giveBack (← Value.ofWire? body))
  | "ForEach" =>
    let scope := .forEach (← value "array") (← text "index_name") (← text "value_name")
    return enter scope (← handle "body")
  | "If" => return enter (.ifThen (← value "cond")) (← handle "body")
  | "IfElse" => return branch (← value "cond") (← handle "then_body") (← handle "else_body")
  | _ => none

end Stmt

namespace Method

def toWire (method : Method) : Wire :=
  .record [("model", .text method.model), ("name", .text method.name),
    ("params", .list (method.params.map Field.toWire)),
    ("returns", .optional (method.returns.map Ty.toWire)), ("body", method.body.toWire)]

def ofWire? (wire : Wire) : Option Method := do
  let returns ←
    match wire.getOptional? "returns" with
    | none => pure none
    | some ty => some <$> Ty.ofWire? ty
  return {
    model := ← (← wire.get? "model").text?
    name := ← (← wire.get? "name").text?
    params := ← (← wire.get? "params").listOf? Field.ofWire?
    returns
    body := ← Handle.ofWire? (← wire.get? "body") }

end Method

namespace Decl

def toWire : Decl → Wire
  | model name fields =>
    .tagged "Model"
      (.record [("name", .text name), ("fields", .list (fields.map Field.toWire))])
  | enumeration name values =>
    .tagged "Enum" (.record [("name", .text name), ("values", .list (values.map Wire.text))])
  | method m => .tagged "Method" m.toWire

def ofWire? (wire : Wire) : Option Decl := do
  let (tag, body) ← wire.tagged?
  match tag with
  | "Model" =>
    return model (← (← body.get? "name").text?)
      (← (← body.get? "fields").listOf? Field.ofWire?)
  | "Enum" =>
    return enumeration (← (← body.get? "name").text?)
      (← (← body.get? "values").listOf? Wire.text?)
  | "Method" => return method (← Method.ofWire? body)
  | _ => none

end Decl

namespace Program

def toWire (program : Program) : Wire :=
  .record [("decls", .list (program.decls.toList.map Decl.toWire)),
    ("blocks", .list (program.blocks.toList.map fun block =>
      .list (block.toList.map Stmt.toWire)))]

def ofWire? (wire : Wire) : Option Program := do
  let decls ← (← wire.get? "decls").listOf? Decl.ofWire?
  let blocks ← (← wire.get? "blocks").listOf? (Wire.listOf? Stmt.ofWire?)
  return { decls := decls.toArray, blocks := (blocks.map List.toArray).toArray }

end Program

end Polyglot
