import Polyglot.Document.Layout
import Polyglot.Document.Members
import Polyglot.Lowering.TypeScript
import Polyglot.Target.Basic

/-! # TypeScript files

Models become classes, and methods become members of their class. A method is kept aside until
the file is rendered, and only then moved into its class.
-/

namespace Polyglot.TypeScript

/-- A file under construction. -/
structure File where
  document : Document := {}
  members : Members := {}
deriving DecidableEq

/-- What a file's name ends in. -/
def extension : String := ".ts"

namespace File

/-- A step on the document of a file. -/
def onDocument {α : Type} (step : Step Document α) : Step File α :=
  Step.focus File.document (fun document file => { file with document }) step

/-- Settling the members of a file. -/
def settle : Step File Unit :=
  Step.focus (fun file => (file.document, file.members))
    (fun state _ => { document := state.1, members := state.2 }) Members.settle

/-- The text of the file. -/
def render : Step File String := do
  settle
  (← get).document.render

end File

/-- A field as a parameter of a method. -/
def paramText (field : Field) : Except Fault String :=
  return field.name ++ ": " ++ (← typeText field.ty)

def paramTexts : List Field → Except Fault (List String)
  | [] => return []
  | field :: rest => do
    let text ← paramText field
    let texts ← paramTexts rest
    return text :: texts

/-- The header of a method. -/
def methodHeader (name : String) (params : List Field) (returns : Option Ty) :
    Except Fault String := do
  let texts ← paramTexts params
  let signature := "public " ++ name ++ "(" ++ Text.commaSeparated texts ++ ")"
  match returns with
  | none => return signature ++ " \x7b"
  | some ty => return signature ++ ": " ++ (← typeText ty) ++ " \x7b"

/-- A statement without a scope. -/
def actionText : Action → Except Fault String
  | .assign target source => do
    let targetText ← valueText target
    let sourceText ← valueText source
    return targetText ++ " = " ++ sourceText ++ ";"
  | .declare name value => return "let " ++ name ++ " = " ++ (← valueText value) ++ ";"
  | .appendValue array value => do
    let arrayText ← valueText array
    let text ← valueText value
    return arrayText ++ ".push(" ++ text ++ ");"
  | .appendArray array values => do
    let arrayText ← valueText array
    let text ← valueText values
    return arrayText ++ ".push(..." ++ text ++ ");"
  | .removeValue array index => do
    let arrayText ← valueText array
    let indexText ← valueText index
    return arrayText ++ ".splice(" ++ indexText ++ ", 1);"
  | .mapPut map key value => do
    let mapText ← valueText map
    let keyText ← valueText key
    let text ← valueText value
    return mapText ++ ".set(" ++ keyText ++ ", " ++ text ++ ");"
  | .mapDelete map key => do
    let mapText ← valueText map
    let keyText ← valueText key
    return mapText ++ ".delete(" ++ keyText ++ ");"
  | .giveBack value => return "return " ++ (← valueText value) ++ ";"

/-- The header of a loop over an array. Without bindings a counter drives the loop; it is read by
the loop itself and so never unused. -/
def loopHeader (arrayText : String) : (index value : Option String) → String
  | none, none => "for (let _i = 0; _i < " ++ arrayText ++ ".length; _i++) \x7b"
  | some i, none =>
    "for (let " ++ i ++ " = 0; " ++ i ++ " < " ++ arrayText ++ ".length; " ++ i ++ "++) \x7b"
  | none, some v => "for (const " ++ v ++ " of " ++ arrayText ++ ") \x7b"
  | some i, some v =>
    "for (const [" ++ i ++ ", " ++ v ++ "] of " ++ arrayText ++ ".entries()) \x7b"

def conditionHeader (condition : Value) : Except Fault String :=
  return "if (" ++ (← valueText condition) ++ ") \x7b"

def scopeHeader : Scope → Except Fault String
  | .forEach array indexName valueName =>
    return loopHeader (← valueText array) (usedBinding? indexName) (usedBinding? valueName)
  | .ifThen condition => conditionHeader condition

/-- Statements belong into method bodies. -/
def checkInMethod (block : Handle) : Step Document Unit := do
  match ← (← get).ownerOf block with
  | some _ => return ()
  | none => throw (.unsupported target (.looseStatement block))

/-- The values of an enumeration with their codes. -/
def enumLines (values : List String) : List String :=
  values.zipIdx.map fun (value, code) => value ++ " = " ++ Decimal.natText code ++ ","

instance : Target File where
  model name fields := do
    let lines := (← paramTexts fields).map (· ++ ";")
    let body ← File.onDocument do
      let body ← Document.newBlock none
      Document.addLines body lines
      Document.separate
      Document.place ("export class " ++ name ++ " \x7b") body "\x7d"
      return body
    modify fun file => { file with members := file.members.register name body }
  enumeration name values := File.onDocument do
    let body ← Document.newBlock none
    Document.addLines body (enumLines values)
    Document.separate
    Document.place ("export enum " ++ name ++ " \x7b") body "\x7d"
  method model name params returns := do
    let header ← methodHeader name params returns
    let (member, body) ← File.onDocument do
      let member ← Document.newBlock (some model)
      let body ← Document.newBlockIn member
      Document.addLine member header
      Document.addBlock member body
      Document.addLine member "\x7d"
      return (member, body)
    modify fun file =>
      { file with members := file.members.defer { model, method := name, block := member } }
    return body
  act block action := do
    let text ← actionText action
    File.onDocument do
      checkInMethod block
      Document.addLine block text
  enter block scope := do
    let header ← scopeHeader scope
    File.onDocument do
      checkInMethod block
      Document.openScope block header "\x7d"
  branch block condition := do
    let header ← conditionHeader condition
    File.onDocument do
      checkInMethod block
      Document.openScopes block header "\x7d else \x7b" "\x7d"

end Polyglot.TypeScript
