import Polyglot.Document.Layout
import Polyglot.Lowering.Go
import Polyglot.Target.Basic

/-! # Go files

Models become structs, and methods become functions with a receiver, shown where they are
declared. That every method has its model is checked when the file is rendered.
-/

namespace Polyglot.Go

/-- A file under construction. -/
structure File where
  package : String
  document : Document := {}
  imports : Imports := {}
  /-- The models declared so far. -/
  models : List String := []
  /-- Model and name of the methods declared so far, earliest first. -/
  methods : List (String × String) := []
deriving DecidableEq

/-- What a file's name ends in. -/
def extension : String := ".go"

/-- Emits the import clause: none, one line, or a sorted group. -/
def emitImports {ε : Type} [Sink ε] (imports : Imports) (sink : ε) : ε :=
  let quoted (package : Package) : String := "\"" ++ package.path ++ "\""
  match imports.toList with
  | [] => sink
  | [package] => Sink.line 0 ("import " ++ quoted package) (Sink.line 0 "" sink)
  | packages =>
    let opened := Sink.line 0 "import (" (Sink.line 0 "" sink)
    let listed := packages.foldl (fun sink package => Sink.line 1 (quoted package) sink) opened
    Sink.line 0 ")" listed

/-- The text of a file: package clause, imports, then the document. -/
def renderFile (package : String) (imports : Imports) (document : Document) :
    Except Fault String := do
  let clause := Sink.line 0 ("package " ++ package) (Buffer.ofIndent .tab)
  let heading := emitImports imports clause
  if ← document.isEmptyAt .root then
    document.renderAfter heading
  else
    document.renderAfter (Sink.line 0 "" heading)

namespace File

/-- A step on the document of a file. -/
def onDocument {α : Type} (step : Step Document α) : Step File α :=
  Step.focus File.document (fun document file => { file with document }) step

/-- A step on the imports of a file. -/
def onImports {α : Type} (step : Step Imports α) : Step File α :=
  Step.focus File.imports (fun imports file => { file with imports }) step

/-- The first method whose model is not declared. -/
def firstStray? (file : File) : Option (String × String) :=
  file.methods.find? fun method => !file.models.contains method.1

/-- The text of the file. -/
def render : Step File String := do
  let file ← get
  match file.firstStray? with
  | some (model, method) => throw (.brokenReference model method)
  | none => renderFile file.package file.imports file.document

end File

/-- A field of a struct or a parameter. -/
def paramText (field : Field) : Except Fault String :=
  return field.name ++ " " ++ (← typeText field.ty)

def paramTexts : List Field → Except Fault (List String)
  | [] => return []
  | field :: rest => do
    let text ← paramText field
    let texts ← paramTexts rest
    return text :: texts

/-- Parameters and result of a method. -/
def signatureText (params : List Field) (returns : Option Ty) : Except Fault String := do
  let texts ← paramTexts params
  let list := "(" ++ Text.commaSeparated texts ++ ")"
  match returns with
  | none => return list
  | some ty => return list ++ " " ++ (← typeText ty)

/-- A parameter or local must not have the name of the receiver, which it would hide. -/
def checkBinding (receiver name : String) : Except Fault Unit :=
  if name = receiver then throw (.unsupported target (.shadowedReceiver name)) else return ()

def checkBindings (receiver : String) : List String → Except Fault Unit
  | [] => return ()
  | name :: rest => do
    checkBinding receiver name
    checkBindings receiver rest

/-- The names that a statement without a scope binds. -/
def boundNames : Action → List String
  | .declare name _ => [name]
  | _ => []

/-- A statement without a scope, in a method with the given receiver variable. -/
def actionText (receiver : Option String) : Action → Step Imports String
  | .assign target source => do
    let targetText ← valueText receiver target
    let sourceText ← valueText receiver source
    return targetText ++ " = " ++ sourceText
  | .declare name value => return name ++ " := " ++ (← valueText receiver value)
  | .appendValue array value => do
    let arrayText ← valueText receiver array
    let text ← valueText receiver value
    return arrayText ++ " = append(" ++ arrayText ++ ", " ++ text ++ ")"
  | .appendArray array values => do
    let arrayText ← valueText receiver array
    let text ← valueText receiver values
    return arrayText ++ " = append(" ++ arrayText ++ ", " ++ text ++ "...)"
  | .removeValue array index => do
    let arrayText ← valueText receiver array
    let indexText ← operandText receiver index
    return arrayText ++ " = append(" ++ arrayText ++ "[:" ++ indexText ++ "], " ++ arrayText ++
      "[" ++ indexText ++ "+1:]...)"
  | .mapPut map key value => do
    let mapText ← valueText receiver map
    let keyText ← valueText receiver key
    let text ← valueText receiver value
    return mapText ++ "[" ++ keyText ++ "] = " ++ text
  | .mapDelete map key => do
    let mapText ← valueText receiver map
    let keyText ← valueText receiver key
    return "delete(" ++ mapText ++ ", " ++ keyText ++ ")"
  | .giveBack value => return "return " ++ (← valueText receiver value)

/-- The header of a loop over an array. Unused bindings are left out or blank. -/
def loopHeader (arrayText : String) : (index value : Option String) → String
  | none, none => "for range " ++ arrayText ++ " \x7b"
  | some i, none => "for " ++ i ++ " := range " ++ arrayText ++ " \x7b"
  | none, some v => "for _, " ++ v ++ " := range " ++ arrayText ++ " \x7b"
  | some i, some v => "for " ++ i ++ ", " ++ v ++ " := range " ++ arrayText ++ " \x7b"

def conditionHeader (receiver : Option String) (condition : Value) : Step Imports String :=
  return "if " ++ (← valueText receiver condition) ++ " \x7b"

/-- The names that a scope binds. -/
def scopeNames : Scope → List String
  | .forEach _ indexName valueName =>
    (usedBinding? indexName).toList ++ (usedBinding? valueName).toList
  | .ifThen _ => []

def scopeHeader (receiver : Option String) : Scope → Step Imports String
  | .forEach array indexName valueName =>
    return loopHeader (← valueText receiver array) (usedBinding? indexName)
      (usedBinding? valueName)
  | .ifThen condition => conditionHeader receiver condition

/-- The receiver variable of the method that a block belongs to. -/
def receiverOf (document : Document) (block : Handle) : Except Fault String := do
  match ← document.ownerOf block with
  | some model => return receiverName model
  | none => throw (.unsupported target (.looseStatement block))

/-- The values of an enumeration; the first one starts the count. -/
def enumLines (name : String) : List String → List String
  | [] => []
  | first :: rest =>
    (name ++ "_" ++ first ++ " " ++ name ++ " = iota") :: rest.map (name ++ "_" ++ ·)

instance : Target File where
  model name fields := do
    let lines ← paramTexts fields
    File.onDocument do
      let body ← Document.newBlock none
      Document.addLines body lines
      Document.separate
      Document.place ("type " ++ name ++ " struct \x7b") body "\x7d"
    modify fun file => { file with models := name :: file.models }
  enumeration name values := File.onDocument do
    Document.separate
    Document.addLine .root ("type " ++ name ++ " int")
    unless values.isEmpty do
      let body ← Document.newBlock none
      Document.addLines body (enumLines name values)
      Document.addLine .root ""
      Document.place "const (" body ")"
  method model name params returns := do
    let signature ← signatureText params returns
    let receiver := receiverName model
    checkBindings receiver (params.map (·.name))
    let body ← File.onDocument do
      let body ← Document.newBlock (some model)
      Document.separate
      Document.place
        ("func (" ++ receiver ++ " *" ++ model ++ ") " ++ name ++ signature ++ " \x7b") body "\x7d"
      return body
    modify fun file => { file with methods := file.methods ++ [(model, name)] }
    return body
  act block action := do
    let receiver ← receiverOf (← get).document block
    checkBindings receiver (boundNames action)
    let text ← File.onImports (actionText (some receiver) action)
    File.onDocument (Document.addLine block text)
  enter block scope := do
    let receiver ← receiverOf (← get).document block
    checkBindings receiver (scopeNames scope)
    let header ← File.onImports (scopeHeader (some receiver) scope)
    File.onDocument (Document.openScope block header "\x7d")
  branch block condition := do
    let receiver ← receiverOf (← get).document block
    let header ← File.onImports (conditionHeader (some receiver) condition)
    File.onDocument (Document.openScopes block header "\x7d else \x7b" "\x7d")

end Polyglot.Go
