import Polyglot.File.Go
import Polyglot.Suite.Compile

/-! # Testify files

Tests of a Go model: one function for every procedure. Procedures whose functions would have the
same name are refused.
-/

namespace Polyglot.Testify

/-- A test file under construction. -/
structure File where
  package : String
  document : Document := {}
  imports : Imports := (({} : Imports).insert .testing).insert .require
  /-- The names of the functions so far. -/
  functions : List String := []
deriving DecidableEq

/-- The name of this target in diagnostics. -/
def target : String := "testify"

/-- What a file's name ends in. -/
def extension : String := "_test.go"

/-- The function of a procedure: the first letter after `Test` is in upper case, without which the
function would not count as a test. -/
def functionName (procedure : String) : String :=
  match procedure.toList with
  | [] => "Test"
  | first :: rest => "Test" ++ String.ofList (Text.uppercase first ++ rest)

namespace File

/-- A step on the document of a file. -/
def onDocument {α : Type} (step : Step Document α) : Step File α :=
  Step.focus File.document (fun document file => { file with document }) step

/-- A step on the imports of a file. -/
def onImports {α : Type} (step : Step Imports α) : Step File α :=
  Step.focus File.imports (fun imports file => { file with imports }) step

end File

/-- A check that something has the expected value. -/
def expectation (expected subject : String) : String :=
  "require.EqualValues(t, " ++ expected ++ ", " ++ subject ++ ")"

/-- The checks of the side effects. -/
def addEffects (body : Handle) : List SideEffect → Step File Unit
  | [] => return ()
  | effect :: rest => do
    let expected ← File.onImports (Go.valueText none effect.expected)
    File.onDocument (Document.addLine body (expectation expected ("model." ++ effect.field)))
    addEffects body rest

/-- Adds a test to the file. Its block is shown only once it is complete. -/
def addProcedure (procedure : Procedure) : Step File Unit := do
  let function := functionName procedure.name
  if (← get).functions.contains function then
    throw (.invalidSuite (.repeatedFunction function))
  let inputs ← File.onImports (Go.valueTexts none procedure.inputs)
  let call := "model." ++ procedure.method ++ "(" ++ Text.commaSeparated inputs ++ ")"
  let body ← File.onDocument (Document.newBlock none)
  File.onDocument (Document.addLine body ("model := " ++ testModel ++ "\x7b\x7d"))
  match procedure.output with
  | some output =>
    let expected ← File.onImports (Go.valueText none output)
    File.onDocument (Document.addLine body ("output := " ++ call))
    File.onDocument (Document.addLine body (expectation expected "output"))
  | none => File.onDocument (Document.addLine body call)
  addEffects body procedure.sideEffects
  File.onDocument do
    Document.separate
    Document.place ("func " ++ function ++ "(t *testing.T) \x7b") body "\x7d"
  modify fun file => { file with functions := function :: file.functions }

instance : TestTarget File where
  procedure := addProcedure

/-- The text of the file. -/
def File.render (file : File) : Except Fault String :=
  Go.renderFile file.package file.imports file.document

end Polyglot.Testify
