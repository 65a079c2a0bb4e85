import Polyglot.Document.Layout
import Polyglot.Lowering.TypeScript
import Polyglot.Suite.Compile

/-! # Jest files

Tests of a TypeScript model: one `test` call for every procedure.
-/

namespace Polyglot.Jest

/-- A test file under construction. `module` is the path that the model is imported from. -/
structure File where
  module : String
  document : Document := {}
deriving DecidableEq

/-- The name of this target in diagnostics. -/
def target : String := "jest"

/-- What a file's name ends in. -/
def extension : String := ".test.ts"

/-- A check that something has the expected value. -/
def expectation (subject : String) (expected : Value) : Except Fault String :=
  return "expect(" ++ subject ++ ").toEqual(" ++ (← TypeScript.valueText expected) ++ ");"

/-- The checks of the side effects. -/
def addEffects (body : Handle) : List SideEffect → Step Document Unit
  | [] => return ()
  | effect :: rest => do
    Document.addLine body (← expectation ("model." ++ effect.field) effect.expected)
    addEffects body rest

/-- Adds a test to the document. Its block is shown only once it is complete. -/
def addProcedure (procedure : Procedure) : Step Document Unit := do
  let inputs ← TypeScript.valueTexts procedure.inputs
  let call := "model." ++ procedure.method ++ "(" ++ Text.commaSeparated inputs ++ ")"
  let body ← Document.newBlock none
  Document.addLine body ("const model = new " ++ testModel ++ "();")
  match procedure.output with
  | some output =>
    Document.addLine body ("const output = " ++ call ++ ";")
    Document.addLine body (← expectation "output" output)
  | none => Document.addLine body (call ++ ";")
  addEffects body procedure.sideEffects
  Document.addLine .root ""
  Document.place ("test(" ++ Text.quote procedure.name ++ ", () => \x7b") body "\x7d);"

instance : TestTarget File where
  procedure procedure :=
    Step.focus File.document (fun document file => { file with document })
      (addProcedure procedure)

/-- The text of the file: the import of the model, then the tests. -/
def File.render (file : File) : Except Fault String :=
  let importLine := "import \x7b " ++ testModel ++ " \x7d from " ++ Text.quote file.module ++ ";"
  file.document.renderAfter (Sink.line 0 importLine (Buffer.ofIndent .tab))

end Polyglot.Jest
