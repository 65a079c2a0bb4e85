import Polyglot.SourceFile
import Polyglot.TestFile.Jest
import Polyglot.TestFile.Testify

/-! # Test files

The test file that goes with each language.
-/

namespace Polyglot

/-- A test file in one of the languages. -/
inductive TestFile where
  | jest (file : Jest.File)
  | testify (file : Testify.File)
deriving DecidableEq

/-- An empty test file. It needs the module or package of the model under test. -/
def Language.newTestFile (options : Options) : Language → Except Fault TestFile
  | typeScript => return .jest { module := ← options.require Jest.target "module" }
  | go => return .testify { package := ← options.require Testify.target "package" }

namespace TestFile

def name : TestFile → String
  | jest _ => Jest.target
  | testify _ => Testify.target

def extension : TestFile → String
  | jest _ => Jest.extension
  | testify _ => Testify.extension

instance : TestTarget TestFile where
  procedure procedure
    | jest file => (TestTarget.procedure procedure : Step Jest.File Unit).within jest file
    | testify file =>
      (TestTarget.procedure procedure : Step Testify.File Unit).within testify file

/-- The text of the file. -/
def render : TestFile → Except Fault String
  | jest file => file.render
  | testify file => file.render

/-- Renders the file and writes it below a base path. Nothing is written if rendering fails. -/
def write (file : TestFile) (base : String) : Step FileTree String := do
  FileTree.writeDocument base file.extension (← file.render)

end TestFile

end Polyglot
