import Polyglot.Step
import Polyglot.Suite.Basic

/-! # Compiling suites

A suite compiles in two ways: its facts to the procedures of a test file, and its cases to the
methods of a program.
-/

namespace Polyglot

/-- The model that generated tests make and call. -/
def testModel : String := "TestModel"

/-- States that accept test procedures. -/
class TestTarget (σ : Type) where
  procedure : Procedure → Step σ Unit

/-- Adds procedures in order, up to the first fault. -/
def TestTarget.procedures {σ : Type} [TestTarget σ] : List Procedure → Step σ Unit
  | [] => return ()
  | first :: rest => do
    procedure first
    procedures rest

/-- Adds the procedures of a case. -/
def Case.test {σ : Type} [TestTarget σ] (case : Case) : Step σ Unit := do
  TestTarget.procedures (← SuiteDefect.lift case.plan)

namespace Suite

/-- Adds the procedures of a whole suite. -/
def compileTests {σ : Type} [TestTarget σ] (suite : Suite) : Step σ Unit := do
  TestTarget.procedures (← SuiteDefect.lift suite.plan)

/-- The method of a case. -/
def methodOf (case : Case) : Section Empty :=
  .method testModel case.name case.parameters case.returns case.body

/-- The model under test with one method for every case. -/
def outline (suite : Suite) (fields : List Field) : List (Section Empty) :=
  .model testModel fields :: suite.cases.map methodOf

/-- Writes the model under test to a target. -/
def compileProgram {σ : Type} [Target σ] (suite : Suite) (fields : List Field) : Step σ Unit := do
  SuiteDefect.lift suite.check
  Section.writeAll Empty.elim (suite.outline fields)

end Suite

end Polyglot
