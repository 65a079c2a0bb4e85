import Polyglot.Fact
import Polyglot.Target.Outline

/-! # Suites

A case is a method of the model under test together with the facts about it; a suite is a list of
cases. Every fact of a valid suite becomes one test procedure.
-/

namespace Polyglot

/-- A method of the model under test, its body and the facts about it. -/
structure Case where
  name : String
  description : String := ""
  parameters : List Field := []
  returns : Option Ty := none
  body : List (Outline Empty) := []
  facts : List Fact := []

structure Suite where
  cases : List Case := []

/-- One test: make a fresh model, call the method with the inputs, then check the output and the
side effects, in this order. -/
structure Procedure where
  name : String
  method : String
  inputs : List Value
  output : Option Value
  sideEffects : List SideEffect
deriving DecidableEq

namespace Case

/-- The name of the test procedure of a fact. -/
def procedureName (case : Case) (fact : Fact) : String :=
  case.name ++ fact.name

def procedure (case : Case) (fact : Fact) : Procedure :=
  { name := case.procedureName fact
    method := case.name
    inputs := fact.inputs
    output := fact.output
    sideEffects := fact.sideEffects }

/-- A fact gives every parameter an input, expects no output of a method without result, and
mentions no variables or fields. -/
def checkFact (case : Case) (fact : Fact) : Except SuiteDefect Unit := do
  if fact.inputs.length ≠ case.parameters.length then
    throw (.inputCount fact.name case.name fact.inputs.length case.parameters.length)
  if fact.output.isSome ∧ case.returns.isNone then
    throw (.outputOfVoidCase fact.name case.name)
  if fact.literals.any Value.isMethodDependent then
    throw (.dependentLiteral fact.name case.name)

/-- Checks facts in order; their names must differ from each other and from those in `seen`. -/
def checkFacts (case : Case) (seen : List String) : List Fact → Except SuiteDefect Unit
  | [] => return ()
  | fact :: rest => do
    if fact.name ∈ seen then
      throw (.repeatedFact fact.name case.name)
    case.checkFact fact
    case.checkFacts (fact.name :: seen) rest

/-- Checks a case by itself. -/
def check (case : Case) : Except SuiteDefect Unit :=
  case.checkFacts [] case.facts

/-- The procedures of a case, without any check. -/
def procedures (case : Case) : List Procedure :=
  case.facts.map case.procedure

/-- The procedures of a case that passes its check, in the order of the facts. -/
def plan (case : Case) : Except SuiteDefect (List Procedure) := do
  case.check
  return case.procedures

end Case

namespace Suite

/-- The number of facts, which is the number of test procedures. -/
def factCount (suite : Suite) : Nat :=
  (suite.cases.flatMap (·.facts)).length

/-- Adds names to those seen; none may repeat. -/
def addProcedures (seen : List String) : List String → Except SuiteDefect (List String)
  | [] => return seen
  | name :: rest => do
    if name ∈ seen then
      throw (.repeatedProcedure name)
    addProcedures (name :: seen) rest

/-- Checks cases in order. Names of cases and of procedures must differ from each other and from
those seen before. -/
def checkCases (cases procedures : List String) : List Case → Except SuiteDefect Unit
  | [] => return ()
  | case :: rest => do
    if case.name ∈ cases then
      throw (.repeatedCase case.name)
    case.check
    let procedures ← addProcedures procedures (case.procedures.map (·.name))
    checkCases (case.name :: cases) procedures rest

/-- Checks all rules for a suite. -/
def check (suite : Suite) : Except SuiteDefect Unit :=
  checkCases [] [] suite.cases

/-- The procedures of a suite that passes its check, in the order of cases and facts. -/
def plan (suite : Suite) : Except SuiteDefect (List Procedure) := do
  suite.check
  return suite.cases.flatMap Case.procedures

end Suite

/-- A checked result, with a defect of the suite as a fault. -/
def SuiteDefect.lift {α : Type} (checked : Except SuiteDefect α) : Except Fault α :=
  checked.mapError Fault.invalidSuite

end Polyglot
