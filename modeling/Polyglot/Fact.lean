import Polyglot.Value

/-! # Facts

A fact says what one call of a method does: the inputs it is given, the output it returns and the
values that fields of the model hold afterwards.
-/

namespace Polyglot

/-- A field of the model under test and the value it holds after the call. -/
structure SideEffect where
  field : String
  expected : Value
deriving DecidableEq

/-- One scenario. Without an `output` the result of the call is not looked at. -/
structure Fact where
  name : String
  inputs : List Value := []
  sideEffects : List SideEffect := []
  output : Option Value := none
deriving DecidableEq

/-- The values a fact mentions: its inputs, its output, then its expectations. -/
def Fact.literals (fact : Fact) : List Value :=
  fact.inputs ++ fact.output.toList ++ fact.sideEffects.map (·.expected)

end Polyglot
