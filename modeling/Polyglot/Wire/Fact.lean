import Polyglot.Fact
import Polyglot.Wire.Value

/-! # Stored facts -/

namespace Polyglot

def SideEffect.toWire (effect : SideEffect) : Wire :=
  .record [("field", .text effect.field), ("expected", effect.expected.toWire)]

def SideEffect.ofWire? (wire : Wire) : Option SideEffect :=
  return {
    field := ← (← wire.get? "field").text?
    expected := ← Value.ofWire? (← wire.get? "expected") }

namespace Fact

def toWire (fact : Fact) : Wire :=
  .record [("name", .text fact.name), ("inputs", .list (fact.inputs.map Value.toWire)),
    ("side_effects", .list (fact.sideEffects.map SideEffect.toWire)),
    ("output", .optional (fact.output.map Value.toWire))]

def ofWire? (wire : Wire) : Option Fact := do
  let output ←
    match wire.getOptional? "output" with
    | none => pure none
    | some value => some <$> Value.ofWire? value
  return {
    name := ← (← wire.get? "name").text?
    inputs := ← (← wire.get? "inputs").listOf? Value.ofWire?
    sideEffects := ← (← wire.get? "side_effects").listOf? SideEffect.ofWire?
    output }

end Fact

end Polyglot
