import Polyglot.Value

/-! # Spelling that the targets share -/

namespace Polyglot.Lowering

def boolText (b : Bool) : String :=
  if b then "true" else "false"

/-- The text of an operand: operations are put in parentheses, so that no reading of the whole
depends on precedence. -/
def grouped (value : Value) (text : String) : String :=
  if value.isOperation then "(" ++ text ++ ")" else text

end Polyglot.Lowering
