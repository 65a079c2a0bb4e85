/-! # Binary operators -/

namespace Polyglot

/-- The operators an operation can combine two values with. -/
inductive Operator where
  | add
  | sub
  | mul
  | div
  | mod
  | eq
  | notEq
  | lt
  | ltEq
  | gt
  | gtEq
  | and
  | or
deriving DecidableEq

namespace Operator

/-- Every operator, in declaration order. -/
def all : List Operator :=
  [add, sub, mul, div, mod, eq, notEq, lt, ltEq, gt, gtEq, and, or]

/-- The conventional symbol. A target with another notion of equality spells `eq` and `notEq`
its own way. -/
def symbol : Operator → String
  | add => "+"
  | sub => "-"
  | mul => "*"
  | div => "/"
  | mod => "%"
  | eq => "=="
  | notEq => "!="
  | lt => "<"
  | ltEq => "<="
  | gt => ">"
  | gtEq => ">="
  | and => "&&"
  | or => "||"

end Operator

end Polyglot
