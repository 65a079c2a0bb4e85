/-! # Types

The closed set of types a program can mention. Widths are always kept, also where a target
collapses them. Pointers belong to the grammar, but no target spells them.
-/

namespace Polyglot

/-- Built-in scalar types. `int` is the target's native integer; the others have a fixed width. -/
inductive Primitive where
  | bool
  | int
  | int32
  | int64
  | float32
  | float64
  | string
deriving DecidableEq

namespace Primitive

/-- Every primitive, in declaration order. -/
def all : List Primitive :=
  [bool, int, int32, int64, float32, float64, string]

/-- The name a diagnostic uses. -/
def name : Primitive → String
  | bool => "bool"
  | int => "int"
  | int32 => "int32"
  | int64 => "int64"
  | float32 => "float32"
  | float64 => "float64"
  | string => "string"

end Primitive

/-- A type. Models are referred to by name only; nothing says that the name is declared. -/
inductive Ty where
  | primitive (kind : Primitive)
  | model (name : String)
  | array (element : Ty)
  | map (key value : Ty)
  | pointer (pointee : Ty)
deriving DecidableEq

namespace Ty

/-- A spelling that belongs to no target, for diagnostics. -/
def display : Ty → String
  | primitive kind => kind.name
  | model name => name
  | array element => "[" ++ element.display ++ "]"
  | map key value => "\x7b" ++ key.display ++ ": " ++ value.display ++ "\x7d"
  | pointer pointee => "*" ++ pointee.display

end Ty

/-- A named, typed slot: a field of a model or a parameter of a method. -/
structure Field where
  name : String
  ty : Ty
deriving DecidableEq

end Polyglot
