import Polyglot.Ty
import Polyglot.Operator

/-! # Values

A value is a tree of literals, references and operations. A reference stands for a binding or a
member, so a value that holds one at any depth has a meaning only inside a method body; all other
values are context-free.
-/

namespace Polyglot

/-- A value. Floats are kept as the bits of an IEEE 754 double, so that equality of values is
equality of their representations. -/
inductive Value where
  | null
  | text (content : String)
  | int (n : Int64)
  | float (bits : UInt64)
  | bool (b : Bool)
  /-- An array literal; the elements are spelled in this order. -/
  | array (element : Ty) (elements : List Value)
  /-- A map literal; the entries are spelled in this order and may repeat a key. -/
  | map (key value : Ty) (entries : List (Value × Value))
  /-- A local variable or a parameter. -/
  | binding (name : String)
  /-- A member of the implicit receiver. -/
  | ownField (field : Value)
  /-- A member of a named value. -/
  | modelField (model : String) (field : Value)
  | arrayElement (source index : Value)
  | mapElement (source key : Value)
  | combined (left : Value) (op : Operator) (right : Value)
  /-- The base-ten text of an integer value. -/
  | intToText (inner : Value)

/-- The constructors of `Value`, without their contents. -/
inductive Kind where
  | null
  | text
  | int
  | float
  | bool
  | array
  | map
  | binding
  | ownField
  | modelField
  | arrayElement
  | mapElement
  | combined
  | intToText
deriving DecidableEq

/-- Kinds that refer to a binding or a member instead of carrying data. -/
def Kind.isReference : Kind → Bool
  | binding | ownField | modelField | arrayElement | mapElement => true
  | _ => false

namespace Value

def kind : Value → Kind
  | null => .null
  | text _ => .text
  | int _ => .int
  | float _ => .float
  | bool _ => .bool
  | array _ _ => .array
  | map _ _ _ => .map
  | binding _ => .binding
  | ownField _ => .ownField
  | modelField _ _ => .modelField
  | arrayElement _ _ => .arrayElement
  | mapElement _ _ => .mapElement
  | combined _ _ _ => .combined
  | intToText _ => .intToText

/-- The direct parts, in the order in which they are spelled. -/
def children : Value → List Value
  | null | text _ | int _ | float _ | bool _ | binding _ => []
  | array _ elements => elements
  | map _ _ entries => entries.flatMap fun entry => [entry.1, entry.2]
  | ownField field => [field]
  | modelField _ field => [field]
  | arrayElement source index => [source, index]
  | mapElement source key => [source, key]
  | combined left _ right => [left, right]
  | intToText inner => [inner]

/-- An operation, which is put in parentheses where it is an operand. -/
def isOperation : Value → Bool
  | combined _ _ _ => true
  | _ => false

/-! ### Context dependence -/

mutual
/-- Whether the value or any part of it is a reference. -/
def isMethodDependent : Value → Bool
  | null | text _ | int _ | float _ | bool _ => false
  | array _ elements => anyMethodDependent elements
  | map _ _ entries => anyEntryMethodDependent entries
  | binding _ | ownField _ | modelField _ _ | arrayElement _ _ | mapElement _ _ => true
  | combined left _ right => left.isMethodDependent || right.isMethodDependent
  | intToText inner => inner.isMethodDependent

def anyMethodDependent : List Value → Bool
  | [] => false
  | value :: rest => value.isMethodDependent || anyMethodDependent rest

def anyEntryMethodDependent : List (Value × Value) → Bool
  | [] => false
  | (key, value) :: rest =>
    key.isMethodDependent || value.isMethodDependent || anyEntryMethodDependent rest
end

/-! ### Equality -/

mutual
/-- Whether two values have the same structure. -/
def same : Value → Value → Bool
  | null, null => true
  | text a, text b => a = b
  | int a, int b => a = b
  | float a, float b => a = b
  | bool a, bool b => a = b
  | array s xs, array t ys => s = t && sameAll xs ys
  | map k v xs, map l w ys => k = l && v = w && sameEntries xs ys
  | binding a, binding b => a = b
  | ownField a, ownField b => same a b
  | modelField m a, modelField n b => m = n && same a b
  | arrayElement a i, arrayElement b j => same a b && same i j
  | mapElement a i, mapElement b j => same a b && same i j
  | combined a o b, combined c p d => o = p && same a c && same b d
  | intToText a, intToText b => same a b
  | _, _ => false

def sameAll : List Value → List Value → Bool
  | [], [] => true
  | x :: xs, y :: ys => same x y && sameAll xs ys
  | _, _ => false

def sameEntries : List (Value × Value) → List (Value × Value) → Bool
  | [], [] => true
  | (k, v) :: xs, (l, w) :: ys => same k l && same v w && sameEntries xs ys
  | _, _ => false
end

mutual
theorem same_iff_eq : (a b : Value) → (same a b = true ↔ a = b)
  | null, b => by cases b <;> simp [same]
  | text _, b => by cases b <;> simp [same]
  | int _, b => by cases b <;> simp [same]
  | float _, b => by cases b <;> simp [same]
  | bool _, b => by cases b <;> simp [same]
  | array _ xs, b => by cases b <;> simp [same, sameAll_iff_eq xs]
  | map _ _ xs, b => by cases b <;> simp [same, sameEntries_iff_eq xs, and_assoc]
  | binding _, b => by cases b <;> simp [same]
  | ownField a, b => by cases b <;> simp [same, same_iff_eq a]
  | modelField _ a, b => by cases b <;> simp [same, same_iff_eq a]
  | arrayElement a i, b => by cases b <;> simp [same, same_iff_eq a, same_iff_eq i]
  | mapElement a i, b => by cases b <;> simp [same, same_iff_eq a, same_iff_eq i]
  | combined a _ c, b => by
    cases b <;> simp [same, same_iff_eq a, same_iff_eq c, and_assoc, and_left_comm]
  | intToText a, b => by cases b <;> simp [same, same_iff_eq a]

theorem sameAll_iff_eq : (xs ys : List Value) → (sameAll xs ys = true ↔ xs = ys)
  | [], ys => by cases ys <;> simp [sameAll]
  | x :: xs, ys => by cases ys <;> simp [sameAll, same_iff_eq x, sameAll_iff_eq xs]

theorem sameEntries_iff_eq :
    (xs ys : List (Value × Value)) → (sameEntries xs ys = true ↔ xs = ys)
  | [], ys => by cases ys <;> simp [sameEntries]
  | (k, v) :: xs, ys => by
    cases ys <;>
      simp [sameEntries, same_iff_eq k, same_iff_eq v, sameEntries_iff_eq xs, Prod.ext_iff]
end

instance : DecidableEq Value := fun a b =>
  decidable_of_iff (same a b = true) (same_iff_eq a b)

/-! ### Shorthands -/

/-- A member of the receiver, by name. -/
def ownFieldNamed (field : String) : Value :=
  ownField (binding field)

/-- A member of a named value, by name. -/
def modelFieldNamed (model field : String) : Value :=
  modelField model (binding field)

end Value

end Polyglot
