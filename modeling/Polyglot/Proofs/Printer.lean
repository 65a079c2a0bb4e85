import Polyglot.Proofs.Clause
import Polyglot.Proofs.Line

/-! # Printing outlines

The lines of an outline, by recursion on its tree. A statement is one line; what is nested in it
stands one level deeper, between its line and a closing one. How the line of a clause reads is
left to the language.
-/

namespace Polyglot

variable {ω : Type}

namespace Outline

mutual
/-- The lines of a statement in a method of the given model. -/
def lines (headline : Clause → String) (model : String) (level : Nat) : Outline ω → List Line
  | gap _ => []
  | act action => [⟨level, headline (.act model action)⟩]
  | enter scope body =>
    ⟨level, headline (.enter model scope)⟩ ::
      (linesAll headline model (level + 1) body ++ [⟨level, "\x7d"⟩])
  | branch condition thenBody elseBody =>
    ⟨level, headline (.branch model condition)⟩ ::
      (linesAll headline model (level + 1) thenBody ++ ⟨level, "\x7d else \x7b"⟩ ::
        (linesAll headline model (level + 1) elseBody ++ [⟨level, "\x7d"⟩]))

def linesAll (headline : Clause → String) (model : String) (level : Nat) :
    List (Outline ω) → List Line
  | [] => []
  | first :: rest => lines headline model level first ++ linesAll headline model level rest
end

theorem linesAll_append (headline : Clause → String) (model : String) (level : Nat)
    (first second : List (Outline ω)) :
    linesAll headline model level (first ++ second) =
      linesAll headline model level first ++ linesAll headline model level second := by
  induction first with
  | nil => rfl
  | cons outline rest ih => simp [linesAll, ih]

end Outline

namespace Section

/-- The models that are declared. -/
def models (parts : List (Section ω)) : List String :=
  parts.filterMap fun
    | model name _ => some name
    | _ => none

/-- Model and name of the methods that are declared, in order. -/
def methods (parts : List (Section ω)) : List (String × String) :=
  parts.filterMap fun
    | method owner name _ _ _ => some (owner, name)
    | _ => none

/-- The first method whose model is not declared. -/
def firstStray? (parts : List (Section ω)) : Option (String × String) :=
  (methods parts).find? fun method => !(models parts).contains method.1

/-- The outcome of rendering declarations, given how they are printed: every method must have its
model. -/
def rendered (print : List (Section ω) → String) (parts : List (Section ω)) :
    Except Fault String :=
  match firstStray? parts with
  | some (owner, name) => .error (.brokenReference owner name)
  | none => .ok (print parts)

end Section

end Polyglot
