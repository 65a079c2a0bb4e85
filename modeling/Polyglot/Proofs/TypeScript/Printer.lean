import Polyglot.File.TypeScript
import Polyglot.Proofs.Printer

/-! # Printing TypeScript

The text of a list of declarations, by recursion on the declarations. Models and enumerations are
printed in order, with a blank line between neighbours. A class holds its fields and, if no later
model has the same name, all methods of that name, in the order of their declarations.
-/

namespace Polyglot.TypeScript

variable {ω : Type}

/-- How a clause is spelled: its line, and the lines that stand in a block of its own. -/
def phrase : Clause → Except Fault (String × List String)
  | .model name fields => do
    let texts ← paramTexts fields
    return ("export class " ++ name ++ " \x7b", texts.map (· ++ ";"))
  | .enumeration name values => return ("export enum " ++ name ++ " \x7b", enumLines values)
  | .method _ name params returns => return (← methodHeader name params returns, [])
  | .act _ action => return (← actionText action, [])
  | .enter _ scope => return (← scopeHeader scope, [])
  | .branch _ condition => return (← conditionHeader condition, [])

/-- The line of a clause; it is empty if the clause cannot be spelled. -/
def headline (clause : Clause) : String :=
  match phrase clause with
  | .ok (text, _) => text
  | .error _ => ""

/-- The lines in the block of a model or an enumeration. -/
def details (clause : Clause) : List String :=
  match phrase clause with
  | .ok (_, texts) => texts
  | .error _ => []

/-- A method as it stands in the class of the given name; other methods do not. -/
def memberLines (model : String) : Section ω → List Line
  | .method owner name params returns body =>
    if owner = model then
      ⟨1, headline (.method owner name params returns)⟩ ::
        (Outline.linesAll headline owner 2 body ++ [⟨1, "\x7d"⟩])
    else []
  | _ => []

/-- The methods of a class. -/
def membersLines (model : String) (parts : List (Section ω)) : List Line :=
  parts.flatMap (memberLines model)

/-- Models and enumerations, each as a list of lines, given all declarations of the file. -/
def paragraphs (parts : List (Section ω)) : List (Section ω) → List (List Line)
  | [] => []
  | .model name fields :: rest =>
    let members := if name ∈ Section.models rest then [] else membersLines name parts
    (⟨0, headline (.model name fields)⟩ ::
      ((details (.model name fields)).map (Line.mk 1) ++ members ++ [⟨0, "\x7d"⟩])) ::
        paragraphs parts rest
  | .enumeration name values :: rest =>
    (⟨0, headline (.enumeration name values)⟩ ::
      ((details (.enumeration name values)).map (Line.mk 1) ++ [⟨0, "\x7d"⟩])) ::
        paragraphs parts rest
  | .method _ _ _ _ _ :: rest => paragraphs parts rest

/-- The text of declarations. -/
def print (parts : List (Section ω)) : String :=
  Line.displayAll ([Line.blank].intercalate (paragraphs parts parts))

end Polyglot.TypeScript
