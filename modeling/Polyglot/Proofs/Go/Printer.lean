import Polyglot.Proofs.Go.Packages
import Polyglot.Proofs.Printer

/-! # Printing Go

The text of a list of declarations, by recursion on the declarations: the package clause, the
packages that any of the clauses refers to, and the declarations in order, with a blank line before
each of them.
-/

namespace Polyglot.Go

variable {ω : Type}

/-- How a clause is spelled: its line, and the lines that stand in a block of its own. Statements
are spelled relative to the receiver variable of their method. -/
def phrase : Clause → Step Imports (String × List String)
  | .model name fields => do
    let texts ← paramTexts fields
    return ("type " ++ name ++ " struct \x7b", texts)
  | .enumeration name values => return ("type " ++ name ++ " int", enumLines name values)
  | .method model name params returns => do
    let signature ← signatureText params returns
    checkBindings (receiverName model) (params.map (·.name))
    return ("func (" ++ receiverName model ++ " *" ++ model ++ ") " ++ name ++ signature ++
      " \x7b", [])
  | .act model action => do
    checkBindings (receiverName model) (boundNames action)
    return (← actionText (some (receiverName model)) action, [])
  | .enter model scope => do
    checkBindings (receiverName model) (scopeNames scope)
    return (← scopeHeader (some (receiverName model)) scope, [])
  | .branch model condition =>
    return (← conditionHeader (some (receiverName model)) condition, [])

/-- The line of a clause; it is empty if the clause cannot be spelled. -/
def headline (clause : Clause) : String :=
  match phrase clause {} with
  | .ok (text, _) _ => text
  | .error _ _ => ""

/-- The lines in the block of a model or an enumeration. -/
def details (clause : Clause) : List String :=
  match phrase clause {} with
  | .ok (_, texts) _ => texts
  | .error _ _ => []

/-- The packages that a clause refers to. -/
def packages (clause : Clause) : Imports :=
  Step.state (phrase clause {})

/-- The packages that any of the clauses refers to. -/
def packagesOf (clauses : List Clause) : Imports :=
  clauses.foldl (fun imports clause => imports.union (packages clause)) {}

/-- The path of a package as a literal. -/
def quotedPath (package : Package) : String :=
  "\"" ++ package.path ++ "\""

/-- The import clause after a blank line, if there is anything to import: one line, or a group. -/
def importLines (imports : Imports) : List Line :=
  match imports.toList with
  | [] => []
  | [package] => [.blank, ⟨0, "import " ++ quotedPath package⟩]
  | packages =>
    .blank :: ⟨0, "import ("⟩ ::
      (packages.map (fun package => ⟨1, quotedPath package⟩) ++ [⟨0, ")"⟩])

/-- The lines of a declaration. -/
def paragraph : Section ω → List Line
  | .model name fields =>
    ⟨0, headline (.model name fields)⟩ ::
      ((details (.model name fields)).map (Line.mk 1) ++ [⟨0, "\x7d"⟩])
  | .enumeration name [] => [⟨0, headline (.enumeration name [])⟩]
  | .enumeration name (first :: rest) =>
    ⟨0, headline (.enumeration name (first :: rest))⟩ :: .blank :: ⟨0, "const ("⟩ ::
      ((details (.enumeration name (first :: rest))).map (Line.mk 1) ++ [⟨0, ")"⟩])
  | .method owner name params returns body =>
    ⟨0, headline (.method owner name params returns)⟩ ::
      (Outline.linesAll headline owner 1 body ++ [⟨0, "\x7d"⟩])

/-- The lines of declarations, with a blank line before each of them. -/
def paragraphs (parts : List (Section ω)) : List Line :=
  parts.flatMap fun part => .blank :: paragraph part

/-- The text of a file with the given package. -/
def print (package : String) (parts : List (Section ω)) : String :=
  Line.displayAll (⟨0, "package " ++ package⟩ ::
    (importLines (packagesOf (parts.flatMap Section.clauses)) ++ paragraphs parts))

/-- A package is imported exactly if one of the clauses refers to it. -/
theorem contains_packagesOf (clauses : List Clause) (package : Package) :
    (packagesOf clauses).contains package =
      clauses.any fun clause => (packages clause).contains package := by
  suffices hfold : ∀ imports : Imports,
      (clauses.foldl (fun imports clause => imports.union (packages clause)) imports).contains
        package = (imports.contains package ||
          clauses.any fun clause => (packages clause).contains package) by
    simpa [packagesOf] using hfold {}
  induction clauses with
  | nil => simp
  | cons clause rest ih =>
    intro imports
    rw [List.foldl_cons, ih]
    simp [Bool.or_assoc]

/-- The order of the clauses does not matter. -/
theorem packagesOf_eq_of_perm {first second : List Clause} (h : first.Perm second) :
    packagesOf first = packagesOf second := by
  ext package
  rw [contains_packagesOf, contains_packagesOf, h.any_eq]

end Polyglot.Go
