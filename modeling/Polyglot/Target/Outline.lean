import Polyglot.Target.Basic

/-! # Outlines

Statements and declarations as trees, without handles: nested scopes hold their statements. An
outline may have gaps, each with a reason of type `ω`; writing an outline to a target stops at a
gap. `Outline Empty` has none.
-/

namespace Polyglot

/-- A statement with everything nested in it. -/
inductive Outline (ω : Type) where
  | gap (reason : ω)
  | act (action : Action)
  | enter (scope : Scope) (body : List (Outline ω))
  | branch (condition : Value) (thenBody elseBody : List (Outline ω))

namespace Outline

variable {ω σ : Type} [Target σ]

mutual
/-- Writes a statement to a block. Both scopes of a choice are opened before either is filled. -/
def write (fault : ω → Fault) (block : Handle) : Outline ω → Step σ Unit
  | gap reason => throw (fault reason)
  | act action => Target.act block action
  | enter scope body => do
    let inner ← Target.enter block scope
    writeAll fault inner body
  | branch condition thenBody elseBody => do
    let (thenBlock, elseBlock) ← Target.branch block condition
    writeAll fault thenBlock thenBody
    writeAll fault elseBlock elseBody

/-- Writes statements to a block in order, up to the first fault. -/
def writeAll (fault : ω → Fault) (block : Handle) : List (Outline ω) → Step σ Unit
  | [] => return ()
  | first :: rest => do
    write fault block first
    writeAll fault block rest
end

end Outline

/-- A top-level declaration with everything nested in it. -/
inductive Section (ω : Type) where
  | model (name : String) (fields : List Field)
  | enumeration (name : String) (values : List String)
  | method (model name : String) (params : List Field) (returns : Option Ty)
      (body : List (Outline ω))

namespace Section

variable {ω σ : Type} [Target σ]

/-- Writes a declaration. -/
def write (fault : ω → Fault) : Section ω → Step σ Unit
  | model name fields => Target.model name fields
  | enumeration name values => Target.enumeration name values
  | method owner name params returns body => do
    let block ← Target.method owner name params returns
    Outline.writeAll fault block body

/-- Writes declarations in order, up to the first fault. -/
def writeAll (fault : ω → Fault) : List (Section ω) → Step σ Unit
  | [] => return ()
  | first :: rest => do
    first.write fault
    writeAll fault rest

end Section

end Polyglot
