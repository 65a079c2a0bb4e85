import Polyglot.Program
import Polyglot.Step

/-! # Targets

A target is what programs are written to: declarations at the top level, and statements into
blocks that the target hands out. Calls can be made directly, or first collected as data.
-/

namespace Polyglot

/-- States that accept declarations and statements. Whatever opens a scope returns the handle of
its block. -/
class Target (σ : Type) where
  /-- Declares a model with its fields. -/
  model : (name : String) → (fields : List Field) → Step σ Unit
  /-- Declares an enumeration whose values have the codes 0, 1, 2, …. -/
  enumeration : (name : String) → (values : List String) → Step σ Unit
  /-- Declares a method of a model, which need not be declared yet, and returns its body. -/
  method : (model name : String) → (params : List Field) → (returns : Option Ty) → Step σ Handle
  /-- Adds a statement without a scope to a block. -/
  act : (block : Handle) → Action → Step σ Unit
  /-- Adds a statement with one scope to a block. -/
  enter : (block : Handle) → Scope → Step σ Handle
  /-- Adds a choice between two scopes to a block. -/
  branch : (block : Handle) → (condition : Value) → Step σ (Handle × Handle)

/-- A call of a target, as data. -/
inductive Call where
  | model (name : String) (fields : List Field)
  | enumeration (name : String) (values : List String)
  | method (model name : String) (params : List Field) (returns : Option Ty)
  | act (block : Handle) (action : Action)
  | enter (block : Handle) (scope : Scope)
  | branch (block : Handle) (condition : Value)
deriving DecidableEq

/-- What a call returns. -/
inductive Reply where
  | done
  | opened (block : Handle)
  | branched (thenBlock elseBlock : Handle)
deriving DecidableEq

/-- The handles that a call returns, in order. -/
def Reply.handles : Reply → List Handle
  | done => []
  | opened block => [block]
  | branched thenBlock elseBlock => [thenBlock, elseBlock]

def Call.run {σ : Type} [Target σ] : Call → Step σ Reply
  | model name fields => do
    Target.model name fields
    return .done
  | enumeration name values => do
    Target.enumeration name values
    return .done
  | method owner name params returns => return .opened (← Target.method owner name params returns)
  | act block action => do
    Target.act block action
    return .done
  | enter block scope => return .opened (← Target.enter block scope)
  | branch block condition => do
    let (thenBlock, elseBlock) ← Target.branch block condition
    return .branched thenBlock elseBlock

/-- A target together with the handles of the scopes opened in it so far, in order. -/
structure Traced (σ : Type) where
  target : σ
  opened : List Handle := []

namespace Traced

variable {σ α : Type}

/-- A step of the target itself. -/
def lift (step : Step σ α) : Step (Traced σ) α :=
  Step.focus Traced.target (fun target state => { state with target }) step

def note (handles : List Handle) : Step (Traced σ) Unit :=
  modify fun state => { state with opened := state.opened ++ handles }

instance [Target σ] : Target (Traced σ) where
  model name fields := lift (Target.model name fields)
  enumeration name values := lift (Target.enumeration name values)
  method model name params returns := lift (Target.method model name params returns)
  act block action := lift (Target.act block action)
  enter block scope := do
    let inner ← lift (Target.enter block scope)
    note [inner]
    return inner
  branch block condition := do
    let (thenBlock, elseBlock) ← lift (Target.branch block condition)
    note [thenBlock, elseBlock]
    return (thenBlock, elseBlock)

end Traced

end Polyglot
