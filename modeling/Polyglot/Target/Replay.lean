import Polyglot.Target.Outline

/-! # Replay

Writing a program to a target. Blocks are written where they are referred to, as often as that
is; a handle of a block that is not there is a fault, and whatever comes before it is written.

Unfolding a program turns it into an outline instead, in which handles are replaced by the
statements of their blocks and a handle of a block that is not there becomes a gap. The main
statement is that a replay writes the unfolded program.
-/

namespace Polyglot.Program

/-! ### Unfolding -/

/-- The statements of a block, for programs in which no more than `depth` blocks are nested in
each other. -/
def unfoldBlock (program : Program) : (depth : Nat) → Handle → List (Outline Handle)
  | 0, handle => [.gap handle]
  | depth + 1, handle =>
    match program.block? handle with
    | none => [.gap handle]
    | some stmts => stmts.toList.map fun
      | .act action => .act action
      | .enter scope body => .enter scope (program.unfoldBlock depth body)
      | .branch condition thenBody elseBody =>
        .branch condition (program.unfoldBlock depth thenBody)
          (program.unfoldBlock depth elseBody)

/-- A declaration as an outline. Blocks that are nested in each other are distinct, so their
number bounds the depth. -/
def unfoldDecl (program : Program) : Decl → Section Handle
  | .model name fields => .model name fields
  | .enumeration name values => .enumeration name values
  | .method method =>
    .method method.model method.name method.params method.returns
      (program.unfoldBlock program.blocks.size method.body)

/-- The whole program as an outline. -/
def unfold (program : Program) : List (Section Handle) :=
  program.decls.toList.map program.unfoldDecl

/-! ### Writing -/

variable {σ : Type} [Target σ]

/-- Writes the statements of the block `source` to a block of the target, for programs in which
no more than `depth` blocks are nested in each other. -/
def replayBlock (program : Program) : (depth : Nat) → (source block : Handle) → Step σ Unit
  | 0, source, _ => throw (.invalidBlock source)
  | depth + 1, source, block =>
    match program.block? source with
    | none => throw (.invalidBlock source)
    | some stmts => stmts.toList.forM fun
      | .act action => Target.act block action
      | .enter scope body => do
        let inner ← Target.enter block scope
        program.replayBlock depth body inner
      | .branch condition thenBody elseBody => do
        let (thenBlock, elseBlock) ← Target.branch block condition
        program.replayBlock depth thenBody thenBlock
        program.replayBlock depth elseBody elseBlock

/-- Writes a declaration. -/
def replayDecl (program : Program) : Decl → Step σ Unit
  | .model name fields => Target.model name fields
  | .enumeration name values => Target.enumeration name values
  | .method method => do
    let block ← Target.method method.model method.name method.params method.returns
    program.replayBlock program.blocks.size method.body block

/-- Writes the program to a target, declaration by declaration, up to the first fault. -/
def replay (program : Program) : Step σ Unit :=
  program.decls.toList.forM program.replayDecl

theorem replayBlock_eq_writeAll (program : Program) (depth : Nat) (source block : Handle) :
    (program.replayBlock depth source block : Step σ Unit) =
      Outline.writeAll Fault.invalidBlock block (program.unfoldBlock depth source) := by
  induction depth generalizing source block with
  | zero => rfl
  | succ depth ih =>
    rw [replayBlock, unfoldBlock]
    split
    · rfl
    · next stmts _ =>
      induction stmts.toList with
      | nil => rfl
      | cons stmt rest ihRest =>
        rw [List.forM, List.map_cons, Outline.writeAll, ihRest]
        cases stmt <;> simp only [Outline.write, ih]

theorem replayDecl_eq_write (program : Program) (decl : Decl) :
    (program.replayDecl decl : Step σ Unit) =
      (program.unfoldDecl decl).write Fault.invalidBlock := by
  cases decl <;> simp only [replayDecl, unfoldDecl, Section.write, replayBlock_eq_writeAll]

/-- A replay writes what the program unfolds to. -/
theorem replay_eq_writeAll (program : Program) :
    (program.replay : Step σ Unit) = Section.writeAll Fault.invalidBlock program.unfold := by
  rw [replay, unfold]
  induction program.decls.toList with
  | nil => rfl
  | cons decl rest ih => rw [List.forM, List.map_cons, Section.writeAll, ih,
      replayDecl_eq_write]

end Polyglot.Program
