import Polyglot.Document.Basic
import Polyglot.Sink

/-! # Layout

How a document is emitted, and the tree of lines that it shows. A reference to a block that is
not there stays in the tree as such; emission stops at it, after all the lines before it. The
main statement is that emission follows the tree.
-/

namespace Polyglot

/-- Lines and, one level deeper, the contents of nested blocks. -/
inductive Layout where
  | line (text : String)
  | nested (body : List Layout)
  /-- The place of a missing block. -/
  | missing (handle : Handle)

namespace Layout

mutual
/-- Emits a tree whose top-level lines stand at the given level. -/
def emit {ε : Type} [Sink ε] (level : Nat) : Layout → Step ε Unit
  | line text => modify (Sink.line level text)
  | nested body => emitAll (level + 1) body
  | missing handle => throw (.invalidBlock handle)

def emitAll {ε : Type} [Sink ε] (level : Nat) : List Layout → Step ε Unit
  | [] => return ()
  | first :: rest => do
    emit level first
    emitAll level rest
end

end Layout

namespace Document

/-- What a block shows, for documents in which no more than `depth` blocks are nested in each
other. -/
def layoutOf (document : Document) : (depth : Nat) → Handle → List Layout
  | 0, handle => [.missing handle]
  | depth + 1, handle =>
    match document.blocks[handle.index]? with
    | none => [.missing handle]
    | some block => block.entries.toList.map fun
      | .line text => .line text
      | .block child => .nested (document.layoutOf depth child)

variable {ε : Type} [Sink ε]

/-- Emits a block whose lines stand at the given level, for documents in which no more than
`depth` blocks are nested in each other. -/
def emitBlock (document : Document) : (depth level : Nat) → Handle → Step ε Unit
  | 0, _, handle => throw (.invalidBlock handle)
  | depth + 1, level, handle =>
    match document.blocks[handle.index]? with
    | none => throw (.invalidBlock handle)
    | some block => block.entries.toList.forM fun
      | .line text => modify (Sink.line level text)
      | .block child => document.emitBlock depth (level + 1) child

/-- Emits the document. Blocks that are nested in each other are distinct, so their number bounds the
depth. -/
def emit (document : Document) : Step ε Unit :=
  document.emitBlock document.blocks.size 0 .root

/-- Emission follows the tree that a block shows. -/
theorem emitBlock_eq_emitAll (document : Document) (depth level : Nat) (handle : Handle) :
    (document.emitBlock depth level handle : Step ε Unit) =
      Layout.emitAll level (document.layoutOf depth handle) := by
  induction depth generalizing level handle with
  | zero => rfl
  | succ depth ih =>
    rw [emitBlock, layoutOf]
    split
    · rfl
    · next block _ =>
      induction block.entries.toList with
      | nil => rfl
      | cons entry rest ihRest =>
        rw [List.forM, List.map_cons, Layout.emitAll, ihRest]
        cases entry <;> simp only [Layout.emit, ih]

/-- The text of the document after a heading that is already in the buffer. -/
def renderAfter (heading : Buffer) (document : Document) : Except Fault String :=
  match document.emit heading with
  | .ok _ buffer => .ok buffer.text
  | .error fault _ => .error fault

/-- The text of the document. -/
def render (document : Document) : Except Fault String :=
  document.renderAfter (.ofIndent .tab)

end Document

end Polyglot
