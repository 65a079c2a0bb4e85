import Polyglot.Step

/-! # Documents

The text of a file under construction: a table of blocks whose entries are lines and references
to further blocks. A block that another refers to is shown there, one level deeper. Every block
may belong to the methods of a model; blocks nested in it inherit that owner.
-/

namespace Polyglot

/-- One entry of a block of text. -/
inductive Entry where
  | line (text : String)
  | block (handle : Handle)
deriving DecidableEq

/-- A block of text and the model to whose methods it belongs, if any. -/
structure Block where
  owner : Option String := none
  entries : Array Entry := #[]
deriving DecidableEq

/-- A table of blocks. The first one is the root, which is always there at the start. -/
structure Document where
  blocks : Array Block := #[{}]
deriving DecidableEq

namespace Document

/-- The block with the given handle. -/
def blockAt (document : Document) (handle : Handle) : Except Fault Block :=
  match document.blocks[handle.index]? with
  | some block => .ok block
  | none => .error (.invalidBlock handle)

def ownerOf (document : Document) (handle : Handle) : Except Fault (Option String) :=
  return (← document.blockAt handle).owner

def isEmptyAt (document : Document) (handle : Handle) : Except Fault Bool :=
  return (← document.blockAt handle).entries.isEmpty

/-- Adds an empty block, which no other block refers to yet. -/
def newBlock (owner : Option String) : Step Document Handle := fun document =>
  .ok (.next document.blocks.size) { blocks := document.blocks.push { owner } }

/-- Adds an empty block with the owner of another one. -/
def newBlockIn (parent : Handle) : Step Document Handle := do
  newBlock (← (← get).ownerOf parent)

/-- Changes one block. -/
def update (handle : Handle) (change : Block → Block) : Step Document Unit := fun document =>
  if handle.index < document.blocks.size then
    .ok () { blocks := document.blocks.modify handle.index change }
  else
    .error (.invalidBlock handle) document

@[simp] theorem newBlock_apply (owner : Option String) (document : Document) :
    newBlock owner document =
      .ok (.next document.blocks.size) { blocks := document.blocks.push { owner } } := rfl

theorem update_of_lt {handle : Handle} {document : Document} (change : Block → Block)
    (h : handle.index < document.blocks.size) :
    update handle change document =
      .ok () { blocks := document.blocks.modify handle.index change } := by
  rw [update, if_pos h]

theorem update_of_not_lt {handle : Handle} {document : Document} (change : Block → Block)
    (h : ¬ handle.index < document.blocks.size) :
    update handle change document = .error (.invalidBlock handle) document := by
  rw [update, if_neg h]

/-- Appends entries to a block. Handles among them are not looked at. -/
def addAll (handle : Handle) (entries : Array Entry) : Step Document Unit :=
  update handle fun block => { block with entries := block.entries ++ entries }

/-- Appends a line to a block. -/
def addLine (handle : Handle) (text : String) : Step Document Unit :=
  update handle fun block => { block with entries := block.entries.push (.line text) }

/-- Appends lines to a block, in order. -/
def addLines (handle : Handle) : List String → Step Document Unit
  | [] => return ()
  | text :: rest => do
    addLine handle text
    addLines handle rest

/-- Shows one block at the end of another. The block shown is looked for first. -/
def addBlock (parent child : Handle) : Step Document Unit := do
  let _ ← (← get).blockAt child
  update parent fun block => { block with entries := block.entries.push (.block child) }

/-- Empties a block and returns what was in it. -/
def takeAll (handle : Handle) : Step Document (Array Entry) := do
  let block ← (← get).blockAt handle
  update handle fun block => { block with entries := #[] }
  return block.entries

/-- A blank line between top-level declarations. -/
def separate : Step Document Unit := do
  unless ← (← get).isEmptyAt .root do
    addLine .root ""

/-- Adds a block that is shown at the end of `block`, between a header and a footer line. -/
def openScope (block : Handle) (header footer : String) : Step Document Handle := do
  addLine block header
  let inner ← newBlockIn block
  addBlock block inner
  addLine block footer
  return inner

/-- Like `openScope` with a second scope, which follows a dividing line. -/
def openScopes (block : Handle) (header divider footer : String) :
    Step Document (Handle × Handle) := do
  let first ← openScope block header divider
  let second ← newBlockIn block
  addBlock block second
  addLine block footer
  return (first, second)

/-- Shows a finished block at the top level, between a header and a footer line. -/
def place (header : String) (body : Handle) (footer : String) : Step Document Unit := do
  addLine .root header
  addBlock .root body
  addLine .root footer

end Document

end Polyglot
