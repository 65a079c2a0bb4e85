import Polyglot.Document.Basic

/-! # Members

Methods that are shown inside of their model may be declared before it. Until the document is
finished they wait in blocks of their own; settling moves each of them into the block that its
model's latest declaration set aside.
-/

namespace Polyglot

/-- A method that waits for its model. -/
structure Member where
  model : String
  method : String
  block : Handle
deriving DecidableEq

/-- The blocks that models set aside for their methods, latest first, and the methods that wait,
earliest first. -/
structure Members where
  homes : List (String × Handle) := []
  waiting : List Member := []
deriving DecidableEq

namespace Members

/-- Sets a block aside for the methods of a model, in place of any earlier one. -/
def register (members : Members) (model : String) (block : Handle) : Members :=
  { members with homes := (model, block) :: members.homes }

def defer (members : Members) (member : Member) : Members :=
  { members with waiting := members.waiting ++ [member] }

/-- The block that a model has set aside. -/
def home? (members : Members) (model : String) : Option Handle :=
  members.homes.lookup model

/-- Where a waiting method goes. -/
def homeOf (members : Members) (member : Member) : Except Fault Handle :=
  match members.home? member.model with
  | some block => .ok block
  | none => .error (.brokenReference member.model member.method)

/-- Where all waiting methods go; the first one without a model is a fault. -/
def homesOf (members : Members) : List Member → Except Fault (List Handle)
  | [] => return []
  | member :: rest => do
    let block ← members.homeOf member
    let blocks ← members.homesOf rest
    return block :: blocks

end Members

namespace Document

/-- Moves the contents of blocks to the ends of other blocks, one pair after the other. -/
def moveAll : List (Handle × Handle) → Step Document Unit
  | [] => return ()
  | (source, target) :: rest => do
    let entries ← takeAll source
    addAll target entries
    moveAll rest

end Document

/-- Moves every waiting method into its model. All models are looked for before anything moves. -/
def Members.settle : Step (Document × Members) Unit := do
  let members := (← get).2
  let targets ← members.homesOf members.waiting
  modify fun state => (state.1, { state.2 with waiting := [] })
  Step.focus Prod.fst (fun document state => (document, state.2))
    (Document.moveAll ((members.waiting.map (·.block)).zip targets))

end Polyglot
