import Polyglot.Target.Basic

/-! # Recording

A program is a target itself: it accepts every call that names blocks of its own, and stores it.
-/

namespace Polyglot.Program

/-- The block must be one of the program's. -/
def check (block : Handle) : Step Program Unit := do
  if ((← get).block? block).isNone then
    throw (.invalidBlock block)

/-- Adds an empty block. -/
def allocate : Step Program Handle := fun program =>
  .ok program.newBlock.1 program.newBlock.2

/-- Adds a statement to a block. -/
def record (block : Handle) (stmt : Stmt) : Step Program Unit := do
  check block
  modify (·.addStmt block stmt)

instance : Target Program where
  model name fields := modify (·.addDecl (.model name fields))
  enumeration name values := modify (·.addDecl (.enumeration name values))
  method model name params returns := do
    let body ← allocate
    modify (·.addDecl (.method { model, name, params, returns, body }))
    return body
  act block action := record block (.act action)
  enter block scope := do
    check block
    let body ← allocate
    record block (.enter scope body)
    return body
  branch block condition := do
    check block
    let thenBody ← allocate
    let elseBody ← allocate
    record block (.branch condition thenBody elseBody)
    return (thenBody, elseBody)

end Polyglot.Program
