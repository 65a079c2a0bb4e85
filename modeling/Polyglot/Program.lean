import Polyglot.Handle
import Polyglot.Value

/-! # Programs

A program is a list of declarations and a table of statement blocks. Method bodies and nested
scopes are referred to by handle, so a program is plain data: nothing ensures that a handle names
a block of the program, or that a method's model is declared.
-/

namespace Polyglot

/-- Statements that open no scope. -/
inductive Action where
  | assign (target source : Value)
  | declare (name : String) (value : Value)
  | appendValue (array value : Value)
  | appendArray (array values : Value)
  | removeValue (array index : Value)
  | mapPut (map key value : Value)
  | mapDelete (map key : Value)
  | giveBack (value : Value)
deriving DecidableEq

/-- Headers of statements with one nested scope. An empty name marks a loop binding as unused. -/
inductive Scope where
  | forEach (array : Value) (indexName valueName : String)
  | ifThen (condition : Value)
deriving DecidableEq

/-- A statement of a program, whose nested scopes are blocks of the same program. -/
inductive Stmt where
  | act (action : Action)
  | enter (scope : Scope) (body : Handle)
  | branch (condition : Value) (thenBody elseBody : Handle)
deriving DecidableEq

/-- The name of a loop binding, unless it is the empty mark of an unused one. -/
def usedBinding? (name : String) : Option String :=
  if name = "" then none else some name

/-- A method of the model with the given name; `returns` is `none` for a method without result. -/
structure Method where
  model : String
  name : String
  params : List Field
  returns : Option Ty
  body : Handle
deriving DecidableEq

/-- Top-level declarations. The values of an enumeration have the codes 0, 1, 2, …. -/
inductive Decl where
  | model (name : String) (fields : List Field)
  | enumeration (name : String) (values : List String)
  | method (method : Method)
deriving DecidableEq

/-- A whole program. -/
structure Program where
  decls : Array Decl := #[]
  blocks : Array (Array Stmt) := #[]
deriving DecidableEq

namespace Program

/-- The statements of a block, if there is such a block. -/
def block? (program : Program) (handle : Handle) : Option (Array Stmt) :=
  program.blocks[handle.index]?

/-- Adds an empty block. -/
def newBlock (program : Program) : Handle × Program :=
  (.next program.blocks.size, { program with blocks := program.blocks.push #[] })

def addDecl (program : Program) (decl : Decl) : Program :=
  { program with decls := program.decls.push decl }

/-- Adds a statement at the end of a block; without such a block nothing happens. -/
def addStmt (program : Program) (handle : Handle) (stmt : Stmt) : Program :=
  { program with blocks := program.blocks.modify handle.index (·.push stmt) }

end Program

end Polyglot
