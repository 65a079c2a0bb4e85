import Polyglot.Handle
import Polyglot.Ty

/-! # Faults

Everything that can go wrong, as data. `Fault.message` and `Fault.code` hold the wording and the
numbering; all other modules deal in causes only.
-/

namespace Polyglot

/-- Constructs that a target refuses. -/
inductive Construct where
  | pointerType (ty : Ty)
  /-- A statement for a block that belongs to no method. -/
  | looseStatement (block : Handle)
  /-- A parameter or local that would hide the receiver of its method. -/
  | shadowedReceiver (name : String)
  /-- A member of the receiver where there is none. -/
  | looseReceiverField
  | described (text : String)
deriving DecidableEq

def Construct.message : Construct → String
  | pointerType ty => "pointer type `" ++ ty.display ++ "`"
  | looseStatement block => "statement outside a method body in block " ++ block.display
  | shadowedReceiver name => "binding `" ++ name ++ "` shadowing the method receiver"
  | looseReceiverField => "receiver field outside a method body"
  | described text => text

/-- What is wrong with the settings of a target. -/
inductive Misconfiguration where
  | missingArgument (name : String)
  | malformedEntry (entry : String)
  | unknownLanguage (name : String)
  | described (text : String)
deriving DecidableEq

def Misconfiguration.message : Misconfiguration → String
  | missingArgument name => "missing required argument `" ++ name ++ "`"
  | malformedEntry entry => "expected `key=value`, found `" ++ entry ++ "`"
  | unknownLanguage name => "unknown backend `" ++ name ++ "`"
  | described text => text

/-- What is wrong with a suite of facts. -/
inductive SuiteDefect where
  | repeatedCase (case : String)
  | repeatedFact (fact case : String)
  | inputCount (fact case : String) (found expected : Nat)
  | outputOfVoidCase (fact case : String)
  | dependentLiteral (fact case : String)
  | repeatedProcedure (name : String)
  /-- Two procedures whose names differ, but not in the target. -/
  | repeatedFunction (name : String)
  | described (text : String)
deriving DecidableEq

def SuiteDefect.message : SuiteDefect → String
  | repeatedCase case => "duplicate case `" ++ case ++ "`"
  | repeatedFact fact case => "duplicate fact `" ++ fact ++ "` in case `" ++ case ++ "`"
  | inputCount fact case found expected =>
    "fact `" ++ fact ++ "` of case `" ++ case ++ "` has " ++ Decimal.natText found ++
      " inputs, expected " ++ Decimal.natText expected
  | outputOfVoidCase fact case =>
    "fact `" ++ fact ++ "` expects an output but case `" ++ case ++ "` returns nothing"
  | dependentLiteral fact case =>
    "fact `" ++ fact ++ "` of case `" ++ case ++ "` refers to a variable or field"
  | repeatedProcedure name => "test name `" ++ name ++ "` is produced by more than one case"
  | repeatedFunction name =>
    "test function `" ++ name ++ "` is produced by more than one procedure"
  | described text => text

/-- Why a file could not be written. -/
inductive WriteError where
  | noSuchFile
  | notADirectory
  | isADirectory
  | noSpace
  | nameTooLong
  | nulInName
  | described (text : String)
deriving DecidableEq

def WriteError.message : WriteError → String
  | noSuchFile => "No such file or directory (os error 2)"
  | notADirectory => "Not a directory (os error 20)"
  | isADirectory => "Is a directory (os error 21)"
  | noSpace => "No space left on device (os error 28)"
  | nameTooLong => "File name too long (os error 36)"
  | nulInName => "file name contained an unexpected NUL byte"
  | described text => text

/-- A failure of the generator. -/
inductive Fault where
  | unsupported (target : String) (construct : Construct)
  /-- A method of a model that is declared nowhere. -/
  | brokenReference (model method : String)
  | configuration (target : String) (problem : Misconfiguration)
  | invalidSuite (defect : SuiteDefect)
  | output (path : String) (cause : WriteError)
  /-- A handle that the table it was used with has not issued. -/
  | invalidBlock (block : Handle)
deriving DecidableEq

/-- Numbers by class of failure: 1 lowering, 2 suites, 3 output, 9 internal. -/
inductive Code where
  | e1001
  | e1002
  | e1003
  | e2001
  | e3001
  | e9001
deriving DecidableEq

namespace Code

def all : List Code :=
  [e1001, e1002, e1003, e2001, e3001, e9001]

def name : Code → String
  | e1001 => "E1001"
  | e1002 => "E1002"
  | e1003 => "E1003"
  | e2001 => "E2001"
  | e3001 => "E3001"
  | e9001 => "E9001"

end Code

namespace Fault

def code : Fault → Code
  | unsupported _ _ => .e1001
  | brokenReference _ _ => .e1002
  | configuration _ _ => .e1003
  | invalidSuite _ => .e2001
  | output _ _ => .e3001
  | invalidBlock _ => .e9001

/-- The wording of a fault. Names and texts are copied as they are. -/
def message : Fault → String
  | unsupported target construct => target ++ ": unsupported " ++ construct.message
  | brokenReference model method =>
    "no model with name \"" ++ model ++ "\" found for method `" ++ method ++ "`"
  | configuration target problem => target ++ ": " ++ problem.message
  | invalidSuite defect => "invalid fact suite: " ++ defect.message
  | output path cause => "failed to write `" ++ path ++ "`: " ++ cause.message
  | invalidBlock block => "block " ++ block.display ++ " was not issued by this builder"

end Fault

end Polyglot
