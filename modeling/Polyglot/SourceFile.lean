import Polyglot.File.Go
import Polyglot.File.TypeScript
import Polyglot.Options
import Polyglot.Storage.FileTree
import Polyglot.Target.Recording

/-! # Source files

The languages that programs can be written in, and files in any of them.
-/

namespace Polyglot

/-- A language to generate. -/
inductive Language where
  | typeScript
  | go
deriving DecidableEq

namespace Language

def all : List Language :=
  [typeScript, go]

def name : Language → String
  | typeScript => TypeScript.target
  | go => Go.target

/-- Reads the name of a language, in any case and with white space around it. -/
def parse (text : String) : Except Fault Language :=
  match (Text.trim text).toLower with
  | "typescript" | "ts" => .ok typeScript
  | "go" | "golang" => .ok go
  | _ => .error (.configuration "backend" (.unknownLanguage text))

end Language

/-- A file in one of the languages. -/
inductive SourceFile where
  | typeScript (file : TypeScript.File)
  | go (file : Go.File)
deriving DecidableEq

/-- The package of a Go file, which has to be given. -/
def Go.packageOf (options : Options) : Except Fault String :=
  options.require Go.target "package"

/-- An empty file. Only Go needs options. -/
def Language.newFile (options : Options) : Language → Except Fault SourceFile
  | typeScript => return .typeScript {}
  | go => return .go { package := ← Go.packageOf options }

namespace SourceFile

def language : SourceFile → Language
  | typeScript _ => .typeScript
  | go _ => .go

def name (file : SourceFile) : String :=
  file.language.name

def extension : SourceFile → String
  | typeScript _ => TypeScript.extension
  | go _ => Go.extension

/-- A step that any target can take. -/
def each {α : Type} (step : (τ : Type) → [Target τ] → Step τ α) : Step SourceFile α
  | typeScript file => (step TypeScript.File).within typeScript file
  | go file => (step Go.File).within go file

instance : Target SourceFile where
  model name fields := each fun _ => Target.model name fields
  enumeration name values := each fun _ => Target.enumeration name values
  method model name params returns := each fun _ => Target.method model name params returns
  act block action := each fun _ => Target.act block action
  enter block scope := each fun _ => Target.enter block scope
  branch block condition := each fun _ => Target.branch block condition

/-- The text of the file. -/
def render : Step SourceFile String
  | typeScript file => TypeScript.File.render.within typeScript file
  | go file => Go.File.render.within go file

/-- Renders the file and writes it below a base path. Nothing is written if rendering fails. -/
def write (base : String) : Step (SourceFile × FileTree) String := do
  let text ← Step.focus Prod.fst (fun file state => (file, state.2)) render
  let extension := (← get).1.extension
  Step.focus Prod.snd (fun tree state => (state.1, tree))
    (FileTree.writeDocument base extension text)

end SourceFile

/-- A target of either kind: a recorded program or a file. -/
inductive Draft where
  | program (program : Program)
  | file (file : SourceFile)
deriving DecidableEq

namespace Draft

/-- A step that any target can take. -/
def each {α : Type} (step : (τ : Type) → [Target τ] → Step τ α) : Step Draft α
  | program recorded => (step Program).within program recorded
  | file source => (step SourceFile).within file source

instance : Target Draft where
  model name fields := each fun _ => Target.model name fields
  enumeration name values := each fun _ => Target.enumeration name values
  method model name params returns := each fun _ => Target.method model name params returns
  act block action := each fun _ => Target.act block action
  enter block scope := each fun _ => Target.enter block scope
  branch block condition := each fun _ => Target.branch block condition

end Draft

end Polyglot
