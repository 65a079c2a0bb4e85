import Polyglot.Step
import Polyglot.Storage.Node
import Polyglot.Storage.Stream

/-! # File trees

All that paths can lead to, with the rules by which paths are followed, directories are made and
files are written. Relative paths start at a working directory, which is empty at first. Beside
it there is only a directory with one device.
-/

namespace Polyglot

/-- The root directory and everything below it. -/
structure FileTree where
  root : Node :=
    .directory [("dev", .directory [("full", .fullDevice)]), ("work", .directory [])]

namespace FileTree

/-- The most bytes that a name can have. -/
def maxName : Nat := 255

/-- The most bytes that a path can have. -/
def maxPath : Nat := 4095

/-- The directory that relative paths start at. -/
def workingDirectory : Location := ["work"]

def node? (tree : FileTree) (location : Location) : Option Node :=
  tree.root.find? location

/-- Puts a node in place of any earlier one at the location. -/
def insert (tree : FileTree) (location : Location) (node : Node) : FileTree :=
  { root := Node.insert node location tree.root }

/-! ### Following paths -/

/-- Refuses paths that are not even looked at. -/
def checkPath (path : String) : Except WriteError Unit :=
  if '\x00' ∈ path.toList then .error .nulInName
  else if path = "" then .error .noSuchFile
  else if maxPath < path.utf8ByteSize then .error .nameTooLong
  else .ok ()

/-- Where a path starts. -/
def origin (path : String) : Location :=
  if path.startsWith "/" then [] else workingDirectory

/-- The names of a path; repeated separators count as one. -/
def names (path : String) : List String :=
  (path.splitOn "/").filter (· ≠ "")

/-- One step of following a path. `.` stays, and `..` leads back up, from the root to itself. -/
def descend (tree : FileTree) (location : Location) (name : String) :
    Except WriteError Location :=
  if name = "." then .ok location
  else if name = ".." then .ok location.dropLast
  else if maxName < name.utf8ByteSize then .error .nameTooLong
  else
    match tree.node? (location ++ [name]) with
    | some (.directory _) => .ok (location ++ [name])
    | some _ => .error .notADirectory
    | none => .error .noSuchFile

/-- Follows names that all have to be directories. -/
def follow (tree : FileTree) : Location → List String → Except WriteError Location
  | location, [] => .ok location
  | location, name :: rest => do
    let next ← tree.descend location name
    tree.follow next rest

/-- The location that a path has for a file, which need not be there yet. A path that names a
directory, or ends as if it did, names no file. -/
def fileLocation (tree : FileTree) (path : String) : Except WriteError Location := do
  checkPath path
  let parts := names path
  let parent ← tree.follow (origin path) parts.dropLast
  match parts.getLast? with
  | none => .error .isADirectory
  | some name =>
    if name = "." ∨ name = ".." ∨ path.endsWith "/" then .error .isADirectory
    else if maxName < name.utf8ByteSize then .error .nameTooLong
    else
      match tree.node? (parent ++ [name]) with
      | some (.directory _) => .error .isADirectory
      | _ => .ok (parent ++ [name])

/-- The text of the regular file at a path. -/
def contentAt? (tree : FileTree) (path : String) : Option String :=
  match tree.fileLocation path with
  | .ok location =>
    match tree.node? location with
    | some (.file content) => String.fromUTF8? content
    | _ => none
  | .error _ => none

/-! ### Directories -/

/-- Follows names, creating the directories that are missing. Stops where that is impossible,
keeping what was created before. -/
def createAll : Location → List String → FileTree → Bool × FileTree
  | _, [], tree => (true, tree)
  | location, name :: rest, tree =>
    match tree.descend location name with
    | .ok next => createAll next rest tree
    | .error .noSuchFile =>
      createAll (location ++ [name]) rest (tree.insert (location ++ [name]) (.directory []))
    | .error _ => (false, tree)

/-- Creates the directory at a path after those above it, and says whether it is there now. The
directories above come from the names without `.`, but the last step takes the path as it is: a
`.` at its end is no name to create, so there the directory before it has to exist. -/
def createDirectory (path : String) (tree : FileTree) : Bool × FileTree :=
  if path = "" then (true, tree)
  else
    match checkPath path with
    | .error _ => (false, tree)
    | .ok _ =>
      let parts := names path
      match createAll (origin path) (parts.filter (· ≠ ".")).dropLast tree with
      | (false, tree) => (false, tree)
      | (true, tree) =>
        match tree.follow (origin path) parts.dropLast with
        | .error _ => (false, tree)
        | .ok parent => createAll parent parts.getLast?.toList tree

/-- The paths of everything in the working directory, in order. -/
def listing (tree : FileTree) : List String :=
  match tree.node? workingDirectory with
  | some (.directory entries) =>
    (Node.entryPaths "" entries).mergeSort fun a b => decide (a ≤ b)
  | _ => []

/-! ### Writing -/

/-- A file that is open for writing, within its tree. -/
structure OpenFile where
  tree : FileTree
  location : Location

instance : Writer OpenFile where
  write bytes file :=
    match file.tree.node? file.location with
    | some (.file content) =>
      .ok () { file with tree := file.tree.insert file.location (.file (content ++ bytes)) }
    | some .fullDevice => if bytes.isEmpty then .ok () file else .error .noSpace file
    | _ => .error .noSuchFile file
  flush := pure ()

/-- Opens the file at a path, creating or emptying it; a device stays as it is. -/
def create (tree : FileTree) (path : String) : Except WriteError OpenFile := do
  let location ← tree.fileLocation path
  match tree.node? location with
  | some .fullDevice => return { tree, location }
  | _ => return { tree := tree.insert location (.file .empty), location }

/-- Emits to the file at a path and returns the path. -/
def emitTo (path : String) (indent : Indent) (emissions : List Emission) :
    Step FileTree String := fun tree =>
  match tree.create path with
  | .error cause => .error (.output path cause) tree
  | .ok writer =>
    let stream : Stream OpenFile := { path, indent, writer }
    match (emissions.foldl (fun stream emission => emission.perform stream) stream).finish with
    | .ok path file => .ok path file.tree
    | .error fault file => .error fault file.tree

/-- A base path with an extension; points in the base stay. -/
def outputPath (base extension : String) : String :=
  base ++ extension

/-- Writes a finished text and returns the path. -/
def writeDocument (base extension text : String) : Step FileTree String :=
  emitTo (outputPath base extension) .tab [.emit text]

end FileTree

end Polyglot
