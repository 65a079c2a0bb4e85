/-! # Nodes

What names in a directory stand for, and the places below a directory.
-/

namespace Polyglot

/-- A directory with its entries, a file, or a device that can be opened but has no room. -/
inductive Node where
  | directory (entries : List (String × Node))
  | file (content : ByteArray)
  | fullDevice

/-- The names on the way down from a directory. -/
abbrev Location := List String

namespace Node

/-- The node at a location below this one. -/
def find? : Location → Node → Option Node
  | [], node => some node
  | name :: rest, directory entries =>
    match entries.lookup name with
    | some inner => find? rest inner
    | none => none
  | _ :: _, _ => none

/-- Puts a node at a location, in place of any earlier one. Directories that are missing on the
way are added; where something else is in the way nothing changes. -/
def insert (new : Node) : Location → Node → Node
  | [], _ => new
  | name :: rest, directory entries =>
    let inner := insert new rest ((entries.lookup name).getD (directory []))
    directory ((name, inner) :: entries.filter (·.1 ≠ name))
  | _ :: _, node => node

mutual
/-- The path of this node and the paths of everything below it. Directories end in a separator. -/
def paths (path : String) : Node → List String
  | directory entries => (path ++ "/") :: entryPaths (path ++ "/") entries
  | file _ => [path]
  | fullDevice => [path]

/-- The paths of all entries of a directory, whose own path comes first in each. -/
def entryPaths (base : String) : List (String × Node) → List String
  | [] => []
  | (name, node) :: rest => paths (base ++ name) node ++ entryPaths base rest
end

end Node

end Polyglot
