import Polyglot.Fault
import Polyglot.Text.Blank

/-! # Options

Named settings of a target, given as `key=value` entries. Of several entries for a key the last
one counts.
-/

namespace Polyglot

/-- Settings by name, latest first. -/
structure Options where
  entries : List (String × String) := []
deriving DecidableEq

namespace Options

def isEmpty (options : Options) : Bool :=
  options.entries.isEmpty

def get? (options : Options) (key : String) : Option String :=
  options.entries.lookup key

/-- Sets a key, in place of any earlier setting. -/
def insert (options : Options) (key value : String) : Options :=
  { entries := (key, value) :: options.entries }

/-- The settings of the pairs, the last one of a key counting. -/
def ofPairs (pairs : List (String × String)) : Options :=
  pairs.foldl (fun options pair => options.insert pair.1 pair.2) {}

/-- The setting of a key that a target cannot do without. -/
def require (options : Options) (target key : String) : Except Fault String :=
  match options.get? key with
  | some value => .ok value
  | none => .error (.configuration target (.missingArgument key))

/-- What stands before and after the first `=`. -/
def splitEntry? (entry : String) : Option (String × String) :=
  match entry.toList.span (· ≠ '=') with
  | (_, []) => none
  | (key, _ :: value) => some (String.ofList key, String.ofList value)

/-- Key and value of an entry, without the white space around them. The key must not be empty. -/
def parseEntry (entry : String) : Except Fault (String × String) :=
  match splitEntry? entry with
  | some (key, value) =>
    if Text.trim key = "" then malformed else .ok (Text.trim key, Text.trim value)
  | none => malformed
where
  malformed : Except Fault (String × String) :=
    .error (.configuration "args" (.malformedEntry entry))

def parsePairs : List String → Except Fault (List (String × String))
  | [] => return []
  | entry :: rest => do
    let pair ← parseEntry entry
    let pairs ← parsePairs rest
    return pair :: pairs

/-- Reads entries; the first malformed one is a fault. -/
def parse (entries : List String) : Except Fault Options :=
  return ofPairs (← parsePairs entries)

end Options

end Polyglot
