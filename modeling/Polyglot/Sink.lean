/-! # Sinks

Where finished text goes. A sink takes fragments, line ends and indentation; whole lines are made
of these.
-/

namespace Polyglot

/-- What one level of indentation looks like. -/
inductive Indent where
  | tab
  | spaces (count : Nat)
deriving DecidableEq

namespace Indent

/-- The character that indentation is made of. -/
def mark : Indent → Char
  | tab => '\t'
  | spaces _ => ' '

/-- The number of characters per level. -/
def width : Indent → Nat
  | tab => 1
  | spaces count => count

/-- The indentation of the given number of levels. -/
def text (indent : Indent) (level : Nat) : String :=
  String.ofList (List.replicate (level * indent.width) indent.mark)

@[simp] theorem text_zero (indent : Indent) : indent.text 0 = "" := by
  simp [text]

/-- Every level adds the same text. -/
theorem text_succ (indent : Indent) (level : Nat) :
    indent.text (level + 1) = indent.text level ++ indent.text 1 := by
  simp [text, Nat.add_mul, ← String.ofList_append]

end Indent

/-- Something that text can be emitted to. -/
class Sink (ε : Type) where
  emit : String → ε → ε
  newline : ε → ε
  indent : Nat → ε → ε

/-- Emits a line at the given level. Empty lines are not indented. -/
def Sink.line {ε : Type} [Sink ε] (level : Nat) (text : String) (sink : ε) : ε :=
  if text = "" then newline sink else newline (emit text (indent level sink))

/-- What can be asked of a sink. -/
inductive Emission where
  | emit (text : String)
  | newline
  | indent (level : Nat)
  | line (level : Nat) (text : String)
deriving DecidableEq

def Emission.perform {ε : Type} [Sink ε] : Emission → ε → ε
  | emit text => Sink.emit text
  | newline => Sink.newline
  | indent level => Sink.indent level
  | line level text => Sink.line level text

/-- A sink that keeps the text. -/
structure Buffer where
  indent : Indent
  text : String := ""
deriving DecidableEq

def Buffer.ofIndent (indent : Indent) : Buffer :=
  { indent }

instance : Sink Buffer where
  emit text buffer := { buffer with text := buffer.text ++ text }
  newline buffer := { buffer with text := buffer.text.push '\n' }
  indent level buffer := { buffer with text := buffer.text ++ buffer.indent.text level }

end Polyglot
