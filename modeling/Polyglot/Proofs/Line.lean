import Polyglot.Sink

/-! # Lines

Text as a list of lines, each at its level of indentation, and how such lines stand in a file.
-/

namespace Polyglot

/-- A line of text at a level of indentation. -/
structure Line where
  level : Nat
  text : String
deriving DecidableEq

namespace Line

def blank : Line := ⟨0, ""⟩

/-- A line as it stands in a file, indented by tabs. Empty lines are not indented. -/
def display (line : Line) : String :=
  if line.text = "" then "\n" else Indent.tab.text line.level ++ line.text ++ "\n"

/-- Lines as they stand in a file. -/
def displayAll : List Line → String
  | [] => ""
  | line :: rest => line.display ++ displayAll rest

theorem displayAll_append (first second : List Line) :
    displayAll (first ++ second) = displayAll first ++ displayAll second := by
  induction first with
  | nil => simp [displayAll]
  | cons line rest ih => simp [displayAll, ih, String.append_assoc]

/-- Emits lines one after the other. -/
def putAll {ε : Type} [Sink ε] (sink : ε) (lines : List Line) : ε :=
  lines.foldl (fun sink line => Sink.line line.level line.text sink) sink

@[simp] theorem putAll_nil {ε : Type} [Sink ε] (sink : ε) : putAll sink [] = sink := rfl

@[simp] theorem putAll_cons {ε : Type} [Sink ε] (sink : ε) (line : Line) (rest : List Line) :
    putAll sink (line :: rest) = putAll (Sink.line line.level line.text sink) rest := rfl

theorem putAll_append {ε : Type} [Sink ε] (sink : ε) (first second : List Line) :
    putAll sink (first ++ second) = putAll (putAll sink first) second := by
  simp [putAll]

theorem text_line (text : String) (line : Line) :
    Sink.line line.level line.text ({ indent := .tab, text } : Buffer) =
      { indent := .tab, text := text ++ line.display } := by
  rw [Sink.line, display]
  split
  · change ({ indent := .tab, text := text.push '\n' } : Buffer) = _
    rw [String.push_eq_append]
    rfl
  · change ({ indent := .tab, text := ((text ++ Indent.tab.text line.level) ++ line.text).push '\n' }
      : Buffer) = _
    rw [String.push_eq_append]
    simp only [String.append_assoc]
    rfl

theorem putAll_buffer (text : String) (lines : List Line) :
    putAll ({ indent := .tab, text } : Buffer) lines =
      { indent := .tab, text := text ++ displayAll lines } := by
  induction lines generalizing text with
  | nil => simp [displayAll]
  | cons line rest ih => rw [putAll_cons, text_line, ih, displayAll, String.append_assoc]

end Line

end Polyglot
