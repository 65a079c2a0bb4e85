import Mathlib.Data.List.Forall2
import Polyglot.Document.Layout
import Polyglot.Proofs.Line

/-! # Printed documents

Which lines a list of entries prints is said by recursion on the entries; nested blocks print one
level deeper.
-/

namespace Polyglot

namespace Document

/-- Emits one entry of a block. -/
def emitEntry {ε : Type} [Sink ε] (document : Document) (depth level : Nat) :
    Entry → Step ε Unit
  | .line text => modify (Sink.line level text)
  | .block child => document.emitBlock depth (level + 1) child

theorem emitBlock_of_find {ε : Type} [Sink ε] {document : Document} {handle : Handle}
    {block : Block} (h : document.blocks[handle.index]? = some block) (depth level : Nat) :
    (document.emitBlock (depth + 1) level handle : Step ε Unit) =
      block.entries.toList.forM (document.emitEntry depth level) := by
  rw [emitBlock, h]
  rfl

/-- The entries print the lines, if no more than `depth` blocks are nested in each other. -/
def Prints (document : Document) (depth level : Nat) (entries : List Entry) (lines : List Line) :
    Prop :=
  ∀ (ε : Type) [Sink ε] (sink : ε), entries.forM (document.emitEntry depth level) sink =
    .ok () (Line.putAll sink lines)

namespace Prints

variable {document : Document} {depth level : Nat} {entries : List Entry} {lines : List Line}

theorem nil : document.Prints depth level [] [] := by
  intro ε _ sink
  rfl

theorem line (text : String) (h : document.Prints depth level entries lines) :
    document.Prints depth level (.line text :: entries) (⟨level, text⟩ :: lines) := by
  intro ε _ sink
  have hline : document.emitEntry depth level (.line text) sink =
      .ok () (Sink.line level text sink) := rfl
  rw [List.forM, Step.bind_of_ok hline]
  exact h ε _

/-- A nested block prints what is emitted of it, one level deeper. -/
theorem nested {handle : Handle} {inner : List Line}
    (hinner : ∀ (ε : Type) [Sink ε] (sink : ε),
      document.emitBlock depth (level + 1) handle sink = .ok () (Line.putAll sink inner))
    (h : document.Prints depth level entries lines) :
    document.Prints depth level (.block handle :: entries) (inner ++ lines) := by
  intro ε _ sink
  have hblock : document.emitEntry depth level (.block handle) sink =
      .ok () (Line.putAll sink inner) := hinner ε sink
  rw [List.forM, Step.bind_of_ok hblock, Line.putAll_append]
  exact h ε _

/-- A nested block prints what is in it. -/
theorem block {handle : Handle} {block : Block} {inner : List Line}
    (hfind : document.blocks[handle.index]? = some block)
    (hinner : document.Prints depth (level + 1) block.entries.toList inner)
    (h : document.Prints (depth + 1) level entries lines) :
    document.Prints (depth + 1) level (.block handle :: entries) (inner ++ lines) := by
  apply h.nested
  intro ε _ sink
  rw [emitBlock_of_find hfind]
  exact hinner ε sink

theorem append {entries' : List Entry} {lines' : List Line}
    (h : document.Prints depth level entries lines)
    (h' : document.Prints depth level entries' lines') :
    document.Prints depth level (entries ++ entries') (lines ++ lines') := by
  intro ε _ sink
  have hboth : (entries ++ entries').forM (document.emitEntry depth level) sink =
      (entries.forM (document.emitEntry depth level) >>= fun _ =>
        entries'.forM (document.emitEntry depth level)) sink :=
    congrFun List.forM_append sink
  rw [hboth, Step.bind_of_ok (h ε sink), Line.putAll_append]
  exact h' ε _

theorem texts (texts : List String) :
    document.Prints depth level (texts.map .line) (texts.map (Line.mk level)) := by
  induction texts with
  | nil => exact nil
  | cons text rest ih => exact ih.line text

/-- Lists of entries with a blank line between neighbours. -/
theorem intercalate {items : List (List Entry)} {paragraphs : List (List Line)}
    (h : List.Forall₂ (document.Prints depth 0) items paragraphs) :
    document.Prints depth 0 ([.line ""].intercalate items)
      ([Line.blank].intercalate paragraphs) := by
  induction h with
  | nil => exact nil
  | @cons item paragraph items paragraphs hfirst hrest ih =>
    cases hrest with
    | nil => simpa [List.intercalate] using hfirst
    | cons hsecond hrest => exact hfirst.append (ih.line "")

end Prints

/-- The text of a document whose top level prints the given lines. -/
theorem renderAfter_of_prints {document : Document} {block : Block} {depth : Nat}
    {lines : List Line} (hfind : document.blocks[Handle.root.index]? = some block)
    (hsize : document.blocks.size = depth + 1)
    (h : document.Prints depth 0 block.entries.toList lines) (text : String) :
    document.renderAfter { indent := .tab, text } = .ok (text ++ Line.displayAll lines) := by
  have hemit : document.emit ({ indent := .tab, text } : Buffer) =
      .ok () { indent := .tab, text := text ++ Line.displayAll lines } := by
    rw [emit, hsize, emitBlock_of_find hfind, ← Line.putAll_buffer]
    exact h Buffer _
  rw [renderAfter, hemit]

end Document

end Polyglot
