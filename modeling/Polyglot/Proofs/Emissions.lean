import Mathlib.Logic.Function.Iterate
import Polyglot.Storage.FileTree

/-! # Emissions to buffers and to streams

Emissions come down to pieces of text, one after the other. A buffer keeps all of them. A stream
hands them to its writer up to the first one that the writer does not take. So the writer is handed
the bytes of what a buffer would hold, in full as long as no write fails, and after the first
failure nothing more; the stream ends with this failure, whatever is still emitted.
-/

namespace Polyglot

/-! ### Pieces -/

namespace Indent

/-- What every level of indentation adds. -/
def unit : Indent → String
  | tab => "\t"
  | spaces count => String.ofList (List.replicate count ' ')

/-- The unit, repeated for every level. -/
def repeated (indent : Indent) (level : Nat) : String :=
  String.join (List.replicate level indent.unit)

theorem text_one (indent : Indent) : indent.text 1 = indent.unit := by
  cases indent with
  | tab => rfl
  | spaces count => simp [text, unit, width, mark]

theorem text_eq_repeated (indent : Indent) (level : Nat) :
    indent.text level = indent.repeated level := by
  induction level with
  | zero => rw [text_zero]; rfl
  | succ level ih =>
    rw [text_succ, ih, text_one, repeated, repeated, List.replicate_succ', String.join_append]
    simp

end Indent

namespace Emission

/-- The texts that an emission is made of. -/
def pieces (indent : Indent) : Emission → List String
  | emit text => [text]
  | newline => ["\n"]
  | .indent level => [indent.repeated level]
  | line level text => if text = "" then ["\n"] else [indent.repeated level, text, "\n"]

/-- Performs emissions in order. -/
def performAll {ε : Type} [Sink ε] (emissions : List Emission) (sink : ε) : ε :=
  emissions.foldl (fun sink emission => emission.perform sink) sink

end Emission

/-! ### Buffers -/

namespace Buffer

variable (buffer : Buffer)

@[simp] theorem emit_eq (text : String) :
    Sink.emit text buffer = { buffer with text := buffer.text ++ text } := rfl

@[simp] theorem newline_eq : Sink.newline buffer = { buffer with text := buffer.text ++ "\n" } := by
  rw [show Sink.newline buffer = { buffer with text := buffer.text.push '\n' } from rfl,
    String.push_eq_append]
  rfl

@[simp] theorem indent_eq (level : Nat) : Sink.indent level buffer =
    { buffer with text := buffer.text ++ buffer.indent.repeated level } := by
  rw [← Indent.text_eq_repeated]
  rfl

/-- Indenting a buffer emits the unit once for every level. -/
theorem indent_eq_iterate (level : Nat) :
    Sink.indent level buffer = (Sink.emit buffer.indent.unit)^[level] buffer := by
  induction level with
  | zero => simp [Indent.repeated]
  | succ level ih =>
    rw [Function.iterate_succ_apply', ← ih]
    simp [Indent.repeated, List.replicate_succ', String.join_append, String.append_assoc]

/-- An emission adds its pieces to a buffer. -/
theorem perform_eq (emission : Emission) : emission.perform buffer =
    { buffer with text := buffer.text ++ String.join (emission.pieces buffer.indent) } := by
  cases emission with
  | emit text => simp [Emission.perform, Emission.pieces]
  | newline => simp [Emission.perform, Emission.pieces]
  | indent level => simp [Emission.perform, Emission.pieces]
  | line level text =>
    by_cases h : text = ""
    · simp [Emission.perform, Emission.pieces, Sink.line, h]
    · simp [Emission.perform, Emission.pieces, Sink.line, h, String.append_assoc]

theorem performAll_eq (emissions : List Emission) : Emission.performAll emissions buffer =
    { buffer with
      text := buffer.text ++ String.join (emissions.flatMap (Emission.pieces buffer.indent)) } := by
  induction emissions generalizing buffer with
  | nil => simp [Emission.performAll]
  | cons emission rest ih =>
    rw [Emission.performAll, List.foldl_cons, perform_eq, ← Emission.performAll, ih,
      List.flatMap_cons, String.join_append, String.append_assoc]

end Buffer

/-! ### Streams -/

namespace Stream

variable {ω : Type} [Writer ω] {stream : Stream ω} {bytes : ByteArray}

/-- After a failure a stream does not change any more. -/
theorem put_of_failure {cause : WriteError} (h : stream.failure = some cause) :
    stream.put bytes = stream := by
  rw [put, h]

theorem put_of_ok {writer : ω} (hfailure : stream.failure = none)
    (h : Writer.write bytes stream.writer = .ok () writer) :
    stream.put bytes = { stream with writer } := by
  rw [put, hfailure, h]

theorem put_of_error {writer : ω} {cause : WriteError} (hfailure : stream.failure = none)
    (h : Writer.write bytes stream.writer = .error cause writer) :
    stream.put bytes = { stream with writer, failure := some cause } := by
  rw [put, hfailure, h]

/-- A stream keeps its path and its indentation. -/
theorem put_keeps (bytes : ByteArray) (stream : Stream ω) :
    (stream.put bytes).path = stream.path ∧ (stream.put bytes).indent = stream.indent := by
  rw [put]
  split
  · exact ⟨rfl, rfl⟩
  · split <;> exact ⟨rfl, rfl⟩

/-- Hands pieces on in order. -/
def putAll (pieces : List String) (stream : Stream ω) : Stream ω :=
  pieces.foldl (fun stream piece => stream.put piece.toUTF8) stream

theorem putAll_append (first second : List String) (stream : Stream ω) :
    putAll (first ++ second) stream = putAll second (putAll first stream) :=
  List.foldl_append

theorem path_putAll (pieces : List String) (stream : Stream ω) :
    (putAll pieces stream).path = stream.path := by
  induction pieces generalizing stream with
  | nil => rfl
  | cons piece rest ih => exact (ih _).trans (put_keeps _ _).1

theorem indent_putAll (pieces : List String) (stream : Stream ω) :
    (putAll pieces stream).indent = stream.indent := by
  induction pieces generalizing stream with
  | nil => rfl
  | cons piece rest ih => exact (ih _).trans (put_keeps _ _).2

theorem putAll_of_failure {cause : WriteError} (h : stream.failure = some cause)
    (pieces : List String) : putAll pieces stream = stream := by
  induction pieces with
  | nil => rfl
  | cons piece rest ih => rw [putAll, List.foldl_cons, put_of_failure h, ← putAll, ih]

/-- Indenting a stream emits the repeated unit at once. -/
theorem indent_eq (level : Nat) (stream : Stream ω) :
    Sink.indent level stream = Sink.emit (stream.indent.repeated level) stream := by
  rw [← Indent.text_eq_repeated]
  rfl

/-- An emission hands its pieces on. -/
theorem perform_eq (emission : Emission) (stream : Stream ω) :
    emission.perform stream = putAll (emission.pieces stream.indent) stream := by
  cases emission with
  | emit text => rfl
  | newline => rfl
  | indent level => exact indent_eq level stream
  | line level text =>
    rw [Emission.perform, Emission.pieces, Sink.line]
    by_cases h : text = ""
    · rw [if_pos h, if_pos h]
      rfl
    · rw [if_neg h, if_neg h, indent_eq]
      rfl

theorem performAll_eq (emissions : List Emission) (stream : Stream ω) :
    Emission.performAll emissions stream =
      putAll (emissions.flatMap (Emission.pieces stream.indent)) stream := by
  induction emissions generalizing stream with
  | nil => rfl
  | cons emission rest ih =>
    rw [Emission.performAll, List.foldl_cons, perform_eq, ← Emission.performAll, ih,
      indent_putAll, List.flatMap_cons, putAll_append]

end Stream

/-! ### What a writer is handed -/

/-- A writer that has taken bytes in order and then takes some more has taken all of them in
order. -/
theorem forM_write_concat {ω : Type} [Writer ω] {earlier : List ByteArray} {last : ByteArray}
    {start between final : ω}
    (htaken : (forM earlier Writer.write : EStateM WriteError ω Unit) start = .ok () between)
    (hlast : Writer.write last between = .ok () final) :
    (forM (earlier ++ [last]) Writer.write : EStateM WriteError ω Unit) start = .ok () final := by
  simp [bind, EStateM.bind, pure, EStateM.pure, htaken, hlast]

theorem flatMap_toUTF8 (pieces : List String) :
    (pieces.map String.toUTF8).flatMap (fun bytes => bytes.data.toList) =
      (String.join pieces).toUTF8.data.toList := by
  induction pieces with
  | nil => rfl
  | cons piece rest ih =>
    rw [List.map_cons, List.flatMap_cons, ih, String.join_cons, String.toUTF8_eq_toByteArray,
      String.toUTF8_eq_toByteArray, String.toUTF8_eq_toByteArray, String.toByteArray_append,
      ByteArray.data_append, Array.toList_append]

/-- A writer with all that it was handed, whether it took it or not. -/
structure Observed (ω : Type) where
  writer : ω
  handed : List ByteArray := []

namespace Observed

variable {ω : Type} [Writer ω]

instance : Writer (Observed ω) where
  write bytes observed :=
    match Writer.write bytes observed.writer with
    | .ok _ writer => .ok () { writer, handed := observed.handed ++ [bytes] }
    | .error cause writer => .error cause { writer, handed := observed.handed ++ [bytes] }
  flush observed :=
    match (Writer.flush : EStateM WriteError ω Unit) observed.writer with
    | .ok _ writer => .ok () { observed with writer }
    | .error cause writer => .error cause { observed with writer }

theorem write_of_ok {observed : Observed ω} {bytes : ByteArray} {writer : ω}
    (h : Writer.write bytes observed.writer = .ok () writer) :
    Writer.write bytes observed = .ok () { writer, handed := observed.handed ++ [bytes] } := by
  simp only [Writer.write, h]

theorem write_of_error {observed : Observed ω} {bytes : ByteArray} {writer : ω}
    {cause : WriteError} (h : Writer.write bytes observed.writer = .error cause writer) :
    Writer.write bytes observed =
      .error cause { writer, handed := observed.handed ++ [bytes] } := by
  simp only [Writer.write, h]

/-- All bytes that the writer was handed. -/
def bytes (observed : Observed ω) : List UInt8 :=
  observed.handed.flatMap fun bytes => bytes.data.toList

/-- A writer has taken, from the start, all that it was handed. -/
def TookAll (start : ω) (observed : Observed ω) : Prop :=
  (forM observed.handed Writer.write : EStateM WriteError ω Unit) start = .ok () observed.writer

/-- A writer has taken, from the start, all that it was handed but the last, and has failed to write
that. -/
def RefusedLast (start : ω) (cause : WriteError) (observed : Observed ω) : Prop :=
  ∃ earlier last between, observed.handed = earlier ++ [last] ∧
    (forM earlier Writer.write : EStateM WriteError ω Unit) start = .ok () between ∧
    Writer.write last between = .error cause observed.writer

end Observed

namespace Stream

variable {ω : Type} [Writer ω]

/-- The same stream, without what its writer was handed. -/
def unobserved (stream : Stream (Observed ω)) : Stream ω :=
  { stream with writer := stream.writer.writer }

/-- To observe what a writer is handed does not change what a stream does. -/
theorem unobserved_put (bytes : ByteArray) (stream : Stream (Observed ω)) :
    (stream.put bytes).unobserved = stream.unobserved.put bytes := by
  cases hfailure : stream.failure with
  | some cause =>
    have hplain : stream.unobserved.failure = some cause := hfailure
    rw [put_of_failure hfailure, put_of_failure hplain]
  | none =>
    have hplain : stream.unobserved.failure = none := hfailure
    cases hwrite : Writer.write bytes stream.writer.writer with
    | ok _ writer =>
      rw [put_of_ok hfailure (Observed.write_of_ok hwrite), put_of_ok hplain hwrite]
      rfl
    | error cause writer =>
      rw [put_of_error hfailure (Observed.write_of_error hwrite), put_of_error hplain hwrite]
      rfl

theorem unobserved_putAll (pieces : List String) (stream : Stream (Observed ω)) :
    (putAll pieces stream).unobserved = putAll pieces stream.unobserved := by
  induction pieces generalizing stream with
  | nil => rfl
  | cons piece rest ih =>
    rw [putAll, List.foldl_cons, ← putAll, ih, unobserved_put]
    rfl

/-- What is known of a stream to the writer after pieces: they begin with what was handed on. That
is all of them as long as no write has failed; otherwise it ends with the first one that could not
be written. -/
structure HandsOn (writer : ω) (pieces : List String) (stream : Stream (Observed ω)) : Prop where
  begins : stream.writer.handed <+: pieces.map String.toUTF8
  complete : stream.failure = none → stream.writer.handed = pieces.map String.toUTF8
  took : stream.failure = none → stream.writer.TookAll writer
  refused : ∀ cause, stream.failure = some cause → stream.writer.RefusedLast writer cause

namespace HandsOn

variable {writer : ω} {past : List String} {stream : Stream (Observed ω)}

theorem start (path : String) (indent : Indent) (writer : ω) :
    HandsOn writer [] { path, indent, writer := { writer } } where
  begins := List.prefix_rfl
  complete _ := rfl
  took _ := rfl
  refused _ h := nomatch h

theorem put (h : HandsOn writer past stream) (piece : String) :
    HandsOn writer (past ++ [piece]) (stream.put piece.toUTF8) := by
  have hpast : past.map String.toUTF8 <+: (past ++ [piece]).map String.toUTF8 := by
    rw [List.map_append]
    exact List.prefix_append _ _
  cases hfailure : stream.failure with
  | some cause =>
    rw [put_of_failure hfailure]
    have hfailed : stream.failure ≠ none := by simp [hfailure]
    exact ⟨h.begins.trans hpast, fun hnone => absurd hnone hfailed,
      fun hnone => absurd hnone hfailed, h.refused⟩
  | none =>
    have hhanded : stream.writer.handed ++ [piece.toUTF8] =
        (past ++ [piece]).map String.toUTF8 := by
      rw [h.complete hfailure, List.map_append, List.map_singleton]
    have hbegins : stream.writer.handed ++ [piece.toUTF8] <+:
        (past ++ [piece]).map String.toUTF8 := hhanded ▸ List.prefix_rfl
    cases hwrite : Writer.write piece.toUTF8 stream.writer.writer with
    | ok _ writer' =>
      rw [put_of_ok hfailure (Observed.write_of_ok hwrite)]
      have htook := forM_write_concat (h.took hfailure) hwrite
      refine ⟨hbegins, fun _ => hhanded, fun _ => htook, ?_⟩
      intro cause hcause
      cases hfailure.symm.trans hcause
    | error cause writer' =>
      rw [put_of_error hfailure (Observed.write_of_error hwrite)]
      have hfailed : some cause ≠ none := Option.some_ne_none cause
      refine ⟨hbegins, fun hnone => absurd hnone hfailed,
        fun hnone => absurd hnone hfailed, ?_⟩
      intro cause' hcause
      obtain rfl := Option.some.inj hcause
      exact ⟨_, _, _, rfl, h.took hfailure, hwrite⟩

theorem putAll (h : HandsOn writer past stream) (pieces : List String) :
    HandsOn writer (past ++ pieces) (stream.putAll pieces) := by
  induction pieces generalizing past stream with
  | nil => rwa [List.append_nil]
  | cons piece rest ih =>
    rw [List.append_cons]
    exact ih (h.put piece)

end HandsOn

/-- A stream to the writer after the emissions, where it is observed what the writer is handed. -/
def observe (path : String) (indent : Indent) (writer : ω) (emissions : List Emission) :
    Stream (Observed ω) :=
  Emission.performAll emissions { path, indent, writer := { writer } }

theorem handsOn_observe (path : String) (indent : Indent) (writer : ω)
    (emissions : List Emission) : HandsOn writer (emissions.flatMap (Emission.pieces indent))
      (observe path indent writer emissions) := by
  rw [observe, performAll_eq]
  exact (HandsOn.start path indent writer).putAll _

theorem path_observe (path : String) (indent : Indent) (writer : ω) (emissions : List Emission) :
    (observe path indent writer emissions).path = path := by
  rw [observe, performAll_eq, path_putAll]

end Stream

/-- The bytes of the text that a buffer holds after the emissions. -/
def Buffer.bytesAfter (indent : Indent) (emissions : List Emission) : List UInt8 :=
  (Emission.performAll emissions (Buffer.ofIndent indent)).text.toUTF8.data.toList

theorem Buffer.bytesAfter_eq (indent : Indent) (emissions : List Emission) :
    bytesAfter indent emissions =
      ((emissions.flatMap (Emission.pieces indent)).map String.toUTF8).flatMap fun bytes =>
        bytes.data.toList := by
  rw [flatMap_toUTF8, bytesAfter, performAll_eq, ofIndent, String.empty_append]

namespace Stream

/-- While no write fails, a writer is handed the bytes that a buffer of the same indentation would
hold, no matter that the buffer is indented unit by unit and the stream all at once. After the first
write that fails it is handed nothing more, and the stream ends with this failure, whatever is
emitted after it. To observe the writer makes no difference. -/
theorem hands_on_what_buffers_hold {ω : Type} [Writer ω] (path : String) (indent : Indent)
    (writer : ω) (emissions : List Emission) :
    let stream := observe path indent writer emissions
    (stream.failure = none → stream.writer.TookAll writer ∧
      stream.writer.bytes = Buffer.bytesAfter indent emissions) ∧
    (∀ cause, stream.failure = some cause →
      stream.writer.bytes <+: Buffer.bytesAfter indent emissions ∧
      stream.writer.RefusedLast writer cause ∧
      ∀ later, Emission.performAll later stream = stream ∧
        (Emission.performAll later stream).finish = .error (.output path cause) stream.writer) ∧
    Emission.performAll emissions ({ path, indent, writer } : Stream ω) = stream.unobserved ∧
    (∀ level (buffer : Buffer),
      Sink.indent level buffer = (Sink.emit buffer.indent.unit)^[level] buffer) ∧
    ∀ level (other : Stream ω),
      Sink.indent level other = Sink.emit (other.indent.repeated level) other := by
  intro stream
  have h : HandsOn writer (emissions.flatMap (Emission.pieces indent)) stream :=
    handsOn_observe path indent writer emissions
  refine ⟨?_, ?_, ?_, fun level buffer => buffer.indent_eq_iterate level, indent_eq⟩
  · intro hnone
    refine ⟨h.took hnone, ?_⟩
    rw [Observed.bytes, h.complete hnone, Buffer.bytesAfter_eq]
  · intro cause hcause
    have hstays : ∀ later, Emission.performAll later stream = stream := by
      intro later
      rw [performAll_eq, putAll_of_failure hcause]
    refine ⟨?_, h.refused cause hcause, fun later => ⟨hstays later, ?_⟩⟩
    · obtain ⟨rest, hrest⟩ := h.begins
      rw [Observed.bytes, Buffer.bytesAfter_eq, ← hrest, List.flatMap_append]
      exact List.prefix_append _ _
    · rw [hstays later, finish, hcause, show stream.path = path from path_observe _ _ _ _]
  · rw [performAll_eq, show stream = _ from performAll_eq _ _, unobserved_putAll]
    rfl

/-- A device that has no room. -/
def fullDevice : FileTree.OpenFile where
  tree := {}
  location := ["dev", "full"]

/-- A file with nothing in it yet. -/
def emptyFile : FileTree.OpenFile where
  tree := ({} : FileTree).insert ["work", "out"] (.file .empty)
  location := ["work", "out"]

/-- Emissions that begin with an empty piece. -/
def indented : List Emission :=
  [.indent 0, .line 1 "x", .newline]

theorem hands_on_what_buffers_hold_indented :
    (observe "out" (.spaces 2) emptyFile indented).failure = none ∧
    (observe "out" (.spaces 2) emptyFile indented).writer.bytes =
      Buffer.bytesAfter (.spaces 2) indented ∧
    (observe "/dev/full" (.spaces 2) fullDevice indented).failure = some .noSpace ∧
    (observe "/dev/full" (.spaces 2) fullDevice indented).writer.bytes = [32, 32] ∧
    (Emission.performAll [.newline, .emit ""]
        (observe "/dev/full" (.spaces 2) fullDevice indented)).finish =
      .error (.output "/dev/full" .noSpace)
        (observe "/dev/full" (.spaces 2) fullDevice indented).writer := by
  have hnone : (observe "out" (.spaces 2) emptyFile indented).failure = none := by
    decide +kernel
  have hfull : (observe "/dev/full" (.spaces 2) fullDevice indented).failure =
      some .noSpace := by decide +kernel
  have hfile := (hands_on_what_buffers_hold "out" (.spaces 2) emptyFile indented).1 hnone
  have hdevice :=
    (hands_on_what_buffers_hold "/dev/full" (.spaces 2) fullDevice indented).2.1 _ hfull
  exact ⟨hnone, hfile.2, hfull, by decide +kernel, (hdevice.2.2 _).2⟩

end Stream

end Polyglot
