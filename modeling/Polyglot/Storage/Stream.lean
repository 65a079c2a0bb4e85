import Polyglot.Fault
import Polyglot.Sink

/-! # Streams

A sink that passes text on to a writer as it comes. The first failure of the writer is kept, and
from then on the writer is given nothing more; finishing the stream reports that failure.
-/

namespace Polyglot

/-- States that take bytes in order, and may fail to. -/
class Writer (ω : Type) where
  write : ByteArray → EStateM WriteError ω Unit
  /-- Completes all writing so far. -/
  flush : EStateM WriteError ω Unit

/-- A writer with the path it writes to, its indentation and its first failure. -/
structure Stream (ω : Type) where
  path : String
  indent : Indent
  writer : ω
  failure : Option WriteError := none

namespace Stream

variable {ω : Type} [Writer ω]

/-- Passes bytes on, unless there was a failure. -/
def put (bytes : ByteArray) (stream : Stream ω) : Stream ω :=
  match stream.failure with
  | some _ => stream
  | none =>
    match Writer.write bytes stream.writer with
    | .ok _ writer => { stream with writer }
    | .error cause writer => { stream with writer, failure := some cause }

instance : Sink (Stream ω) where
  emit text := put text.toUTF8
  newline := put "\n".toUTF8
  indent level stream := put (stream.indent.text level).toUTF8 stream

/-- Completes the writing. Returns the path, or the first failure. -/
def finish (stream : Stream ω) : EStateM.Result Fault ω String :=
  match stream.failure with
  | some cause => .error (.output stream.path cause) stream.writer
  | none =>
    match (Writer.flush : EStateM WriteError ω Unit) stream.writer with
    | .ok _ writer => .ok stream.path writer
    | .error cause writer => .error (.output stream.path cause) writer

end Stream

end Polyglot
