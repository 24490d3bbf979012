namespace ScopedScript

/-!
# Where printed text goes

A sink takes bytes until it is full.  The bytes of a write that still fit are kept even when the write
as a whole fails, and from then on every write that is not empty fails.
-/

/-- What a sink has taken and what it will still take. -/
structure Sink where
  written : ByteArray := .empty
  /-- How many more bytes fit; a sink without a limit never fills. -/
  room : Option Nat := none
  flushFails : Bool := false

namespace Sink

/-- The reason of a failed write. -/
def fullReason : String := "sink full"

/-- The reason of a failed flush. -/
def flushReason : String := "flush refused"

/-- Take bytes, and say whether all of them fitted. -/
def write (sink : Sink) (bytes : ByteArray) : Sink × Bool :=
  match sink.room with
  | none => ({ sink with written := sink.written ++ bytes }, true)
  | some room =>
    if bytes.size ≤ room then
      ({ sink with written := sink.written ++ bytes, room := some (room - bytes.size) }, true)
    else
      ({ sink with written := sink.written ++ bytes.extract 0 room, room := some 0 }, false)

/-- Take a text and a line end. -/
def writeLine (sink : Sink) (text : String) : Sink × Bool :=
  sink.write (text ++ "\n").toUTF8

/-- Forget what was written, as when it has been read. -/
def drained (sink : Sink) : Sink := { sink with written := .empty }

end Sink

end ScopedScript
