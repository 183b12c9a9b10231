import GlyphStrip.Font.Basic

/-!
# Dumping a font

A dump hands the bytes of a font to a sink, which may accept them in pieces of any size and may run
out of room.
-/

namespace GlyphStrip

/-- A receiver of bytes with limited room. -/
structure Sink where
  /-- How many more bytes fit. -/
  room : Nat
  /-- The most that it accepts at a time, beyond the one byte that it always accepts while it has
  room; it depends on how many bytes it holds. -/
  appetite : Nat → Nat
  received : List UInt8

namespace Sink

/-- An empty sink that accepts as much at a time as fits. -/
def ofRoom (room : Nat) : Sink :=
  ⟨room, fun _ => room, []⟩

/-- How many bytes the sink accepts of `n` that are offered. -/
def accepts (sink : Sink) (n : Nat) : Nat :=
  min (min sink.room n) (sink.appetite sink.received.length + 1)

/-- The sink after it has accepted what it can of the bytes offered. -/
def accept (sink : Sink) (bytes : List UInt8) : Sink :=
  let n := sink.accepts bytes.length
  { sink with room := sink.room - n, received := sink.received ++ bytes.take n }

/-- Offers bytes again and again until all are accepted, or none of them. The answer says whether
all were accepted. -/
def acceptAll (sink : Sink) (bytes : List UInt8) : Bool × Sink :=
  if _ : bytes = [] then (true, sink)
  else if _ : sink.room = 0 then (false, sink)
  else (sink.accept bytes).acceptAll (bytes.drop (sink.accepts bytes.length))
termination_by bytes.length
decreasing_by
  have := List.length_pos_iff.2 ‹bytes ≠ []›
  simp only [List.length_drop, accepts]
  omega

end Sink

/-- Writes the bytes of the font to a sink, without a header. -/
def Font.dump (font : Font) (sink : Sink) : Bool × Sink :=
  sink.acceptAll font.bytes

end GlyphStrip
