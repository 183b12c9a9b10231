/-!
# Bits of a byte sequence

The bits of each byte are read from the least significant one up. Behind the last byte all bits are
zero, so that what follows can be looked at before it is known to be there; only bits that are there
can be passed.
-/

namespace GlyphStrip.Deflate

/-- A position between the bits of some bytes. -/
structure Bits where
  data : Array UInt8
  position : Nat

/-- Why the next piece of a stream is not read: it is cut off, or it means nothing. -/
inductive Halt where
  | short
  | invalid
deriving DecidableEq

namespace Bits

/-- The number of bits behind the position. -/
def left (bits : Bits) : Nat :=
  8 * bits.data.size - bits.position

/-- The position some bits further on. -/
def skip (bits : Bits) (n : Nat) : Bits :=
  { bits with position := bits.position + n }

/-- The bit at the position. -/
def next (bits : Bits) : Nat :=
  match bits.data[bits.position / 8]? with
  | some byte => byte.toNat / Nat.pow 2 (bits.position % 8) % 2
  | none => 0

/-- The number written in the next `n` bits, lowest bit first. -/
def number (bits : Bits) : Nat → Nat
  | 0 => 0
  | n + 1 => bits.next + 2 * (bits.skip 1).number n

/-- The number of bits up to the next whole byte. -/
def padding (bits : Bits) : Nat :=
  (8 - bits.position % 8) % 8

/-- The next whole bytes, at most `n`. The position must be at the start of a byte. -/
def bytes (bits : Bits) (n : Nat) : Array UInt8 :=
  let start := bits.position / 8
  bits.data.extract start (start + n)

/-- Passes what is written in the next `n` bits, if they are there. -/
def pass {α : Type} (bits : Bits) (n : Nat) (value : α) : Except Halt (α × Bits) :=
  if n ≤ bits.left then .ok (value, bits.skip n) else .error .short

end Bits

end GlyphStrip.Deflate
