/-!
# Cyclic redundancy check

The check of a byte sequence is the remainder of a division of polynomials over two elements, with
the lowest bit of each byte first.
-/

namespace GlyphStrip.Png

/-- Divides the remainder once by the indeterminate. -/
def crcShift (remainder : UInt32) : UInt32 :=
  if remainder &&& 1 = 1 then (remainder >>> 1) ^^^ 0xedb88320 else remainder >>> 1

/-- Takes one byte into the remainder. -/
def crcByte (remainder : UInt32) (byte : UInt8) : UInt32 :=
  Nat.repeat crcShift 8 (remainder ^^^ byte.toUInt32)

/-- The check of a byte sequence. -/
def crc (bytes : List UInt8) : UInt32 :=
  bytes.foldl crcByte 0xffffffff ^^^ 0xffffffff

end GlyphStrip.Png
