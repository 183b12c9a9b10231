/-!
# Hexadecimal text

Bytes are written as two lower-case digits.
-/

namespace GlyphStrip.Hex

/-- The digit of a number below sixteen. -/
def digit (n : Nat) : Char :=
  "0123456789abcdef".toList.getD n '0'

/-- The value of a digit, in either case. -/
def value? (c : Char) : Option Nat :=
  if '0' ≤ c ∧ c ≤ '9' then some (c.toNat - '0'.toNat)
  else if 'a' ≤ c ∧ c ≤ 'f' then some (c.toNat - 'a'.toNat + 10)
  else if 'A' ≤ c ∧ c ≤ 'F' then some (c.toNat - 'A'.toNat + 10)
  else none

/-- The two digits of a byte, the higher one first. -/
def ofByte (byte : UInt8) : List Char :=
  [digit (byte.toNat / 16), digit (byte.toNat % 16)]

/-- The digits of a list of bytes. -/
def ofBytes (bytes : List UInt8) : List Char :=
  bytes.flatMap ofByte

/-- Reads pairs of digits behind the bytes already read, the last one of which is given first. -/
def readPairs (read : List UInt8) : List Char → Option (List UInt8)
  | [] => some read.reverse
  | [_] => none
  | high :: low :: rest =>
    match value? high, value? low with
    | some h, some l => readPairs (UInt8.ofNat (16 * h + l) :: read) rest
    | _, _ => none

/-- Reads pairs of digits. -/
def toBytes? (text : List Char) : Option (List UInt8) :=
  readPairs [] text

end GlyphStrip.Hex
