/-!
# Glyph indices on the command line

An index is written as a whole number: an optional sign and decimal digits. The number is first read
as a signed 64-bit word and must then lie between 0 and 255. Nothing is cut off or wrapped around.
-/

namespace GlyphStrip.CommandLine

/-- Why a text names no glyph. -/
inductive IndexFault where
  | empty
  | notANumber
  | tooLarge
  | tooSmall
  | outOfRange (value : Int)
deriving DecidableEq

/-- What a user is told about the text. -/
def IndexFault.message : IndexFault → String
  | .empty => "cannot parse integer from empty string"
  | .notANumber => "invalid digit found in string"
  | .tooLarge => "number too large to fit in target type"
  | .tooSmall => "number too small to fit in target type"
  | .outOfRange value => toString value ++ " is not in 0..=255"

/-- The value of a decimal digit. -/
def digit? (c : Char) : Option Nat :=
  if '0' ≤ c ∧ c ≤ '9' then some (c.toNat - '0'.toNat) else none

/-- Reads digits behind the number `value`, as long as it does not pass `limit`. -/
def readDigits (limit : Nat) (beyond : IndexFault) (value : Nat) : List Char → Except IndexFault Nat
  | [] => .ok value
  | c :: rest =>
    match digit? c with
    | none => .error .notANumber
    | some d =>
      if 10 * value + d ≤ limit then readDigits limit beyond (10 * value + d) rest
      else .error beyond

/-- Reads a number that has at least one digit. -/
def readMagnitude (limit : Nat) (beyond : IndexFault) : List Char → Except IndexFault Nat
  | [] => .error .notANumber
  | digits => readDigits limit beyond 0 digits

/-- Reads a signed 64-bit number. -/
def readInteger : List Char → Except IndexFault Int
  | [] => .error .empty
  | '-' :: digits => (readMagnitude (Nat.pow 2 63) .tooSmall digits).map fun n => -(n : Int)
  | '+' :: digits => (readMagnitude (Nat.pow 2 63 - 1) .tooLarge digits).map fun n => (n : Int)
  | digits => (readMagnitude (Nat.pow 2 63 - 1) .tooLarge digits).map fun n => (n : Int)

/-- Reads the index of a glyph. -/
def readIndex (text : String) : Except IndexFault UInt8 :=
  match readInteger text.toList with
  | .error fault => .error fault
  | .ok value =>
    if 0 ≤ value ∧ value ≤ 255 then .ok (UInt8.ofNat value.toNat) else .error (.outOfRange value)

end GlyphStrip.CommandLine
