import GlyphStrip.Deflate.Code

/-!
# The codes of a block

A block of symbols has two codes, one for bytes and lengths of copies and one for their distances.
They are fixed, or the block describes them by the lengths of their words; these are in turn written
in a code that is described by three bits a word.
-/

namespace GlyphStrip.Deflate

/-- The codes of a block. -/
structure Codes where
  literals : Code
  distances : Code

/-- The symbol that ends a block. -/
abbrev endOfBlock : Nat := 256

namespace Codes

/-- The codes that a block can use without describing them. -/
def fixed : Codes where
  literals := .ofLengths (List.replicate 144 8 ++ List.replicate 112 9 ++ List.replicate 24 7 ++
    List.replicate 8 8)
  distances := .ofLengths (List.replicate 32 5)

/-- The order in which the word lengths of the code for word lengths are written. -/
def lengthOrder : List Nat :=
  [16, 17, 18, 0, 8, 7, 9, 6, 10, 5, 11, 4, 12, 3, 13, 2, 14, 1, 15]

/-- The most bits in a word of the code for word lengths. -/
abbrev longestLengthWord : Nat := 7

/-- The code for word lengths, of which `count` lengths are written. -/
def lengthCode (count : Nat) (bits : Bits) : Except Halt (Code × Bits) :=
  let written := (List.range count).map fun i => (bits.skip (3 * i)).number 3
  let places := lengthOrder.zip written
  let code := Code.ofLengths ((List.range 19).map fun symbol => (places.lookup symbol).getD 0)
  if bits.left < 3 * count then .error .short
  else if code.isComplete then bits.pass (3 * count) code
  else .error .invalid

/-- The bits that add to a symbol of the code for word lengths, and the shortest run it stands
for. -/
def runOf (symbol : Nat) : Nat × Nat :=
  if symbol < 16 then (0, 1)
  else if symbol = 16 then (2, 3)
  else if symbol = 17 then (3, 3)
  else (7, 11)

/-- The length that a symbol repeats, behind the lengths already read. -/
def repeated? (lengths : Array Nat) (symbol : Nat) : Option Nat :=
  if symbol < 16 then some symbol
  else if symbol = 16 then lengths.back?
  else some 0

/-- Reads word lengths until there are `total`: a length, or a repeat of the one before, or a run of
zeros, none of which may go beyond the total. A word is looked up only where the longest one would
fit. Each step adds a length, so `total` steps suffice. -/
def wordLengths (code : Code) (total : Nat) :
    Nat → Bits → Array Nat → Except Halt (Array Nat × Bits)
  | 0, bits, lengths => .ok (lengths, bits)
  | steps + 1, bits, lengths =>
    if total ≤ lengths.size then .ok (lengths, bits)
    else if bits.left < longestLengthWord then .error .short
    else
      match code.find? bits with
      | none => .error .invalid
      | some ⟨symbol, width⟩ =>
        let (extra, least) := runOf symbol
        let count := least + (bits.skip width).number extra
        if bits.left < width + extra then .error .short
        else
          match repeated? lengths symbol with
          | none => .error .invalid
          | some length =>
            if lengths.size + count ≤ total then
              wordLengths code total steps (bits.skip (width + extra))
                (lengths ++ Array.replicate count length)
            else .error .invalid

/-- The codes with the given word lengths, the literals first. The end of the block must have a
word, the code of the literals must be complete, and so must be that of the distances unless it is
trivial. -/
def ofLengths? (literalCount : Nat) (lengths : List Nat) : Option Codes :=
  let literals := Code.ofLengths (lengths.take literalCount)
  let distances := Code.ofLengths (lengths.drop literalCount)
  if lengths.getD endOfBlock 0 ≠ 0 ∧ literals.isComplete ∧
    (distances.isComplete ∨ distances.isTrivial) then some ⟨literals, distances⟩
  else none

/-- Reads the codes that a block describes. -/
def read (bits : Bits) : Except Halt (Codes × Bits) := do
  let literalCount := 257 + bits.number 5
  let distanceCount := 1 + (bits.skip 5).number 5
  let count := 4 + (bits.skip 10).number 4
  let (_, bits) ← bits.pass 14 ()
  if 286 < literalCount ∨ 30 < distanceCount then throw .invalid
  let (code, bits) ← lengthCode count bits
  let total := literalCount + distanceCount
  let (lengths, bits) ← wordLengths code total total bits #[]
  match ofLengths? literalCount lengths.toList with
  | some codes => return (codes, bits)
  | none => throw .invalid

end Codes

end GlyphStrip.Deflate
