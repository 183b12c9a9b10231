import GlyphStrip.Deflate.Codes

/-!
# Pieces of a block

A block of symbols is read piece by piece: a byte or two, a copy of earlier output, or the end of
the block. A piece is there only with all its bits.
-/

namespace GlyphStrip.Deflate

/-- A piece of a block. -/
inductive Piece where
  | bytes (plain : List UInt8)
  | copy (length distance : Nat)
  | finish
deriving DecidableEq

/-- The shortest copy of each length symbol and the number of bits that add to it. -/
def copyLengths : Array (Nat × Nat) :=
  #[(3, 0), (4, 0), (5, 0), (6, 0), (7, 0), (8, 0), (9, 0), (10, 0), (11, 1), (13, 1), (15, 1),
    (17, 1), (19, 2), (23, 2), (27, 2), (31, 2), (35, 3), (43, 3), (51, 3), (59, 3), (67, 4),
    (83, 4), (99, 4), (115, 4), (131, 5), (163, 5), (195, 5), (227, 5), (258, 0)]

/-- The shortest distance of each distance symbol and the number of bits that add to it. -/
def copyDistances : Array (Nat × Nat) :=
  #[(1, 0), (2, 0), (3, 0), (4, 0), (5, 1), (7, 1), (9, 2), (13, 2), (17, 3), (25, 3), (33, 4),
    (49, 4), (65, 5), (97, 5), (129, 6), (193, 6), (257, 7), (385, 7), (513, 8), (769, 8),
    (1025, 9), (1537, 9), (2049, 10), (3073, 10), (4097, 11), (6145, 11), (8193, 12), (12289, 12),
    (16385, 13), (24577, 13)]

/-- A distance word of more bits is one whose end lies outside of what is looked at together. -/
abbrev distanceReach : Nat := 9

/-- Two bytes whose words have at most this many bits together are one piece. -/
abbrev pairWidth : Nat := 12

namespace Codes

/-- The byte behind one with the given word, if the two are one piece. The second word of a pair has
at least two bits. -/
def partner? (codes : Codes) (bits : Bits) (word : Word) : Option Word :=
  if word.width + 2 ≤ pairWidth then
    (codes.literals.find? (bits.skip word.width)).filter fun second =>
      second.symbol < endOfBlock && 2 ≤ second.width && word.width + second.width ≤ pairWidth
  else none

/-- The piece that starts with the word of a byte. -/
def bytesFrom (codes : Codes) (bits : Bits) (word : Word) : Except Halt (Piece × Bits) :=
  match codes.partner? bits word with
  | some second =>
    bits.pass (word.width + second.width)
      (.bytes [UInt8.ofNat word.symbol, UInt8.ofNat second.symbol])
  | none => bits.pass word.width (.bytes [UInt8.ofNat word.symbol])

/-- The shortest distance of the word that some bits start with, and the number of bits that add to
it. Whether there is such a word shows only if all the bits that are looked at are there, or if the
word ends early. -/
def distanceAt (codes : Codes) (bits : Bits) : Except Halt (Nat × Nat × Nat) :=
  let found := (codes.distances.find? bits).bind fun word =>
    copyDistances[word.symbol]?.map fun (least, extra) => (word.width, least, extra)
  match found with
  | some (width, least, extra) =>
    if width ≤ distanceReach ∨ distanceReach < bits.left then .ok (width, least, extra)
    else .error .short
  | none => if distanceReach < bits.left then .error .invalid else .error .short

/-- The piece that starts with the word of a copy. -/
def copyFrom (codes : Codes) (bits : Bits) (word : Word) (least extra : Nat) :
    Except Halt (Piece × Bits) :=
  let length := least + (bits.skip word.width).number extra
  let start := word.width + extra
  (codes.distanceAt (bits.skip start)).bind fun (width, least, extra) =>
    let distance := least + (bits.skip (start + width)).number extra
    bits.pass (start + width + extra) (.copy length distance)

/-- The next piece. A symbol that stands neither for a byte nor for a copy ends the block. -/
def piece (codes : Codes) (bits : Bits) : Except Halt (Piece × Bits) :=
  match codes.literals.find? bits with
  | none => .error .invalid
  | some word =>
    if word.symbol < endOfBlock then codes.bytesFrom bits word
    else if word.symbol = endOfBlock then bits.pass word.width .finish
    else
      match copyLengths[word.symbol - endOfBlock - 1]? with
      | some (least, extra) => codes.copyFrom bits word least extra
      | none => bits.pass word.width .finish

end Codes

end GlyphStrip.Deflate
