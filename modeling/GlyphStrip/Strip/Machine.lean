import GlyphStrip.Machine.Words
import GlyphStrip.Strip.Pack

/-!
# Packing in machine words

The loops over glyphs, rows and columns, with the arithmetic of places and bits in words, and with a
record of the places that a source is asked for and of the glyphs told of.
-/

namespace GlyphStrip.Machine

/-- What a computation leaves behind beside its result: the places asked for, and the packed glyphs
told of, each by its number and its rows. -/
structure Record where
  asked : List Point
  packed : List (BitVec 16 × List UInt8)

/-- A computation that keeps a record and ends early at a place that cannot be read. -/
abbrev Inquiry : Type → Type :=
  ExceptT SampleError (StateT Record (Except Fault))

/-- Asks a source for one place. -/
def ask (source : Source) (x y : BitVec 32) : Inquiry UInt8 := do
  modify fun record => { record with asked := record.asked ++ [⟨⟨x⟩, ⟨y⟩⟩] }
  source.luminance ⟨x⟩ ⟨y⟩

/-- Tells of a packed glyph. -/
def tell (c : BitVec 16) (rows : List UInt8) : Inquiry Unit :=
  modify fun record => { record with packed := record.packed ++ [(c, rows)] }

/-- Reads one pixel of a row and moves it in behind the bits read before. -/
def packPixel (source : Source) (left y : BitVec 32) (accumulator : BitVec 8) (bit : Nat) :
    Inquiry (BitVec 8) := do
  let x ← sum left (BitVec.ofNat 32 bit)
  let luminance ← ask source x y
  let moved ← shiftLeft accumulator 1
  return moved ||| BitVec.ofNat 8 (isForeground luminance).toNat

/-- Packs one row of a glyph, left to right. -/
def packRow (source : Source) (c : BitVec 16) (row : BitVec 8) : Inquiry (BitVec 8) := do
  let left ← product (c.setWidth 32) (BitVec.ofNat 32 glyphWidth)
  (List.range glyphWidth).foldlM (packPixel source left (row.setWidth 32)) 0

/-- Packs the rows of a glyph. -/
def packRows (source : Source) (c : BitVec 16) : Inquiry (List UInt8) :=
  (List.range glyphHeight).foldlM (fun rows row => do
    let byte ← packRow source c (BitVec.ofNat 8 row)
    return rows ++ [⟨byte⟩]) []

/-- Packs a glyph behind the bytes of the glyphs before, and tells of it. -/
def packGlyph (source : Source) (bytes : List UInt8) (c : Nat) : Inquiry (List UInt8) := do
  let rows ← packRows source (BitVec.ofNat 16 c)
  tell (BitVec.ofNat 16 c) rows
  return bytes ++ rows

/-- Packs a source: how it ends, and the record. -/
def pack (source : Source) : Except Fault (Except PackError (List UInt8) × Record) :=
  if source.width ≠ UInt32.ofNat stripWidth ∨ source.height ≠ UInt32.ofNat stripHeight then
    .ok (.error (.shape ⟨source.width, source.height⟩), ⟨[], []⟩)
  else
    (((List.range glyphCount).foldlM (packGlyph source) []).run.run ⟨[], []⟩).map
      fun (result, record) => (result.mapError PackError.sample, record)

end GlyphStrip.Machine
