import GlyphStrip.Geometry

/-!
# Rows of a glyph

A row is one byte: its leftmost pixel is the most significant bit.
-/

namespace GlyphStrip

/-- One row of a glyph, packed into a byte. -/
structure Row where
  bits : UInt8
deriving DecidableEq

namespace Row

/-- The pixel in a column, if the row has that column. -/
def pixel? (row : Row) (column : Nat) : Option Bool :=
  if column < glyphWidth then some (row.bits.toNat.testBit (glyphWidth - 1 - column)) else none

/-- The pixels of the row, left to right. -/
def pixels (row : Row) : List Bool :=
  (List.range glyphWidth).map fun column => row.bits.toNat.testBit (glyphWidth - 1 - column)

/-- Packs pixels, given left to right: each one moves those before it up by a bit. -/
def ofPixels (pixels : List Bool) : Row :=
  ⟨UInt8.ofNat (pixels.foldl (fun bits pixel => 2 * bits + pixel.toNat) 0)⟩

@[simp] theorem length_pixels (row : Row) : row.pixels.length = glyphWidth := by
  simp [pixels]

theorem getElem?_pixels (row : Row) (column : Nat) : row.pixels[column]? = row.pixel? column := by
  by_cases h : column < glyphWidth <;> simp [pixels, pixel?, h]

end Row

end GlyphStrip
