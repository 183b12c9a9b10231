import GlyphStrip.Font.Basic

/-!
# Cursors over glyphs, rows and pixels

A cursor stands in front of the item that it gives next. At the end it gives nothing and stays where
it is.
-/

namespace GlyphStrip

/-! ## Glyphs of a font -/

/-- A position in front of a glyph of a font, or behind the last one. -/
structure GlyphCursor where
  font : Font
  position : Nat
  position_le : position ≤ glyphCount
deriving DecidableEq

namespace GlyphCursor

/-- The cursor in front of the first glyph. -/
def start (font : Font) : GlyphCursor :=
  ⟨font, 0, Nat.zero_le _⟩

/-- The cursor further on by `k` glyphs, or at the end if there are fewer. -/
def advance (cursor : GlyphCursor) (k : Nat) : GlyphCursor :=
  { cursor with
    position := min (cursor.position + k) glyphCount, position_le := Nat.min_le_right _ _ }

/-- The glyph behind the cursor. -/
def peek? (cursor : GlyphCursor) : Option Glyph :=
  if cursor.position < glyphCount then some (cursor.font.glyph (UInt8.ofNat cursor.position))
  else none

/-- Gives the next glyph and steps over it. -/
def next (cursor : GlyphCursor) : Option Glyph × GlyphCursor :=
  (cursor.peek?, cursor.advance 1)

/-- Skips `k` glyphs, then gives the next one. -/
def nth (cursor : GlyphCursor) (k : Nat) : Option Glyph × GlyphCursor :=
  (cursor.advance k).next

/-- The glyphs from the cursor to the end. -/
def remaining (cursor : GlyphCursor) : List Glyph :=
  cursor.font.glyphs.drop cursor.position

/-- Gives the next `k` glyphs, or all that remain, and steps over them. -/
def take (cursor : GlyphCursor) (k : Nat) : List Glyph × GlyphCursor :=
  (cursor.remaining.take k, cursor.advance k)

/-- Gives all glyphs that remain. -/
def rest (cursor : GlyphCursor) : List Glyph × GlyphCursor :=
  (cursor.remaining, cursor.advance glyphCount)

/-- How many glyphs remain. -/
def left (cursor : GlyphCursor) : Nat :=
  cursor.remaining.length

end GlyphCursor

/-! ## Rows of a glyph -/

/-- The rows of a glyph that are still to come. -/
structure RowCursor where
  remaining : List Row
deriving DecidableEq

namespace RowCursor

/-- The cursor in front of the top row. -/
def start (glyph : Glyph) : RowCursor :=
  ⟨glyph.rows⟩

/-- Gives the next row and steps over it. -/
def next (cursor : RowCursor) : Option Row × RowCursor :=
  (cursor.remaining.head?, ⟨cursor.remaining.tail⟩)

end RowCursor

/-! ## Pixels of a row -/

/-- A position in front of a pixel of a row, or behind the last one. -/
structure PixelCursor where
  row : Row
  column : Nat
  column_le : column ≤ glyphWidth
deriving DecidableEq

namespace PixelCursor

/-- The cursor in front of the leftmost pixel. -/
def start (row : Row) : PixelCursor :=
  ⟨row, 0, Nat.zero_le _⟩

/-- Gives the next pixel and steps over it. -/
def next (cursor : PixelCursor) : Option Bool × PixelCursor :=
  (cursor.row.pixel? cursor.column,
    { cursor with column := min (cursor.column + 1) glyphWidth, column_le := Nat.min_le_right _ _ })

end PixelCursor

end GlyphStrip
