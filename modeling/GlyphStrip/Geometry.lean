/-!
# Geometry of the strip and of the packed font

The strip shows `glyphCount` cells side by side, each `glyphWidth` by `glyphHeight` pixels. The
packed font holds one byte for each row of each cell.
-/

namespace GlyphStrip

/-- How many glyphs a font has: one for each byte value. -/
abbrev glyphCount : Nat := 256

/-- The width of a glyph in pixels, which is the number of bits in a byte. -/
abbrev glyphWidth : Nat := 8

/-- The height of a glyph in pixels, which is its number of bytes. -/
abbrev glyphHeight : Nat := 7

/-- The number of bytes in a packed font. -/
abbrev fontSize : Nat := glyphCount * glyphHeight

/-- The width of the strip in pixels. -/
abbrev stripWidth : Nat := glyphCount * glyphWidth

/-- The height of the strip in pixels. -/
abbrev stripHeight : Nat := glyphHeight

/-- The only luminance that is background. -/
abbrev backgroundLuminance : UInt8 := 255

/-- A pixel is part of a glyph unless it is plain white, so every grey is drawn. -/
def isForeground (luminance : UInt8) : Bool :=
  luminance != backgroundLuminance

end GlyphStrip
