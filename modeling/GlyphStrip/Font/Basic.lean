import GlyphStrip.Font.Row

/-!
# Packed fonts

A font is `fontSize` bytes, glyph after glyph, each glyph row by row. The bytes carry no header, so
their number is all that tells a font from other data.
-/

namespace GlyphStrip

/-- Data offered as a font has the wrong number of bytes. -/
structure SizeMismatch where
  actualSize : Nat
deriving DecidableEq

/-- What a user is told about data of the wrong size. -/
def SizeMismatch.message (mismatch : SizeMismatch) : String :=
  "packed font is " ++ toString mismatch.actualSize ++ " bytes but expected " ++
    toString fontSize ++ " bytes"

/-- The picture of one character: its rows, top to bottom. -/
structure Glyph where
  index : UInt8
  rows : List Row
  length_rows : rows.length = glyphHeight
deriving DecidableEq

/-- The row at a height, if the glyph has that row. -/
def Glyph.row? (glyph : Glyph) (height : Nat) : Option Row :=
  glyph.rows[height]?

/-- The packed bytes of the glyph, top to bottom. -/
def Glyph.bytes (glyph : Glyph) : List UInt8 :=
  glyph.rows.map Row.bits

/-- A packed font. -/
structure Font where
  bytes : List UInt8
  length_bytes : bytes.length = fontSize
deriving DecidableEq

namespace Font

/-- Reads data as a font, which its size alone decides. -/
def ofBytes? (bytes : List UInt8) : Except SizeMismatch Font :=
  if h : bytes.length = fontSize then .ok ⟨bytes, h⟩ else .error ⟨bytes.length⟩

/-- The bytes of the `n`-th glyph. -/
def glyphBytes (font : Font) (n : Nat) : List UInt8 :=
  (font.bytes.drop (glyphHeight * n)).take glyphHeight

theorem length_glyphBytes (font : Font) {n : Nat} (h : n < glyphCount) :
    (font.glyphBytes n).length = glyphHeight := by
  simp only [glyphBytes, List.length_take, List.length_drop, font.length_bytes]
  simp only [fontSize, glyphCount, glyphHeight] at h ⊢
  omega

/-- The glyph of a character. -/
def glyph (font : Font) (c : UInt8) : Glyph where
  index := c
  rows := (font.glyphBytes c.toNat).map Row.mk
  length_rows := by rw [List.length_map, font.length_glyphBytes c.toNat_lt]

/-- All glyphs, in the order of their characters. -/
def glyphs (font : Font) : List Glyph :=
  (List.range glyphCount).map fun n => font.glyph (UInt8.ofNat n)

/-- The pixel of glyph `c` in a row and a column, if there is one. -/
def pixel? (font : Font) (c : UInt8) (row column : Nat) : Option Bool :=
  ((font.glyph c).row? row).bind fun r => r.pixel? column

end Font

end GlyphStrip
