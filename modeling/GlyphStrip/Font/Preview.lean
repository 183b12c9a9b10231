import GlyphStrip.Font.Basic
import GlyphStrip.Text.Hex

/-!
# Previews

A glyph is drawn with `#` for set pixels and `.` for the others, one line for each row. A preview
shows chosen glyphs of a font, each under a header with its character and above an empty line.
-/

namespace GlyphStrip

/-- The mark of a pixel. -/
def pixelMark (pixel : Bool) : Char :=
  if pixel then '#' else '.'

/-- The marks of a row, left to right. -/
def Row.marks (row : Row) : List Char :=
  row.pixels.map pixelMark

/-- The lines of the drawn glyph, each with its line feed. -/
def Glyph.pictureChars (glyph : Glyph) : List Char :=
  glyph.rows.flatMap fun row => row.marks ++ ['\n']

/-- The drawn glyph. -/
def Glyph.picture (glyph : Glyph) : String :=
  String.ofList glyph.pictureChars

namespace Font

/-- The part of a preview that shows one glyph. -/
def previewBlock (font : Font) (c : UInt8) : List Char :=
  "glyph 0x".toList ++ Hex.ofByte c ++ [':', '\n'] ++ (font.glyph c).pictureChars ++ ['\n']

/-- The preview of the chosen glyphs, in the order given, repeats kept. -/
def preview (font : Font) (chosen : List UInt8) : String :=
  String.ofList (chosen.flatMap font.previewBlock)

end Font

end GlyphStrip
