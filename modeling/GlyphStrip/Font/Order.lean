import GlyphStrip.Font.Buffer
import GlyphStrip.Font.Cursor

/-!
# Order of fonts and of their parts

Rows compare as numbers, fonts byte by byte, glyphs by their character first and then row by row,
and cursors by their font first and then by their position.
-/

namespace GlyphStrip

instance : Ord Row where
  compare a b := compare a.bits b.bits

instance : Ord Glyph where
  compare a b := (compare a.index b.index).then (compare a.rows b.rows)

instance : Ord Font where
  compare a b := compare a.bytes b.bytes

instance : Ord FontBuffer where
  compare a b := compare a.storage b.storage

instance : Ord GlyphCursor where
  compare a b := (compare a.font b.font).then (compare a.position b.position)

end GlyphStrip
