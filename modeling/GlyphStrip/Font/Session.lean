import GlyphStrip.Font.Order

/-!
# Sessions

A session walks through one font with a glyph cursor, a saved copy of it, a row cursor and a pixel
cursor, all of which can be moved in any order.
-/

namespace GlyphStrip

/-- One move of a session. -/
inductive Move where
  | restart
  | next
  | nth (k : Nat)
  | take (k : Nat)
  | rest
  | left
  | save
  | restore
  | compareSaved
  | rowsOf (c : UInt8)
  | nextRow
  | pixelsOf (bits : UInt8)
  | nextPixel
deriving DecidableEq

/-- What a move shows. -/
inductive View where
  | nothing
  | glyph (glyph : Option Glyph)
  | glyphs (glyphs : List Glyph)
  | count (n : Nat)
  | order (order : Ordering)
  | row (row : Option Row)
  | pixel (pixel : Option Bool)
deriving DecidableEq

/-- The cursors of a walk through a font. -/
structure Session where
  font : Font
  glyphs : GlyphCursor
  saved : GlyphCursor
  rows : RowCursor
  pixels : PixelCursor
deriving DecidableEq

namespace Session

/-- All cursors in front: of the first glyph, of its top row, and of the pixels of an empty row. -/
def start (font : Font) : Session where
  font := font
  glyphs := .start font
  saved := .start font
  rows := .start (font.glyph 0)
  pixels := .start ⟨0⟩

/-- Makes one move. -/
def move (s : Session) : Move → View × Session
  | .restart => (.nothing, { s with glyphs := .start s.font })
  | .next => let (glyph, cursor) := s.glyphs.next; (.glyph glyph, { s with glyphs := cursor })
  | .nth k => let (glyph, cursor) := s.glyphs.nth k; (.glyph glyph, { s with glyphs := cursor })
  | .take k =>
    let (glyphs, cursor) := s.glyphs.take k; (.glyphs glyphs, { s with glyphs := cursor })
  | .rest => let (glyphs, cursor) := s.glyphs.rest; (.glyphs glyphs, { s with glyphs := cursor })
  | .left => (.count s.glyphs.left, s)
  | .save => (.nothing, { s with saved := s.glyphs })
  | .restore => (.nothing, { s with glyphs := s.saved })
  | .compareSaved => (.order (compare s.glyphs s.saved), s)
  | .rowsOf c => (.nothing, { s with rows := .start (s.font.glyph c) })
  | .nextRow => let (row, cursor) := s.rows.next; (.row row, { s with rows := cursor })
  | .pixelsOf bits => (.nothing, { s with pixels := .start ⟨bits⟩ })
  | .nextPixel => let (pixel, cursor) := s.pixels.next; (.pixel pixel, { s with pixels := cursor })

/-- Makes moves one after the other. -/
def run (s : Session) : List Move → List View × Session
  | [] => ([], s)
  | move :: moves =>
    let (view, next) := s.move move
    let (views, last) := next.run moves
    (view :: views, last)

end Session

end GlyphStrip
