import GlyphStrip.Font.Session
import GlyphStrip.Machine.Words

/-!
# Sessions in machine words

The same cursors with their positions in words of 16 and 8 bits. A sum that does not fit its word, a
difference below zero, a shift by the width of the word or more, and a place outside of the font are
faults that end the session. Every move over more than one glyph is a loop of single steps.
-/

namespace GlyphStrip.Machine

/-! ## Places in a font -/

/-- The glyph of a character, cut out of the bytes of the font. -/
def glyph (font : Font) (c : BitVec 8) : Except Fault Glyph :=
  let start := c.toNat * glyphHeight
  if h : start + glyphHeight ≤ font.bytes.length then
    .ok {
      index := ⟨c⟩
      rows := ((font.bytes.drop start).take glyphHeight).map Row.mk
      length_rows := by simp only [List.length_map, List.length_take, List.length_drop]; omega }
  else .error .outOfRange

/-- The pixel of a row in a column, if the row has that column. -/
def pixel? (row : Row) (column : BitVec 8) : Except Fault (Option Bool) :=
  if glyphWidth ≤ column.toNat then .ok none
  else do
    let amount ← difference (BitVec.ofNat 8 (glyphWidth - 1)) column
    let shifted ← shiftRight row.bits.toBitVec amount
    return some (shifted &&& 1 == 1)

/-! ## Cursors -/

structure GlyphCursor where
  font : Font
  index : BitVec 16
deriving DecidableEq

instance : Ord GlyphCursor where
  compare a b := (compare a.font b.font).then (compare a.index b.index)

namespace GlyphCursor

def start (font : Font) : GlyphCursor :=
  ⟨font, 0⟩

/-- Gives the next glyph and steps over it. A position that is no character gives nothing. -/
def next (cursor : GlyphCursor) : Except Fault (Option Glyph × GlyphCursor) :=
  if glyphCount ≤ cursor.index.toNat then .ok (none, cursor)
  else
    match narrow? 8 cursor.index with
    | none => .ok (none, cursor)
    | some c => do
      let index ← increment cursor.index
      let glyph ← glyph cursor.font c
      return (some glyph, { cursor with index })

/-- Skips glyphs one at a time, no further than to the first that is missing, and gives the next. -/
def nth (cursor : GlyphCursor) : Nat → Except Fault (Option Glyph × GlyphCursor)
  | 0 => cursor.next
  | k + 1 => do
    match ← cursor.next with
    | (none, stopped) => return (none, stopped)
    | (some _, further) => further.nth k

/-- Gives glyphs one at a time, `k` of them or until one is missing. -/
def take (cursor : GlyphCursor) : Nat → Except Fault (List Glyph × GlyphCursor)
  | 0 => return ([], cursor)
  | k + 1 => do
    match ← cursor.next with
    | (none, stopped) => return ([], stopped)
    | (some glyph, further) =>
      let (glyphs, last) ← further.take k
      return (glyph :: glyphs, last)

/-- Gives glyphs until one is missing, which has to come within `patience` steps. -/
def drain (cursor : GlyphCursor) : Nat → Except Fault (List Glyph × GlyphCursor)
  | 0 => .error .endless
  | patience + 1 => do
    match ← cursor.next with
    | (none, stopped) => return ([], stopped)
    | (some glyph, further) =>
      let (glyphs, last) ← further.drain patience
      return (glyph :: glyphs, last)

/-- All glyphs take a step each, and finding that there are no more takes another. -/
def rest (cursor : GlyphCursor) : Except Fault (List Glyph × GlyphCursor) :=
  cursor.drain (glyphCount + 1)

end GlyphCursor

structure PixelCursor where
  row : Row
  index : BitVec 8
deriving DecidableEq

namespace PixelCursor

def start (row : Row) : PixelCursor :=
  ⟨row, 0⟩

/-- Gives the next pixel and steps over it. -/
def next (cursor : PixelCursor) : Except Fault (Option Bool × PixelCursor) := do
  match ← pixel? cursor.row cursor.index with
  | none => return (none, cursor)
  | some pixel =>
    let index ← increment cursor.index
    return (some pixel, { cursor with index })

end PixelCursor

/-! ## Sessions -/

/-- The rows that a glyph has left are a piece of the font, so their cursor needs no word. -/
structure Session where
  font : Font
  glyphs : GlyphCursor
  saved : GlyphCursor
  rows : RowCursor
  pixels : PixelCursor
deriving DecidableEq

namespace Session

def start (font : Font) : Except Fault Session := do
  let top ← glyph font 0
  return {
    font
    glyphs := .start font
    saved := .start font
    rows := .start top
    pixels := .start ⟨0⟩ }

/-- Makes one move. -/
def move (s : Session) : Move → Except Fault (View × Session)
  | .restart => return (.nothing, { s with glyphs := .start s.font })
  | .next => do
    let (glyph, glyphs) ← s.glyphs.next
    return (.glyph glyph, { s with glyphs })
  | .nth k => do
    let (glyph, glyphs) ← s.glyphs.nth k
    return (.glyph glyph, { s with glyphs })
  | .take k => do
    let (taken, glyphs) ← s.glyphs.take k
    return (.glyphs taken, { s with glyphs })
  | .rest => do
    let (taken, glyphs) ← s.glyphs.rest
    return (.glyphs taken, { s with glyphs })
  | .left => do
    let (counted, _) ← s.glyphs.rest
    return (.count counted.length, s)
  | .save => return (.nothing, { s with saved := s.glyphs })
  | .restore => return (.nothing, { s with glyphs := s.saved })
  | .compareSaved => return (.order (compare s.glyphs s.saved), s)
  | .rowsOf c => do
    let glyph ← glyph s.font c.toBitVec
    return (.nothing, { s with rows := .start glyph })
  | .nextRow =>
    let (row, rows) := s.rows.next
    return (.row row, { s with rows })
  | .pixelsOf bits => return (.nothing, { s with pixels := .start ⟨bits⟩ })
  | .nextPixel => do
    let (pixel, pixels) ← s.pixels.next
    return (.pixel pixel, { s with pixels })

/-- Makes moves one after the other. -/
def run (s : Session) : List Move → Except Fault (List View × Session)
  | [] => return ([], s)
  | move :: moves => do
    let (view, next) ← s.move move
    let (views, last) ← next.run moves
    return (view :: views, last)

end Session

end GlyphStrip.Machine
