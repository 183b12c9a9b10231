import GlyphStrip.Font.Cursor
import GlyphStrip.Font.Preview
import GlyphStrip.Proofs.Font.Bits
import GlyphStrip.Proofs.Text.Split
import Mathlib.Tactic.ByContra

/-!
# The views of a font

A pixel of a font can be seen in its byte, by its place, by stepping through a glyph and then
through a row, and in the drawn glyph. All views agree: `Font.shows_of_pixel?`.
-/

namespace GlyphStrip

/-! ## Stepping -/

/-- The item that a cursor gives behind `n` others. -/
def itemAfter {σ α : Type} (next : σ → Option α × σ) : Nat → σ → Option α
  | 0, cursor => (next cursor).1
  | n + 1, cursor => itemAfter next n (next cursor).2

theorem RowCursor.itemAfter_next (n : Nat) (cursor : RowCursor) :
    itemAfter RowCursor.next n cursor = cursor.remaining[n]? := by
  induction n generalizing cursor with
  | zero => simp [itemAfter, RowCursor.next, List.head?_eq_getElem?]
  | succ n ih =>
    rw [itemAfter, ih]
    simp [RowCursor.next]

theorem PixelCursor.itemAfter_next (n : Nat) (cursor : PixelCursor) :
    itemAfter PixelCursor.next n cursor = cursor.row.pixel? (cursor.column + n) := by
  induction n generalizing cursor with
  | zero => rfl
  | succ n ih =>
    rw [itemAfter, ih]
    show cursor.row.pixel? (min (cursor.column + 1) glyphWidth + n) = _
    by_cases hend : cursor.column + 1 ≤ glyphWidth
    · rw [Nat.min_eq_left hend, Nat.add_assoc, Nat.add_comm 1 n]
    · -- at the end the cursor stays, and there are no pixels further on either
      have hcolumn := cursor.column_le
      rw [Row.pixel?, Row.pixel?, if_neg (by omega), if_neg (by omega)]

/-! ## Drawn glyphs -/

theorem Row.mem_marks {row : Row} {mark : Char} (h : mark ∈ row.marks) :
    mark = '#' ∨ mark = '.' := by
  obtain ⟨pixel, _, rfl⟩ := List.mem_map.1 h
  cases pixel
  · exact Or.inr rfl
  · exact Or.inl rfl

/-- The drawn glyph has a line for each row, and nothing behind the last one. -/
theorem Glyph.lines_picture (glyph : Glyph) :
    Text.lines glyph.picture = glyph.rows.map (fun row => String.ofList row.marks) ++ [""] := by
  have hfeed : ∀ row ∈ glyph.rows, '\n' ∉ row.marks := by
    intro row _ hmem
    rcases Row.mem_marks hmem with h | h <;> revert h <;> decide
  have hreturn : ∀ row : Row, row.marks.getLast? ≠ some '\r' := by
    intro row hlast
    rcases Row.mem_marks (List.mem_of_getLast? hlast) with h | h <;> revert h <;> decide
  rw [Text.lines, Glyph.picture, String.toList_ofList, Glyph.pictureChars,
    Text.split_flatMap Row.marks glyph.rows hfeed, List.map_append, List.map_map]
  congr 1
  apply List.map_congr_left
  intro row _
  exact congrArg String.ofList (if_neg (hreturn row))

/-- The mark in a line and a column of a drawn glyph is that of the pixel there. -/
theorem Glyph.mark_picture (glyph : Glyph) (row column : Nat) :
    ((Text.lines glyph.picture)[row]?.bind fun line => line.toList[column]?) =
      ((glyph.row? row).bind fun r => r.pixel? column).map pixelMark := by
  rw [Glyph.lines_picture, Glyph.row?]
  by_cases hrow : row < glyph.rows.length
  · rw [List.getElem?_append_left (by rwa [List.length_map]), List.getElem?_map]
    simp only [List.getElem?_eq_getElem hrow, Option.map_some, Option.bind_some,
      String.toList_ofList, Row.marks, List.getElem?_map, Row.getElem?_pixels]
  · rw [List.getElem?_append_right (by rw [List.length_map]; omega), List.getElem?_eq_none
      (Nat.le_of_not_lt hrow)]
    cases row - (glyph.rows.map fun row => String.ofList row.marks).length <;> simp

namespace Font

/-! ## All views -/

/-- Every view of a font shows the same at a pixel. -/
structure Shows (font : Font) (c : UInt8) (row column : Nat) (drawn : Bool) : Prop where
  /-- The leftmost pixel of a row is the highest bit of its byte. -/
  bit : ∃ byte, font.bytes[7 * c.toNat + row]? = some byte ∧
    byte.toNat.testBit (7 - column) = drawn
  pixel : font.pixel? c row column = some drawn
  /-- The rows of the glyph and then the pixels of the row, one after the other. -/
  steps : ∃ r, itemAfter RowCursor.next row (.start (font.glyph c)) = some r ∧
    itemAfter PixelCursor.next column (.start r) = some drawn
  mark : ((Text.lines (font.glyph c).picture)[row]?.bind fun line => line.toList[column]?) =
    some (if drawn then '#' else '.')

theorem shows_of_pixel? {font : Font} {c : UInt8} {row column : Nat} {drawn : Bool}
    (h : font.pixel? c row column = some drawn) : font.Shows c row column drawn := by
  obtain ⟨r, hrow, hpixel⟩ := Option.bind_eq_some_iff.1 h
  have hlt : row < glyphHeight := by
    obtain ⟨hlt, _⟩ := List.getElem?_eq_some_iff.1 hrow
    rwa [(font.glyph c).length_rows] at hlt
  have hcolumn : column < glyphWidth := by
    by_contra hge
    rw [Row.pixel?, if_neg hge] at hpixel
    cases hpixel
  constructor
  · rw [row?_glyph font c hlt] at hrow
    obtain ⟨byte, hbyte, rfl⟩ := Option.map_eq_some_iff.1 hrow
    rw [Row.pixel?, if_pos hcolumn] at hpixel
    exact ⟨byte, hbyte, Option.some.inj hpixel⟩
  · exact h
  · refine ⟨r, ?_, ?_⟩
    · rw [RowCursor.itemAfter_next]
      exact hrow
    · rw [PixelCursor.itemAfter_next]
      simpa [PixelCursor.start] using hpixel
  · rw [Glyph.mark_picture, hrow, Option.bind_some, hpixel]
    rfl

end Font

end GlyphStrip
