import GlyphStrip.Font.Basic
import GlyphStrip.Strip.Pieces
import GlyphStrip.Strip.Scan

/-!
# Packing a strip into a font

Glyph `c` is read from the cell that starts at column `8 * c`. Its row `r` becomes byte `7 * c + r`
of the font. A source of another size than the strip is not read at all.
-/

namespace GlyphStrip

/-- A source has another size than the strip. -/
structure ShapeError where
  width : UInt32
  height : UInt32
deriving DecidableEq

/-- What a user is told about a source of the wrong size. -/
def ShapeError.message (error : ShapeError) : String :=
  "expected " ++ toString stripWidth ++ "x" ++ toString stripHeight ++ " pixels but got " ++
    toString error.width.toNat ++ "x" ++ toString error.height.toNat ++ " pixels"

/-- Why a source cannot be packed. -/
inductive PackError where
  | shape (error : ShapeError)
  | sample (error : SampleError)
deriving DecidableEq

namespace PackError

/-- The message of the error underneath. -/
def cause : PackError → String
  | .shape error => error.message
  | .sample error => error.message

/-- What a user is told about a source that cannot be packed. -/
def message : PackError → String
  | .shape error => "invalid image shape: " ++ error.message
  | .sample error => "invalid image data: " ++ error.message

end PackError

namespace Reading

/-- The packed rows of the pixels read, as far as they are complete. -/
def rows (reading : Reading) : List Row :=
  (pieces (glyphWidth - 1) (reading.values.map isForeground)).map Row.ofPixels

/-- The glyphs whose pixels were all read. -/
def glyphs (reading : Reading) : List Glyph :=
  (pieces (glyphHeight - 1) reading.rows).attach.zipIdx.map fun (piece, c) =>
    ⟨UInt8.ofNat c, piece.val, length_of_mem_pieces piece.property⟩

theorem length_rows (reading : Reading) :
    reading.rows.length = reading.values.length / glyphWidth := by
  simp [rows, length_pieces]

end Reading

/-- The course of packing a source: the glyphs finished one after the other, and how it ended. -/
structure Packing where
  finished : List Glyph
  result : Except PackError Font

/-- Packs a source. -/
def Source.pack (source : Source) : Packing :=
  if source.width.toNat = stripWidth ∧ source.height.toNat = stripHeight then
    let reading := source.read stripScan
    match h : reading.fault with
    | some error => ⟨reading.glyphs, .error (.sample error)⟩
    | none => ⟨reading.glyphs, .ok ⟨reading.rows.map Row.bits, by
        rw [List.length_map, reading.length_rows, source.length_values_read stripScan h,
          length_stripScan, Nat.mul_div_cancel _ (by decide)]⟩⟩
  else ⟨[], .error (.shape ⟨source.width, source.height⟩)⟩

end GlyphStrip
