import GlyphStrip.Geometry
import GlyphStrip.Raster.Source

/-!
# Reading a strip

The strip is read glyph by glyph, in a glyph row by row, and in a row left to right. Reading ends
behind the first pixel that cannot be read.
-/

namespace GlyphStrip

/-- A place in a strip: column and row. -/
structure Point where
  x : UInt32
  y : UInt32
deriving DecidableEq

/-- The place of a pixel of a glyph. -/
def Point.ofPixel (c row column : Nat) : Point :=
  ⟨UInt32.ofNat (glyphWidth * c + column), UInt32.ofNat row⟩

/-- The places of one row of a glyph, left to right. -/
def rowScan (c row : Nat) : List Point :=
  (List.range glyphWidth).map (Point.ofPixel c row)

/-- The places of a glyph, row by row. -/
def glyphScan (c : Nat) : List Point :=
  (List.range glyphHeight).flatMap (rowScan c)

/-- All places of the strip in the order in which they are read. -/
def stripScan : List Point :=
  (List.range glyphCount).flatMap glyphScan

/-- What reading some places gave. -/
structure Reading where
  /-- The places asked for, the failing one included. -/
  asked : List Point
  /-- The luminance of the places that could be read. -/
  values : List UInt8
  /-- The error of the first place that could not. -/
  fault : Option SampleError
deriving DecidableEq

/-- Reads places one after the other, up to the first that fails. -/
def Source.read (source : Source) : List Point → Reading
  | [] => ⟨[], [], none⟩
  | p :: rest =>
    match source.luminance p.x p.y with
    | .error error => ⟨[p], [], some error⟩
    | .ok value =>
      let reading := source.read rest
      ⟨p :: reading.asked, value :: reading.values, reading.fault⟩

/-- Without a fault there is a value for each place. -/
theorem Source.length_values_read (source : Source) (points : List Point)
    (h : (source.read points).fault = none) :
    (source.read points).values.length = points.length := by
  induction points with
  | nil => rfl
  | cons p rest ih =>
    cases hp : source.luminance p.x p.y with
    | error error => simp [Source.read, hp] at h
    | ok value =>
      simp only [Source.read, hp] at h ⊢
      simp [ih h]

theorem length_stripScan : stripScan.length = fontSize * glyphWidth := by
  simp [stripScan, glyphScan, rowScan, List.length_flatMap, List.map_const', fontSize,
    Nat.mul_assoc]

end GlyphStrip
