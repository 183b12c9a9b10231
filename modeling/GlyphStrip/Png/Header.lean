import GlyphStrip.Png.Chunk
import GlyphStrip.Raster.Image

/-!
# Image headers

The header says how large the picture is and how its pixels are stored.
-/

namespace GlyphStrip.Png

/-- What a stored pixel consists of. -/
inductive ColorKind where
  | gray
  | rgb
  | indexed
  | grayAlpha
  | rgba
deriving DecidableEq

namespace ColorKind

/-- The kind with a code. -/
def ofCode? : Nat → Option ColorKind
  | 0 => some .gray
  | 2 => some .rgb
  | 3 => some .indexed
  | 4 => some .grayAlpha
  | 6 => some .rgba
  | _ => none

/-- The number of samples of a pixel. -/
def channels : ColorKind → Nat
  | .gray => 1
  | .rgb => 3
  | .indexed => 1
  | .grayAlpha => 2
  | .rgba => 4

/-- The sample sizes in bits that a kind admits. -/
def depths : ColorKind → List Nat
  | .gray => [1, 2, 4, 8, 16]
  | .indexed => [1, 2, 4, 8]
  | .rgb | .grayAlpha | .rgba => [8, 16]

end ColorKind

/-- How a picture is stored. -/
structure Header where
  width : UInt32
  height : UInt32
  depth : Nat
  kind : ColorKind
  isInterlaced : Bool
deriving DecidableEq

namespace Header

/-- Reads the body of a header chunk. -/
def read? (body : List UInt8) : Option Header := do
  let width := bigEndian (body.take 4)
  let height := bigEndian ((body.drop 4).take 4)
  match body.drop 8 with
  | [depth, code, compression, filter, interlace] =>
    let kind ← ColorKind.ofCode? code.toNat
    if 0 < width ∧ 0 < height ∧ depth.toNat ∈ kind.depths ∧ compression = 0 ∧ filter = 0 ∧
        interlace ≤ 1 then
      some ⟨UInt32.ofNat width, UInt32.ofNat height, depth.toNat, kind, interlace == 1⟩
    else none
  | _ => none

/-- The kind of image that a picture becomes. A palette becomes colours, and marked transparency
becomes alpha. -/
def colorType (header : Header) (hasTransparency : Bool) : ColorType :=
  match header.kind, hasTransparency, header.depth == 16 with
  | .gray, false, false => .l8
  | .gray, false, true => .l16
  | .gray, true, false => .la8
  | .gray, true, true => .la16
  | .grayAlpha, _, false => .la8
  | .grayAlpha, _, true => .la16
  | .indexed, false, _ => .rgb8
  | .indexed, true, _ => .rgba8
  | .rgb, false, false => .rgb8
  | .rgb, false, true => .rgb16
  | .rgb, true, false => .rgba8
  | .rgb, true, true => .rgba16
  | .rgba, _, false => .rgba8
  | .rgba, _, true => .rgba16

/-- The number of bytes that the pixels of the image take. -/
def expandedSize (header : Header) (hasTransparency : Bool) : Nat :=
  header.width.toNat * header.height.toNat * (header.colorType hasTransparency).pixelSize

/-- The number of bytes that the pixels of one line of the image take. -/
def lineSize (header : Header) (hasTransparency : Bool) : Nat :=
  header.width.toNat * (header.colorType hasTransparency).pixelSize

/-- The number of bytes between a sample byte and the one that it is predicted from. -/
def predictionDistance (header : Header) : Nat :=
  (header.kind.channels * header.depth + 7) / 8

/-- The number of bytes in a scanline of some pixels, less the byte that names its filter. -/
def scanlineSize (header : Header) (columns : Nat) : Nat :=
  (columns * header.kind.channels * header.depth + 7) / 8

end Header

end GlyphStrip.Png
