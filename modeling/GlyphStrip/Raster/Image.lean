import GlyphStrip.Raster.Grid
import GlyphStrip.Raster.Luminance

/-!
# Decoded images

An image is grey or coloured, with or without alpha, with samples of eight or sixteen bits. All are
projected to 8-bit luminance; alpha is ignored.
-/

namespace GlyphStrip

/-- A colour. -/
structure Rgb (α : Type) where
  red : α
  green : α
  blue : α
deriving DecidableEq

/-- The kinds of images. -/
inductive ColorType where
  | l8
  | la8
  | rgb8
  | rgba8
  | l16
  | la16
  | rgb16
  | rgba16
deriving DecidableEq

namespace ColorType

/-- The name of a kind of image in events. -/
def name : ColorType → String
  | .l8 => "L8"
  | .la8 => "La8"
  | .rgb8 => "Rgb8"
  | .rgba8 => "Rgba8"
  | .l16 => "L16"
  | .la16 => "La16"
  | .rgb16 => "Rgb16"
  | .rgba16 => "Rgba16"

/-- The number of bytes that a pixel takes. -/
def pixelSize : ColorType → Nat
  | .l8 => 1
  | .la8 => 2
  | .rgb8 => 3
  | .rgba8 => 4
  | .l16 => 2
  | .la16 => 4
  | .rgb16 => 6
  | .rgba16 => 8

end ColorType

/-- A decoded image. A pixel with alpha is a pair of what is shown and its alpha. -/
inductive Image where
  | l8 (pixels : Grid UInt8)
  | la8 (pixels : Grid (UInt8 × UInt8))
  | rgb8 (pixels : Grid (Rgb UInt8))
  | rgba8 (pixels : Grid (Rgb UInt8 × UInt8))
  | l16 (pixels : Grid UInt16)
  | la16 (pixels : Grid (UInt16 × UInt16))
  | rgb16 (pixels : Grid (Rgb UInt16))
  | rgba16 (pixels : Grid (Rgb UInt16 × UInt16))

/-- The luminance of a colour with 8-bit samples. -/
def Rgb.luminance8 (color : Rgb UInt8) : UInt8 :=
  Luminance.ofColor .eight color.red.toNat color.green.toNat color.blue.toNat

/-- The luminance of a colour with 16-bit samples. -/
def Rgb.luminance16 (color : Rgb UInt16) : UInt8 :=
  Luminance.ofColor .sixteen color.red.toNat color.green.toNat color.blue.toNat

namespace Image

/-- The kind of an image. -/
def colorType : Image → ColorType
  | .l8 _ => .l8
  | .la8 _ => .la8
  | .rgb8 _ => .rgb8
  | .rgba8 _ => .rgba8
  | .l16 _ => .l16
  | .la16 _ => .la16
  | .rgb16 _ => .rgb16
  | .rgba16 _ => .rgba16

/-- The image as 8-bit luminance. -/
def toGray : Image → GrayImage
  | .l8 pixels => pixels
  | .la8 pixels => pixels.map fun pixel => pixel.1
  | .rgb8 pixels => pixels.map Rgb.luminance8
  | .rgba8 pixels => pixels.map fun pixel => pixel.1.luminance8
  | .l16 pixels => pixels.map Luminance.ofGray16
  | .la16 pixels => pixels.map fun pixel => Luminance.ofGray16 pixel.1
  | .rgb16 pixels => pixels.map Rgb.luminance16
  | .rgba16 pixels => pixels.map fun pixel => pixel.1.luminance16

end Image

end GlyphStrip
