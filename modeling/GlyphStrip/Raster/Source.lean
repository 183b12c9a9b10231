import GlyphStrip.Raster.Grid

/-!
# Sources of luminance

A source says how large it is and gives the luminance of a pixel, or fails to. Reading a pixel never
changes a source.
-/

namespace GlyphStrip

/-- The pixel at this place could not be read. -/
structure SampleError where
  x : UInt32
  y : UInt32
deriving DecidableEq

/-- What a user is told about a pixel that could not be read. -/
def SampleError.message (error : SampleError) : String :=
  "pixel (" ++ toString error.x.toNat ++ ", " ++ toString error.y.toNat ++ ") could not be read"

/-- Anything whose pixels can be read as luminance. -/
structure Source where
  width : UInt32
  height : UInt32
  luminance : UInt32 → UInt32 → Except SampleError UInt8

/-- A pixel that a source refuses to give, and the error that it gives instead. -/
structure Flaw where
  x : UInt32
  y : UInt32
  error : SampleError
deriving DecidableEq

namespace Source

/-- Samples given row by row with a declared size. Too few samples show only when a missing one is
read. -/
def raw (width height : UInt32) (samples : Array UInt8) : Source where
  width := width
  height := height
  luminance x y :=
    if x < width ∧ y < height then
      match samples[y.toNat * width.toNat + x.toNat]? with
      | some sample => .ok sample
      | none => .error ⟨x, y⟩
    else .error ⟨x, y⟩

/-- The pixels of a grey picture. -/
def ofGray (image : GrayImage) : Source where
  width := image.width
  height := image.height
  luminance x y :=
    match image.get? x y with
    | some sample => .ok sample
    | none => .error ⟨x, y⟩

/-- The source with some pixels made unreadable; of two flaws of one pixel the first counts. -/
def withFlaws (source : Source) (flaws : List Flaw) : Source where
  width := source.width
  height := source.height
  luminance x y :=
    match flaws.find? fun flaw => flaw.x == x && flaw.y == y with
    | some flaw => .error flaw.error
    | none => source.luminance x y

end Source

end GlyphStrip
