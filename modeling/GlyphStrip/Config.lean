import GlyphStrip.Log.Level

/-!
# Configuration of a run
-/

namespace GlyphStrip

/-- What one run is asked to do. -/
structure Config where
  /-- The path of the strip picture. -/
  input : String
  /-- The path that the packed font is written to. -/
  output : String
  /-- The glyphs to show once the font has been written. -/
  preview : List UInt8
  /-- The most detailed level that is shown. -/
  level : Level
deriving DecidableEq

end GlyphStrip
