import GlyphStrip.Raster.Single

/-!
# Luminance of a colour

The luminance is a weighted sum of the channels, taken in single precision: every product and every
sum is rounded before it is used. The weights are those of linear light for the usual primaries.
-/

namespace GlyphStrip.Luminance

/-- How the samples of a channel stand for shares of full intensity. -/
structure Scale where
  /-- One step of a sample, as a single-precision multiple of `2 ^ -places`. -/
  step : Nat
  places : Nat

/-- Samples of eight bits: a step is one part in 255. -/
def Scale.eight : Scale := ⟨0x808081, 31⟩

/-- Samples of sixteen bits: a step is one part in 65535. -/
def Scale.sixteen : Scale := ⟨0x800080, 39⟩

/-- The number of places behind the point of a weight. -/
abbrev weightPlaces : Nat := 27

/-- The weight of red, 0.21264784. -/
def redWeight : Nat := 2 * 0xd9c05b

/-- The weight of green, 0.7151792. -/
def greenWeight : Nat := 8 * 0xb715fc

/-- The weight of blue, 0.07217304. -/
def blueWeight : Nat := 0x93cf75

/-- A weighted channel. -/
def term (scale : Scale) (weight sample : Nat) : Nat :=
  Single.round (Single.round (sample * scale.step) * weight)

/-- The weighted sum, red and green first. -/
def sum (scale : Scale) (red green blue : Nat) : Nat :=
  Single.round (Single.round (term scale redWeight red + term scale greenWeight green) +
    term scale blueWeight blue)

/-- The luminance of a colour, rounded to an 8-bit sample; a half goes up. -/
def ofColor (scale : Scale) (red green blue : Nat) : UInt8 :=
  let unit := Nat.pow 2 (scale.places + weightPlaces)
  UInt8.ofNat (min 255 ((2 * Single.round (sum scale red green blue * 255) + unit) / (2 * unit)))

/-- The 8-bit sample nearest to a 16-bit one. -/
def ofGray16 (sample : UInt16) : UInt8 :=
  UInt8.ofNat ((sample.toNat + 128) / 257)

end GlyphStrip.Luminance
