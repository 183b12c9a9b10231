import GlyphStrip.Machine.Words
import GlyphStrip.Raster.Source

/-!
# Raw samples in machine words

The same reads with the number of a sample in a word of 64 bits. A word that is no address finds no
sample.
-/

namespace GlyphStrip.Machine

/-- The number of the sample of a pixel, row by row. -/
def sampleNumber (width x y : UInt32) : Except Fault (BitVec 64) := do
  let above ← product (y.toBitVec.setWidth 64) (width.toBitVec.setWidth 64)
  sum above (x.toBitVec.setWidth 64)

/-- The sample with a number, where addresses are words of some number of bits. -/
def sample? (addressBits : Nat) (samples : Array UInt8) (number : BitVec 64) : Option UInt8 :=
  (narrow? addressBits number).bind fun address => samples[address.toNat]?

/-- Reads a pixel of raw samples with a declared size. -/
def luminance (addressBits : Nat) (width height : UInt32) (samples : Array UInt8) (x y : UInt32) :
    Except Fault (Except SampleError UInt8) :=
  if width ≤ x ∨ height ≤ y then .ok (.error ⟨x, y⟩)
  else do
    let number ← sampleNumber width x y
    match sample? addressBits samples number with
    | some sample => return .ok sample
    | none => return .error ⟨x, y⟩

end GlyphStrip.Machine
