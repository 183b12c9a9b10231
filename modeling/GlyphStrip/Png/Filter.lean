/-!
# Filters

Each scanline is stored as differences to a prediction. A byte is predicted from the byte one pixel
to the left, the byte above, and the byte above that to the left; what lies outside counts as zero.
-/

namespace GlyphStrip.Png

/-- A prediction from the bytes to the left, above, and above to the left. -/
abbrev Predictor := UInt8 → UInt8 → UInt8 → UInt8

/-- Of the three neighbours the one nearest to `left + up - corner`; of equally near ones the left
one comes first, then the one above. -/
def nearest : Predictor := fun left up corner =>
  let target : Int := (left.toNat : Int) + up.toNat - corner.toNat
  let away (byte : UInt8) : Nat := (target - byte.toNat).natAbs
  if away left ≤ away up ∧ away left ≤ away corner then left
  else if away up ≤ away corner then up
  else corner

/-- The predictor with a code. -/
def Predictor.ofCode? : Nat → Option Predictor
  | 0 => some fun _ _ _ => 0
  | 1 => some fun left _ _ => left
  | 2 => some fun _ up _ => up
  | 3 => some fun left up _ => UInt8.ofNat ((left.toNat + up.toNat) / 2)
  | 4 => some nearest
  | _ => none

/-- The byte `distance` places before a place, or zero. -/
def before (bytes : Array UInt8) (place distance : Nat) : UInt8 :=
  if distance ≤ place then bytes.getD (place - distance) 0 else 0

/-- Restores a scanline from its differences and the scanline above. -/
def unfilter (predict : Predictor) (distance : Nat) (above differences : Array UInt8) :
    Array UInt8 :=
  differences.foldl (fun line difference =>
    let place := line.size
    line.push (difference + predict (before line place distance) (before above place 0)
      (before above place distance))) #[]

end GlyphStrip.Png
