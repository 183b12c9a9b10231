/-!
# Rounding to single precision

A positive number of single precision has 24 significant bits. Only numbers far from both ends of
the range of exponents are rounded here, and the rule is the same for every unit: rounding `n` units
and rounding `2 ^ k * n` units of half the size, `k` times halved, give the same number.
-/

namespace GlyphStrip.Single

/-- How many significant bits a number keeps. -/
abbrev precision : Nat := 24

/-- The multiple of `unit` nearest to `n`; of two equally near the even multiple. -/
def roundTo (unit n : Nat) : Nat :=
  let quotient := n / unit
  let remainder := n % unit
  if 2 * remainder < unit ∨ (2 * remainder = unit ∧ quotient % 2 = 0) then quotient * unit
  else (quotient + 1) * unit

/-- The number of 24 significant bits nearest to `n`. -/
def round (n : Nat) : Nat :=
  roundTo (Nat.pow 2 (n.log2 + 1 - precision)) n

end GlyphStrip.Single
