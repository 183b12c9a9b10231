import GlyphStrip.Raster.Luminance
import Mathlib.Tactic.Ring

/-!
# Luminance and its errors

Every rounding moves a number by at most one part in `2 ^ 24` (`Single.round_error`). A luminance is
rounded nine times, five of them one upon the other, so it lies within about five parts in `2 ^ 24`
of the weighted sum that it stands for (`Luminance.within_shares`). The weights add up to one as
nearly, so a grey value is its own luminance (`Luminance.ofColor_eight_gray`).
-/

namespace GlyphStrip

namespace Single

/-! ## Rounding once -/

theorem roundTo_error {unit : Nat} (hunit : 0 < unit) (n : Nat) :
    2 * roundTo unit n ≤ 2 * n + unit ∧ 2 * n ≤ 2 * roundTo unit n + unit := by
  have hparts := Nat.div_add_mod n unit
  have hremainder := Nat.mod_lt n hunit
  rw [Nat.mul_comm] at hparts
  unfold roundTo
  dsimp only
  split
  · omega
  · rw [Nat.add_mul]
    omega

/-- A number moves by at most one part in `2 ^ 24`. -/
theorem round_error (n : Nat) :
    2 ^ 24 * round n ≤ 2 ^ 24 * n + n ∧ 2 ^ 24 * n ≤ 2 ^ 24 * round n + n := by
  obtain ⟨hhigh, hlow⟩ :=
    roundTo_error (Nat.pow_pos (n := n.log2 + 1 - precision) (by decide : 0 < 2)) n
  change 2 * round n ≤ 2 * n + 2 ^ (n.log2 + 1 - precision) at hhigh
  change 2 * n ≤ 2 * round n + 2 ^ (n.log2 + 1 - precision) at hlow
  by_cases hsmall : n.log2 + 1 ≤ precision
  · rw [Nat.sub_eq_zero_of_le hsmall] at hhigh hlow
    omega
  · have hne : n ≠ 0 := by
      rintro rfl
      exact hsmall (by decide)
    have hunit : 2 ^ 23 * 2 ^ (n.log2 + 1 - precision) ≤ n := by
      rw [← Nat.pow_add]
      have hexponent : 23 + (n.log2 + 1 - precision) = n.log2 := by
        simp only [precision] at hsmall ⊢
        omega
      rw [hexponent]
      exact Nat.log2_self_le hne
    generalize 2 ^ (n.log2 + 1 - precision) = unit at *
    omega

/-! ## Rounding more than once -/

/-- The number `m` is `n` up to `e` parts in `2 ^ 32`. -/
structure Within (e m n : Nat) : Prop where
  high : 2 ^ 32 * m ≤ 2 ^ 32 * n + e * n
  low : 2 ^ 32 * n ≤ 2 ^ 32 * m + e * n

namespace Within

variable {e m n : Nat}

theorem refl (n : Nat) : Within 0 n n :=
  ⟨Nat.le_add_right .., Nat.le_add_right ..⟩

/-- Rounding adds an error of 256 parts in `2 ^ 32`, and less than one for the errors before. -/
theorem round (h : Within e m n) (he : e ≤ 2 ^ 24) : Within (e + 257) (round m) n := by
  obtain ⟨hhigh, hlow⟩ := h
  obtain ⟨hup, hdown⟩ := round_error m
  have hsquare : e * n ≤ 2 ^ 24 * n := Nat.mul_le_mul_right n he
  constructor
  · rw [Nat.add_mul]
    omega
  · rw [Nat.add_mul]
    omega

theorem mul (h : Within e m n) (w : Nat) : Within e (m * w) (n * w) := by
  have hhigh := Nat.mul_le_mul_right w h.high
  have hlow := Nat.mul_le_mul_right w h.low
  constructor
  · calc 2 ^ 32 * (m * w) = 2 ^ 32 * m * w := by ring
      _ ≤ (2 ^ 32 * n + e * n) * w := hhigh
      _ = 2 ^ 32 * (n * w) + e * (n * w) := by ring
  · calc 2 ^ 32 * (n * w) = 2 ^ 32 * n * w := by ring
      _ ≤ (2 ^ 32 * m + e * n) * w := hlow
      _ = 2 ^ 32 * (m * w) + e * (n * w) := by ring

theorem add (h : Within e m n) {m' n' : Nat} (h' : Within e m' n') :
    Within e (m + m') (n + n') := by
  obtain ⟨hhigh, hlow⟩ := h
  obtain ⟨hhigh', hlow'⟩ := h'
  constructor
  · rw [Nat.mul_add e]
    omega
  · rw [Nat.mul_add e]
    omega

theorem mono (h : Within e m n) {e' : Nat} (he : e ≤ e') : Within e' m n := by
  have hparts : e * n ≤ e' * n := Nat.mul_le_mul_right n he
  exact ⟨by have := h.high; omega, by have := h.low; omega⟩

end Within

end Single

namespace Luminance

open Single

variable (scale : Scale)

theorem within_term (weight sample : Nat) :
    Within 514 (term scale weight sample) (sample * scale.step * weight) :=
  (((Within.refl _).round (by decide)).mul weight).round (by decide)

/-- The weighted sum is exact up to about four parts in `2 ^ 24`. -/
theorem within_sum (red green blue : Nat) : Within 1028 (sum scale red green blue)
    (red * scale.step * redWeight + green * scale.step * greenWeight +
      blue * scale.step * blueWeight) := by
  have hpair := ((within_term scale redWeight red).add (within_term scale greenWeight green)).round
    (by decide)
  have hblue := (within_term scale blueWeight blue).mono (by decide : 514 ≤ 514 + 257)
  exact (hpair.add hblue).round (by decide)

/-- What is rounded to a sample in the end is exact up to about five parts in `2 ^ 24`. -/
theorem within_shares (red green blue : Nat) : Within 1285
    (round (sum scale red green blue * 255))
    ((red * scale.step * redWeight + green * scale.step * greenWeight +
      blue * scale.step * blueWeight) * 255) :=
  ((within_sum scale red green blue).mul 255).round (by decide)

/-- The weights add up to a little more than one. -/
theorem within_gray (v : Nat) :
    Within 1285 (round (sum scale v v v * 255)) (v * scale.step * (134217739 * 255)) := by
  have hshares := within_shares scale v v v
  have hweights : v * scale.step * redWeight + v * scale.step * greenWeight +
      v * scale.step * blueWeight = v * scale.step * 134217739 := by
    rw [← Nat.mul_add, ← Nat.mul_add]
    rfl
  rwa [hweights, Nat.mul_assoc] at hshares

/-- An 8-bit grey value is its own luminance. -/
theorem ofColor_eight_gray (v : UInt8) :
    ofColor .eight v.toNat v.toNat v.toNat = v := by
  have hv := v.toNat_lt
  obtain ⟨hhigh, hlow⟩ := within_gray .eight v.toNat
  have hunit : Nat.pow 2 (Scale.eight.places + weightPlaces) = 2 ^ 58 := rfl
  rw [ofColor, hunit]
  simp only [Scale.eight] at hhigh hlow ⊢
  generalize round _ = shares at *
  have hvalue : (2 * shares + 2 ^ 58) / (2 * 2 ^ 58) = v.toNat := by omega
  rw [hvalue, Nat.min_eq_right (by omega), UInt8.ofNat_toNat]

/-- The luminance of a 16-bit grey value is the nearest 8-bit value. -/
theorem ofColor_sixteen_gray (v : UInt16) :
    ofColor .sixteen v.toNat v.toNat v.toNat = ofGray16 v := by
  have hv := v.toNat_lt
  obtain ⟨hhigh, hlow⟩ := within_gray .sixteen v.toNat
  have hunit : Nat.pow 2 (Scale.sixteen.places + weightPlaces) = 2 ^ 66 := rfl
  rw [ofColor, hunit, ofGray16]
  simp only [Scale.sixteen] at hhigh hlow ⊢
  generalize round _ = shares at *
  have hvalue : (2 * shares + 2 ^ 66) / (2 * 2 ^ 66) = (v.toNat + 128) / 257 := by omega
  rw [hvalue, Nat.min_eq_right (by omega)]

/-- The 16-bit sample of the same share as an 8-bit one. -/
def widen (value : UInt8) : UInt16 :=
  UInt16.ofNat (257 * value.toNat)

theorem ofGray16_widen (value : UInt8) : ofGray16 (widen value) = value := by
  have hvalue := value.toNat_lt
  have hwide : (widen value).toNat = 257 * value.toNat :=
    UInt16.toNat_ofNat_of_lt' (by simp only [UInt16.size]; omega)
  have hnearest : (257 * value.toNat + 128) / 257 = value.toNat := by omega
  rw [ofGray16, hwide, hnearest, UInt8.ofNat_toNat]

end Luminance

end GlyphStrip
