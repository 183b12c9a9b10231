import GlyphStrip.Machine.Words

/-!
# Words without faults

A number that fits a word is written `BitVec.ofNat w n`, and a result that fits as well makes the
operation one on `n`.
-/

namespace GlyphStrip.Machine

theorem toNat_ofNat_of_lt {w n : Nat} (h : n < 2 ^ w) : (BitVec.ofNat w n).toNat = n := by
  rw [BitVec.toNat_ofNat, Nat.mod_eq_of_lt h]

theorem increment_ofNat {w n : Nat} (h : n + 1 < 2 ^ w) :
    increment (BitVec.ofNat w n) = .ok (BitVec.ofNat w (n + 1)) := by
  have hn : (BitVec.ofNat w n).toNat = n := toNat_ofNat_of_lt (by omega)
  have hw : 1 < 2 ^ w := by omega
  have hone : (1 : BitVec w).toNat = 1 := toNat_ofNat_of_lt hw
  rw [increment, BitVec.uaddOverflow, hn, hone, decide_eq_false (by omega), BitVec.ofNat_add]
  rfl

theorem difference_of_le {w : Nat} {n m : BitVec w} (h : m.toNat ≤ n.toNat) :
    difference n m = .ok (n - m) := by
  rw [difference, BitVec.usubOverflow, decide_eq_false (by omega)]
  rfl

theorem sum_ofNat {w n m : Nat} (h : n + m < 2 ^ w) :
    sum (BitVec.ofNat w n) (BitVec.ofNat w m) = .ok (BitVec.ofNat w (n + m)) := by
  have hn : (BitVec.ofNat w n).toNat = n := toNat_ofNat_of_lt (by omega)
  have hm : (BitVec.ofNat w m).toNat = m := toNat_ofNat_of_lt (by omega)
  rw [sum, BitVec.uaddOverflow, hn, hm, decide_eq_false (by omega), BitVec.ofNat_add]
  rfl

theorem product_ofNat {w n m : Nat} (hn : n < 2 ^ w) (hm : m < 2 ^ w) (h : n * m < 2 ^ w) :
    product (BitVec.ofNat w n) (BitVec.ofNat w m) = .ok (BitVec.ofNat w (n * m)) := by
  rw [product, BitVec.umulOverflow, toNat_ofNat_of_lt hn, toNat_ofNat_of_lt hm,
    decide_eq_false (Nat.not_le.2 h), BitVec.ofNat_mul]
  rfl

theorem shiftLeft_of_lt {w : Nat} {n amount : BitVec w} (h : amount.toNat < w) :
    shiftLeft n amount = .ok (n <<< amount) :=
  if_pos h

/-- A number that fits a word keeps its value in a wider one. -/
theorem setWidth_ofNat {v w n : Nat} (hvw : v ≤ w) (h : n < 2 ^ v) :
    (BitVec.ofNat v n).setWidth w = BitVec.ofNat w n := by
  have hw : n < 2 ^ w := Nat.lt_of_lt_of_le h (Nat.pow_le_pow_right (by decide) hvw)
  apply BitVec.eq_of_toNat_eq
  rw [BitVec.toNat_setWidth, toNat_ofNat_of_lt h, toNat_ofNat_of_lt hw, Nat.mod_eq_of_lt hw]

end GlyphStrip.Machine
