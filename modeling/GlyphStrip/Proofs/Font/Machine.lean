import GlyphStrip.Font.Machine
import GlyphStrip.Proofs.Font.Bits
import GlyphStrip.Proofs.Machine.Words
import GlyphStrip.Proofs.Results

/-!
# Machine steps are never at fault

On the cursors that a session can have, each machine step is a step of a plain position in the list
of glyphs (`Machine.GlyphCursor.next_eq`) or in a row (`Machine.PixelCursor.next_before`), and the
loops of steps give pieces of that list. Nothing overflows because the positions stop at its end.
-/

namespace GlyphStrip

theorem Font.compare_self (font : Font) : compare font font = .eq := by
  have hbytes : compare font.bytes font.bytes = .eq := Std.ReflCmp.compare_self
  exact hbytes

namespace Machine

/-! ## Places in a font -/

theorem glyph_eq (font : Font) (c : BitVec 8) : glyph font c = .ok (font.glyph ⟨c⟩) := by
  have hc := c.isLt
  have hinside : c.toNat * glyphHeight + glyphHeight ≤ font.bytes.length := by
    rw [font.length_bytes]
    simp only [fontSize, glyphCount, glyphHeight]
    omega
  simp only [glyph, dif_pos hinside, Font.glyph, Font.glyphBytes, Nat.mul_comm glyphHeight]
  rfl

theorem lowest_bit {w : Nat} (n : BitVec (w + 1)) : (n &&& 1 == 1) = n.getLsbD 0 := by
  rw [show (1 : BitVec (w + 1)) = 1#(w + 1) from rfl, BitVec.and_one_eq_setWidth_ofBool_getLsbD]
  cases n.getLsbD 0
  · simp
  · simp

theorem pixel?_eq (row : Row) (column : BitVec 8) :
    pixel? row column = .ok (row.pixel? column.toNat) := by
  by_cases hend : glyphWidth ≤ column.toNat
  · rw [pixel?, if_pos hend, Row.pixel?, if_neg (Nat.not_lt.2 hend)]
  · have hle : column.toNat ≤ (BitVec.ofNat 8 (glyphWidth - 1)).toNat := by
      simp only [glyphWidth, BitVec.toNat_ofNat] at hend ⊢
      omega
    have hamount : (BitVec.ofNat 8 (glyphWidth - 1) - column).toNat =
        glyphWidth - 1 - column.toNat := BitVec.toNat_sub_of_le hle
    have hshift : shiftRight row.bits.toBitVec (BitVec.ofNat 8 (glyphWidth - 1) - column) =
        .ok (row.bits.toBitVec >>> (glyphWidth - 1 - column.toNat)) := by
      rw [shiftRight, if_pos (by rw [hamount]; simp only [glyphWidth]; omega),
        BitVec.ushiftRight_eq', hamount]
    rw [pixel?, if_neg hend, difference_of_le hle, Row.pixel?, if_pos (Nat.lt_of_not_le hend)]
    simp only [ok_bind, hshift, lowest_bit, BitVec.getLsbD_ushiftRight, Nat.add_zero]
    rfl

/-! ## Machine cursors -/

namespace GlyphCursor

/-- The cursor in front of glyph `p`, or at the end. -/
def before (font : Font) (p : Nat) : GlyphCursor :=
  ⟨font, BitVec.ofNat 16 p⟩

theorem next_at_end (font : Font) :
    (before font glyphCount).next = .ok (none, before font glyphCount) := by
  rw [next, if_pos]
  exact Nat.le_refl glyphCount

theorem next_before (font : Font) {p : Nat} (hp : p < glyphCount) :
    (before font p).next = .ok (some (font.glyph (UInt8.ofNat p)), before font (p + 1)) := by
  have hlt : p < 256 := hp
  have hindex : (before font p).index.toNat = p := toNat_ofNat_of_lt (by omega)
  have hnarrow : narrow? 8 (before font p).index = some (BitVec.ofNat 8 p) := by
    rw [narrow?, hindex, if_pos (by omega), before, BitVec.setWidth_ofNat_of_le (by omega)]
  have hincrement : increment (before font p).index = .ok (BitVec.ofNat 16 (p + 1)) :=
    increment_ofNat (by omega)
  rw [next, hindex, if_neg (Nat.not_le.2 hp), hnarrow]
  simp only [hincrement, glyph_eq, ok_bind]
  rfl

theorem next_eq (font : Font) {p : Nat} (hp : p ≤ glyphCount) :
    (before font p).next = .ok (font.glyphs[p]?, before font (min (p + 1) glyphCount)) := by
  rcases Nat.lt_or_eq_of_le hp with hlt | rfl
  · rw [next_before font hlt, font.getElem?_glyphs hlt, Nat.min_eq_left hlt]
  · rw [next_at_end, List.getElem?_eq_none (by simp)]
    rfl

theorem nth_before (font : Font) (k : Nat) {p : Nat} (hp : p ≤ glyphCount) :
    (before font p).nth k =
      .ok (font.glyphs[p + k]?, before font (min (p + k + 1) glyphCount)) := by
  -- at the end the loop stops where it is, short of the end each turn moves the place by one
  induction k generalizing p with
  | zero => exact next_eq font hp
  | succ k ih =>
    rw [nth]
    rcases Nat.lt_or_eq_of_le hp with hlt | rfl
    · rw [next_before font hlt]
      simp only [ok_bind]
      rw [ih hlt, show p + 1 + k = p + (k + 1) by omega]
    · rw [next_at_end, List.getElem?_eq_none (by simp), Nat.min_eq_right (by omega)]
      rfl

theorem take_before (font : Font) (k : Nat) {p : Nat} (hp : p ≤ glyphCount) :
    (before font p).take k =
      .ok ((font.glyphs.drop p).take k, before font (min (p + k) glyphCount)) := by
  induction k generalizing p with
  | zero =>
    rw [take, List.take_zero, Nat.add_zero, Nat.min_eq_left hp]
    rfl
  | succ k ih =>
    rw [take]
    rcases Nat.lt_or_eq_of_le hp with hlt | rfl
    · rw [next_before font hlt, font.drop_glyphs hlt, List.take_succ_cons]
      simp only [ok_bind]
      rw [ih hlt, show p + 1 + k = p + (k + 1) by omega]
      rfl
    · rw [next_at_end, List.drop_eq_nil_of_le (by simp), Nat.min_eq_right (by omega)]
      rfl

/-- Stopping takes a step of its own, so the patience has to be more than what remains. -/
theorem drain_before (font : Font) {patience p : Nat} (hp : p ≤ glyphCount)
    (hpatience : glyphCount < p + patience) :
    (before font p).drain patience = .ok (font.glyphs.drop p, before font glyphCount) := by
  induction patience generalizing p with
  | zero => omega
  | succ patience ih =>
    rw [drain]
    rcases Nat.lt_or_eq_of_le hp with hlt | rfl
    · rw [next_before font hlt, font.drop_glyphs hlt]
      simp only [ok_bind]
      rw [ih hlt (by omega)]
      rfl
    · rw [next_at_end, List.drop_eq_nil_of_le (by simp)]
      rfl

theorem rest_before (font : Font) {p : Nat} (hp : p ≤ glyphCount) :
    (before font p).rest = .ok (font.glyphs.drop p, before font glyphCount) :=
  drain_before font hp (Nat.lt_of_lt_of_le (Nat.lt_succ_self glyphCount) (Nat.le_add_left _ p))

theorem compare_before (font : Font) {p q : Nat} (hp : p ≤ glyphCount) (hq : q ≤ glyphCount) :
    compare (before font p) (before font q) = compare p q := by
  have hp' : (BitVec.ofNat 16 p).toNat = p := toNat_ofNat_of_lt (Nat.lt_of_le_of_lt hp (by decide))
  have hq' : (BitVec.ofNat 16 q).toNat = q := toNat_ofNat_of_lt (Nat.lt_of_le_of_lt hq (by decide))
  show (compare font font).then (compareOfLessAndEq _ _) = compareOfLessAndEq p q
  rw [font.compare_self, Ordering.eq_then]
  simp only [compareOfLessAndEq, BitVec.lt_def, ← BitVec.toNat_inj, before, hp', hq']

end GlyphCursor

namespace PixelCursor

def before (row : Row) (column : Nat) : PixelCursor :=
  ⟨row, BitVec.ofNat 8 column⟩

theorem next_before (row : Row) {column : Nat} (hcolumn : column ≤ glyphWidth) :
    (before row column).next =
      .ok (row.pixel? column, before row (min (column + 1) glyphWidth)) := by
  have hle : column ≤ 8 := hcolumn
  have hindex : (before row column).index.toNat = column := toNat_ofNat_of_lt (by omega)
  have hincrement : increment (before row column).index = .ok (BitVec.ofNat 8 (column + 1)) :=
    increment_ofNat (by omega)
  rw [next, pixel?_eq, hindex]
  rcases Nat.lt_or_eq_of_le hcolumn with hlt | rfl
  · have hpixel : row.pixel? column = some _ := if_pos hlt
    rw [show (before row column).row = row from rfl, hpixel, Nat.min_eq_left hlt]
    simp only [ok_bind, hincrement]
    rfl
  · rfl

end PixelCursor

end Machine

end GlyphStrip
