import GlyphStrip.Proofs.Strip.Faults

/-!
# Strips with too few samples

Samples are stored row by row but read glyph by glyph, so what a missing sample does depends on the
row in which the samples end (`raw_firstFlaw`). In the last row reading goes on up to the end; in
another one it fails in the first cell, unless the row ends there, at the left of the row below.
-/

namespace GlyphStrip

namespace Source

variable {samples : Array UInt8} {x y : Nat}

/-! ## Raw strips -/

theorem luminance_raw (samples : Array UInt8) (hx : x < 2048) (hy : y < 7) :
    (raw 2048 7 samples).luminance (.ofNat x) (.ofNat y) =
      match samples[2048 * y + x]? with
      | some sample => .ok sample
      | none => .error ⟨.ofNat x, .ofNat y⟩ := by
  have hx' : (UInt32.ofNat x).toNat = x :=
    UInt32.toNat_ofNat_of_lt' (by simp only [UInt32.size]; omega)
  have hy' : (UInt32.ofNat y).toNat = y :=
    UInt32.toNat_ofNat_of_lt' (by simp only [UInt32.size]; omega)
  have hinside : UInt32.ofNat x < 2048 ∧ UInt32.ofNat y < 7 := by
    rw [UInt32.lt_iff_toNat_lt, UInt32.lt_iff_toNat_lt, hx', hy']
    exact ⟨hx, hy⟩
  have hplace : y * UInt32.toNat 2048 + x = 2048 * y + x := by
    simp only [UInt32.reduceToNat]
    omega
  cases hsample : samples[2048 * y + x]? <;>
    simp only [raw, if_pos hinside, hx', hy', hplace, hsample]

theorem luminance_raw_of_lt (hx : x < 2048) (hy : y < 7) (hlt : 2048 * y + x < samples.size) :
    ∃ value, (raw 2048 7 samples).luminance (.ofNat x) (.ofNat y) = .ok value := by
  rw [luminance_raw samples hx hy, Array.getElem?_eq_getElem hlt]
  exact ⟨_, rfl⟩

theorem luminance_raw_of_ge (hx : x < 2048) (hy : y < 7) (hge : samples.size ≤ 2048 * y + x) :
    (raw 2048 7 samples).luminance (.ofNat x) (.ofNat y) = .error ⟨.ofNat x, .ofNat y⟩ := by
  rw [luminance_raw samples hx hy, Array.getElem?_eq_none hge]

theorem isReadable_raw (h : 14336 ≤ samples.size) : (raw 2048 7 samples).IsReadable := by
  rw [isReadable_iff]
  intro p hp
  obtain ⟨c, row, column, hc, hrow, hcolumn, rfl⟩ := mem_stripScan.1 hp
  simp only [glyphCount, glyphHeight, glyphWidth] at hc hrow hcolumn
  have hx : 8 * c + column < 2048 := by omega
  exact luminance_raw_of_lt (x := 8 * c + column) hx hrow (by omega)

/-- Reading glyph by glyph ends at the first cell that the samples do not fill. -/
theorem raw_firstFlaw (h : samples.size < 14336) :
    (raw 2048 7 samples).FirstFlaw
      (if samples.size / 2048 = 6 then samples.size % 2048 / 8 else 0)
      (if samples.size / 2048 < 6 ∧ 8 ≤ samples.size % 2048 then samples.size / 2048 + 1
        else samples.size / 2048)
      (if samples.size / 2048 < 6 ∧ 8 ≤ samples.size % 2048 then 0 else samples.size % 2048 % 8)
      (if samples.size / 2048 < 6 ∧ 8 ≤ samples.size % 2048
        then ⟨0, .ofNat (samples.size / 2048 + 1)⟩
        else ⟨.ofNat (samples.size % 2048), .ofNat (samples.size / 2048)⟩) := by
  by_cases hlow : samples.size / 2048 < 6 ∧ 8 ≤ samples.size % 2048
  · simp only [if_pos hlow, if_neg (Nat.ne_of_lt hlow.1)]
    refine ⟨by omega, luminance_raw_of_ge (by omega) (by omega) (by omega), ?_⟩
    intro c row column hc hrow hcolumn hprecedes
    rw [Precedes] at hprecedes
    exact luminance_raw_of_lt (by omega) (by omega) (by omega)
  · have hx : 8 * (if samples.size / 2048 = 6 then samples.size % 2048 / 8 else 0) +
        samples.size % 2048 % 8 = samples.size % 2048 := by
      split <;> omega
    simp only [if_neg hlow]
    refine ⟨⟨?_, by omega, by omega⟩, ?_, ?_⟩
    · split <;> omega
    · rw [hx]
      exact luminance_raw_of_ge (by omega) (by omega) (by omega)
    · intro c row column hc hrow hcolumn hprecedes
      rw [Precedes] at hprecedes
      refine luminance_raw_of_lt (by omega) hrow ?_
      split at hprecedes <;> omega

/-- **What a truncated strip gives depends on its number of samples alone.** With all 14336 samples
it is packed, and no others matter. With fewer, in the first six rows, reading fails in the first
glyph: at the end of the samples if they end there, else at the left of the next row. In the last
row it fails at the end of the samples, behind the glyphs in front of it. -/
theorem pack_truncated (samples : Array UInt8) :
    (14336 ≤ samples.size →
      (∃ font, (raw 2048 7 samples).pack.result = .ok font) ∧
      ∀ others : Array UInt8, (∀ i < 14336, others[i]? = samples[i]?) →
        (raw 2048 7 others).pack = (raw 2048 7 samples).pack) ∧
    (samples.size < 14336 →
      (raw 2048 7 samples).pack.result = .error (.sample
        (if samples.size / 2048 < 6 ∧ 8 ≤ samples.size % 2048
          then ⟨0, .ofNat (samples.size / 2048 + 1)⟩
          else ⟨.ofNat (samples.size % 2048), .ofNat (samples.size / 2048)⟩)) ∧
      (raw 2048 7 samples).pack.finished.length =
        if samples.size / 2048 = 6 then samples.size % 2048 / 8 else 0) := by
  constructor
  · intro h
    refine ⟨exists_pack_iff.2 ⟨⟨rfl, rfl⟩, isReadable_raw h⟩, fun others hothers => ?_⟩
    apply pack_congr
    · rfl
    · rfl
    · intro p hp
      obtain ⟨c, row, column, hc, hrow, hcolumn, rfl⟩ := mem_stripScan.1 hp
      simp only [glyphCount, glyphHeight, glyphWidth] at hc hrow hcolumn
      have hx : 8 * c + column < 2048 := by omega
      have hother := luminance_raw others hx hrow
      rw [hothers _ (by omega), ← luminance_raw samples hx hrow] at hother
      exact hother
  · intro h
    obtain ⟨hresult, htells⟩ := pack_of_firstFlaw ⟨rfl, rfl⟩ (raw_firstFlaw h)
    refine ⟨hresult, ?_⟩
    rw [← htells.1, List.length_map]

/-- Samples that end in the middle of row 2, and in glyph 2 of the last row. -/
theorem pack_truncated_black :
    (raw 2048 7 (Array.replicate 5000 0)).pack.result = .error (.sample ⟨0, 3⟩) ∧
    (raw 2048 7 (Array.replicate 12308 0)).pack.result = .error (.sample ⟨20, 6⟩) ∧
    (raw 2048 7 (Array.replicate 12308 0)).pack.finished.length = 2 ∧
    ∃ font, (raw 2048 7 (Array.replicate 14336 0)).pack.result = .ok font := by
  have hsize (n : Nat) : (Array.replicate n (0 : UInt8)).size = n := Array.size_replicate
  have hmiddle := (pack_truncated (Array.replicate 5000 0)).2 (by rw [hsize]; decide)
  have hlast := (pack_truncated (Array.replicate 12308 0)).2 (by rw [hsize]; decide)
  have hfull := (pack_truncated (Array.replicate 14336 0)).1 (Nat.le_of_eq (hsize 14336).symm)
  rw [hsize] at hmiddle hlast
  exact ⟨hmiddle.1, hlast.1, hlast.2, hfull.1⟩

end Source

end GlyphStrip
