import GlyphStrip.Proofs.Machine.Words
import GlyphStrip.Proofs.Raster.Grid
import GlyphStrip.Proofs.Results
import GlyphStrip.Raster.Machine
import GlyphStrip.Strip.Pack

/-!
# Raw samples

The pixels inside a raster have numbers below its width times its height, no two of them the same
(`Grid.index_lt`, `Grid.index_ne`), and every number fits a word of 64 bits
(`Machine.sampleNumber_eq`). So samples behind the raster do not matter (`Source.raw_congr`), and
the cells of a grey picture, given row by row, are the same source as the picture
(`Source.raw_cells`).
-/

namespace GlyphStrip

/-! ## Numbers in words -/

namespace Machine

/-- The largest number is `(2 ^ 32 - 1) * (2 ^ 32 - 1) + (2 ^ 32 - 1)`. -/
theorem number_lt (width x y : UInt32) : y.toNat * width.toNat + x.toNat < 2 ^ 64 := by
  have hx := x.toNat_lt
  have habove : y.toNat * width.toNat ≤ (2 ^ 32 - 1) * (2 ^ 32 - 1) :=
    Nat.mul_le_mul (Nat.le_sub_one_of_lt y.toNat_lt) (Nat.le_sub_one_of_lt width.toNat_lt)
  omega

theorem sampleNumber_eq (width x y : UInt32) :
    sampleNumber width x y = .ok (BitVec.ofNat 64 (y.toNat * width.toNat + x.toNat)) := by
  have hnumber := number_lt width x y
  have hwiden (n : UInt32) : n.toBitVec.setWidth 64 = BitVec.ofNat 64 n.toNat :=
    (BitVec.ofNat_toNat 64 n.toBitVec).symm
  have hfits (n : UInt32) : n.toNat < 2 ^ 64 := Nat.lt_trans n.toNat_lt (by decide)
  have hproduct :=
    product_ofNat (hfits y) (hfits width) (Nat.lt_of_le_of_lt (Nat.le_add_right ..) hnumber)
  rw [sampleNumber, hwiden, hwiden, hwiden, hproduct, ok_bind, sum_ofNat hnumber]

theorem sampleNumber_ne {width x y x' y' : UInt32} (hx : x < width) (hx' : x' < width)
    (hne : (x, y) ≠ (x', y')) : sampleNumber width x y ≠ sampleNumber width x' y' := by
  rw [sampleNumber_eq, sampleNumber_eq]
  intro h
  have hnumber := congrArg BitVec.toNat (Except.ok.inj h)
  rw [toNat_ofNat_of_lt (number_lt ..), toNat_ofNat_of_lt (number_lt ..)] at hnumber
  exact Grid.index_ne hx hx' hne hnumber

variable {addressBits : Nat} {samples : Array UInt8} (hsize : samples.size ≤ 2 ^ addressBits)
include hsize

theorem sample?_ofNat {n : Nat} (hn : n < 2 ^ 64) :
    sample? addressBits samples (BitVec.ofNat 64 n) = samples[n]? := by
  have htoNat : (BitVec.ofNat 64 n).toNat = n := toNat_ofNat_of_lt hn
  rw [sample?, narrow?, htoNat]
  split
  · rename_i haddress
    rw [Option.bind_some, BitVec.toNat_setWidth, htoNat, Nat.mod_eq_of_lt haddress]
  · rename_i haddress
    rw [Array.getElem?_eq_none (by omega)]
    rfl

theorem luminance_eq (width height x y : UInt32) :
    luminance addressBits width height samples x y =
      .ok ((Source.raw width height samples).luminance x y) := by
  rw [luminance, Source.raw]
  dsimp only
  by_cases hinside : x < width ∧ y < height
  · have hoff : ¬(width ≤ x ∨ height ≤ y) := by simpa using hinside
    rw [if_neg hoff, if_pos hinside, sampleNumber_eq, ok_bind,
      sample?_ofNat hsize (number_lt width x y)]
    cases samples[y.toNat * width.toNat + x.toNat]? <;> rfl
  · have hoff : width ≤ x ∨ height ≤ y :=
      (Decidable.not_and_iff_not_or_not.1 hinside).imp UInt32.not_lt.1 UInt32.not_lt.1
    rw [if_pos hoff, if_neg hinside]

end Machine

/-! ## Reads -/

namespace Source

variable {width height : UInt32} {samples : Array UInt8} {x y : UInt32}

theorem luminance_raw_inside (hx : x < width) (hy : y < height)
    (hnumber : y.toNat * width.toNat + x.toNat < samples.size) :
    (raw width height samples).luminance x y = .ok samples[y.toNat * width.toNat + x.toNat] := by
  rw [raw]
  dsimp only
  rw [if_pos ⟨hx, hy⟩, Array.getElem?_eq_getElem hnumber]

theorem luminance_raw_outside
    (h : ¬(x < width ∧ y < height ∧ y.toNat * width.toNat + x.toNat < samples.size)) :
    (raw width height samples).luminance x y = .error ⟨x, y⟩ := by
  rw [raw]
  dsimp only
  split
  · rename_i hinside
    have hmissing : samples.size ≤ y.toNat * width.toNat + x.toNat :=
      Nat.le_of_not_lt fun hnumber => h ⟨hinside.1, hinside.2, hnumber⟩
    rw [Array.getElem?_eq_none hmissing]
  · rfl

/-- Samples that agree as far as the declared size goes are the same source. -/
theorem raw_congr {others : Array UInt8}
    (h : ∀ i < width.toNat * height.toNat, others[i]? = samples[i]?) :
    raw width height others = raw width height samples := by
  rw [raw, raw]
  congr 1
  funext x y
  by_cases hinside : x < width ∧ y < height
  · have hnumber := Grid.index_lt (UInt32.lt_iff_toNat_lt.1 hinside.1)
      (UInt32.lt_iff_toNat_lt.1 hinside.2)
    rw [if_pos hinside, if_pos hinside, h _ hnumber]
  · rw [if_neg hinside, if_neg hinside]

theorem raw_cells (image : GrayImage) :
    raw image.width image.height image.cells = ofGray image := by
  rw [raw, ofGray]
  congr 1
  funext x y
  rw [Grid.get?]
  split <;> rfl

/-- A sample is read for one pixel only, so another one in its place shows nowhere else. -/
theorem luminance_raw_set {x' y' : UInt32} (hx : x < width) (hx' : x' < width)
    (hne : (x, y) ≠ (x', y')) (sample : UInt8) :
    (raw width height (samples.setIfInBounds (y.toNat * width.toNat + x.toNat) sample)).luminance
      x' y' = (raw width height samples).luminance x' y' := by
  rw [raw, raw]
  dsimp only
  rw [Array.getElem?_setIfInBounds_ne (Grid.index_ne hx hx' hne)]

/-- **Raw samples are read row by row.** A pixel inside the declared size is the sample with its
number if there is one, and any other pixel is an error that names it. Words of 64 bits hold all
numbers, so no two pixels of a raster share a sample, however large it is. Samples behind those
of the declared size do not matter, and the cells of a grey picture read and pack as the picture
does. -/
theorem raw_reads_row_by_row :
    (∀ (width height : UInt32) (samples : Array UInt8) (x y : UInt32),
      (∀ hnumber : y.toNat * width.toNat + x.toNat < samples.size, x < width → y < height →
        (raw width height samples).luminance x y =
          .ok samples[y.toNat * width.toNat + x.toNat]) ∧
      (¬(x < width ∧ y < height ∧ y.toNat * width.toNat + x.toNat < samples.size) →
        (raw width height samples).luminance x y = .error ⟨x, y⟩) ∧
      (∃ number, Machine.sampleNumber width x y = .ok number ∧
        number.toNat = y.toNat * width.toNat + x.toNat) ∧
      ∀ addressBits, samples.size ≤ 2 ^ addressBits →
        Machine.luminance addressBits width height samples x y =
          .ok ((raw width height samples).luminance x y)) ∧
    (∀ (width height : UInt32) (samples : Array UInt8) (x y x' y' : UInt32),
      x < width → y < height → x' < width → y' < height → (x, y) ≠ (x', y') →
        Machine.sampleNumber width x y ≠ Machine.sampleNumber width x' y' ∧
        ∀ sample, (raw width height
          (samples.setIfInBounds (y.toNat * width.toNat + x.toNat) sample)).luminance x' y' =
            (raw width height samples).luminance x' y') ∧
    (∀ (width height : UInt32) (samples others : Array UInt8),
      (∀ i < width.toNat * height.toNat, others[i]? = samples[i]?) →
        (∀ x y, (raw width height others).luminance x y =
          (raw width height samples).luminance x y) ∧
        (raw width height others).pack = (raw width height samples).pack) ∧
    ∀ image : GrayImage,
      (∀ x y, (raw image.width image.height image.cells).luminance x y =
        (ofGray image).luminance x y) ∧
      (raw image.width image.height image.cells).pack = (ofGray image).pack := by
  refine ⟨fun width height samples x y => ⟨?_, ?_, ?_, ?_⟩, ?_, ?_, ?_⟩
  · intro hnumber hx hy
    exact luminance_raw_inside hx hy hnumber
  · exact luminance_raw_outside
  · exact ⟨_, Machine.sampleNumber_eq width x y,
      Machine.toNat_ofNat_of_lt (Machine.number_lt width x y)⟩
  · intro addressBits hsize
    exact Machine.luminance_eq hsize width height x y
  · intro width height samples x y x' y' hx _ hx' _ hne
    exact ⟨Machine.sampleNumber_ne hx hx' hne, luminance_raw_set hx hx' hne⟩
  · intro width height samples others hagree
    rw [raw_congr hagree]
    exact ⟨fun x y => rfl, rfl⟩
  · intro image
    rw [raw_cells]
    exact ⟨fun x y => rfl, rfl⟩

/-- At this width the number of the first pixel of row 65536 is `2 ^ 32`, so it is not the first
sample, and the last two pixels of the widest raster differ in their numbers. -/
theorem raw_reads_wide_rows :
    (raw 65536 65537 #[7]).luminance 0 0 = .ok 7 ∧
    (raw 65536 65537 #[7]).luminance 0 65536 = .error ⟨0, 65536⟩ ∧
    Machine.luminance 64 65536 65537 #[7] 0 65536 = .ok (.error ⟨0, 65536⟩) ∧
    Machine.sampleNumber 4294967295 4294967294 4294967294 ≠
      Machine.sampleNumber 4294967295 4294967293 4294967294 ∧
    (raw 1 1 #[7, 8]).pack = (raw 1 1 #[7]).pack := by
  obtain ⟨hread, hapart, hprefix, _⟩ := raw_reads_row_by_row
  have hfirst := (hread 65536 65537 #[7] 0 0).1 (by decide) (by decide) (by decide)
  obtain ⟨_, hmissing, _, hmachine⟩ := hread 65536 65537 #[7] 0 65536
  have herror := hmissing (by decide)
  have hwords := hmachine 64 (by decide)
  rw [herror] at hwords
  have hlast := hapart 4294967295 4294967295 #[] 4294967294 4294967294 4294967293 4294967294
    (by decide) (by decide) (by decide) (by decide) (by decide)
  have hsurplus := hprefix 1 1 #[7] #[7, 8] (by decide)
  exact ⟨hfirst, herror, hwords, hlast.1, hsurplus.2⟩

end Source

end GlyphStrip
