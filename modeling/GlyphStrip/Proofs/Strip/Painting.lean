import GlyphStrip.Proofs.Strip.Packing

/-!
# Painting and packing

A font can be painted: ink of any colour but white where its pixels are set, white elsewhere.
Packing the painted picture gives the font back, and painting a packed strip in black gives the
strip in black and white (`pack_paint_inverse`).
-/

namespace GlyphStrip

/-! ## Pictures of fonts and of sources -/

/-- Paints a font on white, each pixel that is set in an ink of its own. -/
def Font.paint (font : Font) (ink : UInt8 → Nat → Nat → UInt8) : GrayImage :=
  .build 2048 7 fun x y =>
    if font.pixel? (UInt8.ofNat (x / 8)) y (x % 8) = some true then
      ink (UInt8.ofNat (x / 8)) y (x % 8)
    else 255

/-- The strip of a source with everything black that is not plain white. -/
def Source.blackAndWhite (source : Source) : GrayImage :=
  .build 2048 7 fun x y =>
    if (source.luminance (.ofNat x) (.ofNat y)).toOption = some 255 then 255 else 0

theorem Font.get?_paint (font : Font) (ink : UInt8 → Nat → Nat → UInt8) (c : UInt8)
    {row column : Nat} (hrow : row < 7) (hcolumn : column < 8) :
    (font.paint ink).get? (.ofNat (8 * c.toNat + column)) (.ofNat row) =
      some (if font.pixel? c row column = some true then ink c row column else 255) := by
  have hc := c.toNat_lt
  have hx : (UInt32.ofNat (8 * c.toNat + column)).toNat = 8 * c.toNat + column :=
    UInt32.toNat_ofNat_of_lt' (by simp only [UInt32.size]; omega)
  have hy : (UInt32.ofNat row).toNat = row :=
    UInt32.toNat_ofNat_of_lt' (by simp only [UInt32.size]; omega)
  have hglyph : UInt8.ofNat ((8 * c.toNat + column) / 8) = c := by
    rw [show (8 * c.toNat + column) / 8 = c.toNat by omega, UInt8.ofNat_toNat]
  have hmod : (8 * c.toNat + column) % 8 = column := by omega
  rw [paint, Grid.get?_build, hx, hy, hglyph, hmod]
  · rw [UInt32.lt_iff_toNat_lt, hx]
    show _ < 2048
    omega
  · rw [UInt32.lt_iff_toNat_lt, hy]
    exact hrow

/-- A painted font draws the font. -/
theorem Font.draws_paint (font : Font) {ink : UInt8 → Nat → Nat → UInt8}
    (hink : ∀ c row column, font.pixel? c row column = some true → ink c row column ≠ 255) :
    (Source.ofGray (font.paint ink)).Draws font := by
  refine ⟨⟨rfl, rfl⟩, fun c row column hrow hcolumn => ?_⟩
  obtain ⟨drawn, hdrawn⟩ := font.exists_pixel? c hrow hcolumn
  have hget := font.get?_paint ink c hrow hcolumn
  refine ⟨_, Source.luminance_ofGray_eq_ok_iff.2 hget, ?_⟩
  rw [hdrawn]
  cases drawn with
  | false => rfl
  | true =>
    have hne : ink c row column ≠ backgroundLuminance := hink c row column hdrawn
    rw [if_pos rfl, isForeground, bne_iff_ne.2 hne]

/-- Painting what a source draws in black gives its strip in black and white. -/
theorem Source.Draws.paint_black {source : Source} {font : Font} (h : source.Draws font) :
    font.paint (fun _ _ _ => 0) = source.blackAndWhite := by
  apply Grid.build_congr
  intro x y hx hy
  have hc : x / 8 < 256 := Nat.div_lt_of_lt_mul hx
  obtain ⟨value, hvalue, hpixel⟩ :=
    h.pixel (UInt8.ofNat (x / 8)) y (x % 8) hy (Nat.mod_lt _ (by decide))
  have hluminance : source.luminance (.ofNat x) (.ofNat y) = .ok value := by
    rw [UInt8.toNat_ofNat_of_lt' hc, sample, Point.ofPixel, Nat.div_add_mod] at hvalue
    exact hvalue
  rw [hpixel, hluminance, isForeground]
  by_cases hwhite : value = 255
  · subst hwhite
    rfl
  · have hsome : (Except.ok value : Except SampleError UInt8).toOption ≠ some 255 :=
      fun h => hwhite (Option.some.inj h)
    rw [if_pos (congrArg some (bne_iff_ne.2 hwhite)), if_neg hsome]

/-- **Painting and packing are inverse.** A font painted in any inks but white packs into the font;
and a readable strip packs into a font whose picture in black is the strip in black and white, which
packs into the same font again. -/
theorem pack_paint_inverse :
    (∀ (font : Font) (ink : UInt8 → Nat → Nat → UInt8),
      (∀ c row column, font.pixel? c row column = some true → ink c row column ≠ 255) →
      (∀ (c : UInt8) (row column : Nat), row < 7 → column < 8 →
        (font.paint ink).get? (.ofNat (8 * c.toNat + column)) (.ofNat row) =
          some (if font.pixel? c row column = some true then ink c row column else 255)) ∧
      (Source.ofGray (font.paint ink)).pack.result = .ok font) ∧
    ∀ source : Source, source.IsStrip → source.IsReadable →
      ∃ font, source.pack.result = .ok font ∧
        font.paint (fun _ _ _ => 0) = source.blackAndWhite ∧
        (Source.ofGray source.blackAndWhite).pack.result = .ok font := by
  constructor
  · intro font ink hink
    exact ⟨fun c row column hrow hcolumn => font.get?_paint ink c hrow hcolumn,
      Source.pack_result_eq_ok_iff.2 (font.draws_paint hink)⟩
  · intro source hstrip hread
    obtain ⟨font, hfont⟩ := Source.exists_pack_iff.2 ⟨hstrip, hread⟩
    have hblack := (Source.draws_of_pack hfont).paint_black
    refine ⟨font, hfont, hblack, ?_⟩
    rw [← hblack]
    exact Source.pack_result_eq_ok_iff.2 (font.draws_paint fun _ _ _ _ => by decide)

/-- A font of vertical stripes. -/
def stripes : Font :=
  ⟨List.replicate 1792 0xaa, List.length_replicate⟩

/-- Stripes in black with one grey row pack into stripes; a white strip with a grey point packs into
what its picture in black and white packs into. -/
theorem pack_paint_stripes :
    (Source.ofGray (stripes.paint fun _ row _ => if row = 3 then 254 else 0)).pack.result =
      .ok stripes ∧
    ∃ font, Source.greyPoint.pack.result = .ok font ∧
      (Source.ofGray Source.greyPoint.blackAndWhite).pack.result = .ok font := by
  obtain ⟨hpaint, hstrip⟩ := pack_paint_inverse
  constructor
  · refine (hpaint stripes _ fun c row column _ => ?_).2
    split <;> decide
  · obtain ⟨font, hfont, _, hblack⟩ :=
      hstrip Source.greyPoint ⟨rfl, rfl⟩ fun x y _ _ => ⟨_, rfl⟩
    exact ⟨font, hfont, hblack⟩

end GlyphStrip
