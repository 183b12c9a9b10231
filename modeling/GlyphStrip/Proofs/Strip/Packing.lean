import GlyphStrip.Proofs.Font.Views
import GlyphStrip.Proofs.Raster.Grid
import GlyphStrip.Proofs.Strip.Reading

/-!
# What a packed font shows

A source packs into a font exactly if it draws that font: it has the size of the strip, every pixel
is readable, and a pixel of the font is set if and only if the luminance at its place is foreground
(`Source.pack_result_eq_ok_iff`). All that packing promises follows from this.
-/

namespace GlyphStrip

namespace Source

/-- A source has the size of the strip. -/
def IsStrip (source : Source) : Prop :=
  source.width.toNat = stripWidth ∧ source.height.toNat = stripHeight

/-- A source draws a font: its foreground is the pixels that the font has set. -/
structure Draws (source : Source) (font : Font) : Prop where
  isStrip : source.IsStrip
  pixel : ∀ (c : UInt8) (row column : Nat), row < glyphHeight → column < glyphWidth →
    ∃ value, source.sample (.ofPixel c.toNat row column) = .ok value ∧
      font.pixel? c row column = some (isForeground value)

/-! ## The course of packing -/

theorem pack_of_not_isStrip {source : Source} (h : ¬ source.IsStrip) :
    source.pack = ⟨[], .error (.shape ⟨source.width, source.height⟩)⟩ :=
  if_neg h

theorem pack_of_fault {source : Source} (h : source.IsStrip) {error : SampleError}
    (hfault : (source.read stripScan).fault = some error) :
    source.pack = ⟨(source.read stripScan).glyphs, .error (.sample error)⟩ := by
  obtain ⟨hwidth, hheight⟩ := h
  rw [pack, if_pos ⟨hwidth, hheight⟩]
  dsimp only
  split
  · rename_i other hother
    rw [hfault] at hother
    obtain rfl := Option.some.inj hother
    rfl
  · rename_i hnone
    rw [hfault] at hnone
    cases hnone

/-- The packed rows hold the pixels read, as far as they fill rows. -/
theorem flatMap_pixels_rows (reading : Reading) :
    reading.rows.flatMap Row.pixels = (reading.values.map isForeground).take
      (glyphWidth * (reading.values.length / glyphWidth)) := by
  have hpiece : ∀ piece ∈ GlyphStrip.pieces (glyphWidth - 1) (reading.values.map isForeground),
      (Row.ofPixels piece).pixels = piece :=
    fun piece hmem => Row.pixels_ofPixels (length_of_mem_pieces hmem)
  rw [Reading.rows, List.flatMap_map, List.flatMap_def, List.map_congr_left hpiece, List.map_id',
    flatten_pieces, List.length_map]
  rfl

theorem exists_pack_of_no_fault {source : Source} (h : source.IsStrip)
    (hfault : (source.read stripScan).fault = none) :
    ∃ font, source.pack = ⟨(source.read stripScan).glyphs, .ok font⟩ ∧
      font.bytes = (source.read stripScan).rows.map Row.bits := by
  obtain ⟨hwidth, hheight⟩ := h
  rw [pack, if_pos ⟨hwidth, hheight⟩]
  dsimp only
  split
  · rename_i error herror
    rw [hfault] at herror
    cases herror
  · exact ⟨_, rfl, rfl⟩

theorem pack_of_no_fault {source : Source} (h : source.IsStrip)
    (hfault : (source.read stripScan).fault = none) :
    ∃ font, source.pack = ⟨(source.read stripScan).glyphs, .ok font⟩ ∧
      font.pixels = (source.read stripScan).values.map isForeground := by
  have hlength := source.length_values_read stripScan hfault
  rw [length_stripScan] at hlength
  obtain ⟨font, hpack, hbytes⟩ := exists_pack_of_no_fault h hfault
  refine ⟨font, hpack, ?_⟩
  rw [Font.pixels, hbytes, List.flatMap_map]
  show (source.read stripScan).rows.flatMap Row.pixels = _
  have hfull :
      ((source.read stripScan).values.map isForeground).length = glyphWidth * fontSize := by
    rw [List.length_map, hlength, Nat.mul_comm]
  rw [flatMap_pixels_rows, hlength, Nat.mul_div_cancel _ (by decide),
    List.take_of_length_le (Nat.le_of_eq hfull)]

/-- Only the size of a source and the pixels of the strip matter. -/
theorem pack_congr {source other : Source} (hwidth : source.width = other.width)
    (hheight : source.height = other.height)
    (h : ∀ p ∈ stripScan, source.sample p = other.sample p) : source.pack = other.pack := by
  have hread := read_congr h
  by_cases hstrip : source.IsStrip
  · have hstrip' : other.IsStrip := by
      rw [IsStrip, ← hwidth, ← hheight]
      exact hstrip
    cases hfault : (source.read stripScan).fault with
    | some error =>
      rw [pack_of_fault hstrip hfault, pack_of_fault hstrip' (hread ▸ hfault), hread]
    | none =>
      obtain ⟨font, hpack, hpixels⟩ := pack_of_no_fault hstrip hfault
      obtain ⟨font', hpack', hpixels'⟩ := pack_of_no_fault hstrip' (hread ▸ hfault)
      obtain rfl : font = font' := Font.pixels_injective (by rw [hpixels, hpixels', hread])
      rw [hpack, hpack', hread]
  · have hstrip' : ¬ other.IsStrip := by
      rw [IsStrip, ← hwidth, ← hheight]
      exact hstrip
    rw [pack_of_not_isStrip hstrip, pack_of_not_isStrip hstrip', hwidth, hheight]

/-! ## The law of packing -/

theorem draws_of_pack {source : Source} {font : Font} (h : source.pack.result = .ok font) :
    source.Draws font := by
  have hstrip : source.IsStrip := by
    by_contra hne
    rw [pack_of_not_isStrip hne] at h
    cases h
  have hfault : (source.read stripScan).fault = none := by
    by_contra hsome
    obtain ⟨error, herror⟩ := Option.ne_none_iff_exists'.1 hsome
    rw [pack_of_fault hstrip herror] at h
    cases h
  obtain ⟨packed, hpack, hpixels⟩ := pack_of_no_fault hstrip hfault
  rw [hpack] at h
  obtain rfl : packed = font := Except.ok.inj h
  refine ⟨hstrip, fun c row column hrow hcolumn => ?_⟩
  have hpoint := getElem?_stripScan c.toNat_lt hrow hcolumn
  generalize hn : glyphWidth * (glyphHeight * c.toNat + row) + column = n at hpoint
  have hsample := congrArg (fun samples => samples[n]?) (source.map_sample_of_fault hfault)
  simp only [List.getElem?_map, hpoint, Option.map_some] at hsample
  obtain ⟨value, hvalue, hread⟩ := Option.map_eq_some_iff.1 hsample.symm
  refine ⟨value, hread.symm, ?_⟩
  rw [← Font.getElem?_pixels packed c hrow hcolumn, hn, hpixels, List.getElem?_map, hvalue,
    Option.map_some]

theorem Draws.unique {source : Source} {font other : Font} (h : source.Draws font)
    (hother : source.Draws other) : font = other := by
  apply Font.ext_pixel?
  intro c row column hrow hcolumn
  obtain ⟨value, hvalue, hpixel⟩ := h.pixel c row column hrow hcolumn
  obtain ⟨value', hvalue', hpixel'⟩ := hother.pixel c row column hrow hcolumn
  obtain rfl : value = value' := Except.ok.inj (hvalue.symm.trans hvalue')
  rw [hpixel, hpixel']

/-- A strip whose pixels can all be read is packed. -/
theorem exists_pack {source : Source} (h : source.IsStrip)
    (hread : ∀ p ∈ stripScan, ∃ value, source.sample p = .ok value) :
    ∃ font, source.pack.result = .ok font := by
  obtain ⟨values, hvalues⟩ := source.exists_values hread
  have hfault : (source.read stripScan).fault = none := by rw [source.read_of_map hvalues]
  obtain ⟨font, hpack, _⟩ := pack_of_no_fault h hfault
  exact ⟨font, by rw [hpack]⟩

/-- Packing gives the one font that the source draws. -/
theorem pack_result_eq_ok_iff {source : Source} {font : Font} :
    source.pack.result = .ok font ↔ source.Draws font := by
  refine ⟨draws_of_pack, fun h => ?_⟩
  have hread : ∀ p ∈ stripScan, ∃ value, source.sample p = .ok value := by
    intro p hp
    obtain ⟨c, row, column, hc, hrow, hcolumn, rfl⟩ := mem_stripScan.1 hp
    obtain ⟨value, hvalue, _⟩ := h.pixel (UInt8.ofNat c) row column hrow hcolumn
    rw [UInt8.toNat_ofNat_of_lt' hc] at hvalue
    exact ⟨value, hvalue⟩
  obtain ⟨packed, hpack⟩ := exists_pack h.isStrip hread
  rw [hpack, (draws_of_pack hpack).unique h]

/-! ## Readable strips -/

/-- Every pixel of the strip can be read. -/
def IsReadable (source : Source) : Prop :=
  ∀ x y : UInt32, x.toNat < stripWidth → y.toNat < stripHeight →
    ∃ value, source.luminance x y = .ok value

theorem isReadable_iff {source : Source} :
    source.IsReadable ↔ ∀ p ∈ stripScan, ∃ value, source.sample p = .ok value := by
  simp only [mem_stripScan_iff]
  exact ⟨fun h p hp => h p.x p.y hp.1 hp.2, fun h x y hx hy => h ⟨x, y⟩ ⟨hx, hy⟩⟩

theorem exists_pack_iff {source : Source} :
    (∃ font, source.pack.result = .ok font) ↔ source.IsStrip ∧ source.IsReadable := by
  constructor
  · rintro ⟨font, hfont⟩
    have hdraws := draws_of_pack hfont
    refine ⟨hdraws.isStrip, isReadable_iff.2 fun p hp => ?_⟩
    obtain ⟨c, row, column, hc, hrow, hcolumn, rfl⟩ := mem_stripScan.1 hp
    obtain ⟨value, hvalue, _⟩ := hdraws.pixel (UInt8.ofNat c) row column hrow hcolumn
    rw [UInt8.toNat_ofNat_of_lt' hc] at hvalue
    exact ⟨value, hvalue⟩
  · rintro ⟨hstrip, hread⟩
    exact exists_pack hstrip (isReadable_iff.1 hread)

theorem isStrip_iff {source : Source} :
    source.IsStrip ↔ source.width = 2048 ∧ source.height = 7 := by
  simp only [IsStrip, ← UInt32.toNat_inj]
  exact Iff.rfl

/-- The pixels inside a grey picture can all be read, so one of the right size packs. -/
theorem exists_pack_ofGray {image : GrayImage} (hwidth : image.width = 2048)
    (hheight : image.height = 7) : ∃ font, (ofGray image).pack.result = .ok font := by
  refine exists_pack_iff.2 ⟨isStrip_iff.2 ⟨hwidth, hheight⟩, fun x y hx hy => ?_⟩
  have hx' : x < image.width := hwidth ▸ hx
  have hy' : y < image.height := hheight ▸ hy
  obtain ⟨value, hvalue⟩ := image.exists_get? hx' hy'
  exact ⟨value, luminance_ofGray_eq_ok_iff.2 hvalue⟩

/-- **Packing keeps exactly the foreground.** A source is packed if and only if it is 2048
pixels wide and 7 high and all of it can be read; then every view of the font shows a pixel
exactly where the luminance is not 255. A source of another size is refused with its size,
whatever can be read. -/
theorem pack_shows_foreground (source : Source) :
    ((∃ font, source.pack.result = .ok font) ↔ source.width = 2048 ∧ source.height = 7 ∧
      ∀ x y : UInt32, x < 2048 → y < 7 → ∃ value, source.luminance x y = .ok value) ∧
    (∀ font, source.pack.result = .ok font → font.bytes.length = 1792 ∧
      ∀ (c : UInt8) (row column : Nat), row < 7 → column < 8 →
        ∃ value, source.luminance (.ofNat (8 * c.toNat + column)) (.ofNat row) = .ok value ∧
          font.Shows c row column (value != 255)) ∧
    (¬(source.width = 2048 ∧ source.height = 7) →
      source.pack.result = .error (.shape ⟨source.width, source.height⟩)) := by
  refine ⟨?_, ?_, ?_⟩
  · rw [exists_pack_iff, isStrip_iff, and_assoc]
    exact Iff.rfl
  · intro font hfont
    refine ⟨font.length_bytes, fun c row column hrow hcolumn => ?_⟩
    obtain ⟨value, hvalue, hpixel⟩ := (draws_of_pack hfont).pixel c row column hrow hcolumn
    exact ⟨value, hvalue, Font.shows_of_pixel? hpixel⟩
  · intro hshape
    rw [pack_of_not_isStrip (mt isStrip_iff.1 hshape)]

/-- A white strip with one grey pixel, at the left of the last row of glyph 200. -/
def greyPoint : Source :=
  ⟨2048, 7, fun x y => .ok (if x = 1600 ∧ y = 6 then 254 else 255)⟩

/-- The grey pixel is drawn, its neighbours are not. -/
theorem pack_greyPoint : ∃ font, greyPoint.pack.result = .ok font ∧
    font.Shows 200 6 0 true ∧ font.Shows 200 6 1 false ∧ font.Shows 200 5 0 false := by
  obtain ⟨hiff, hshows, _⟩ := pack_shows_foreground greyPoint
  obtain ⟨font, hfont⟩ := hiff.2 ⟨rfl, rfl, fun x y _ _ => ⟨_, rfl⟩⟩
  have hview (row column : Nat) (hrow : row < 7) (hcolumn : column < 8) :
      font.Shows 200 row column
        ((if UInt32.ofNat (1600 + column) = 1600 ∧ UInt32.ofNat row = 6 then (254 : UInt8)
          else 255) != 255) := by
    obtain ⟨value, hvalue, hshow⟩ := (hshows font hfont).2 200 row column hrow hcolumn
    obtain rfl := Except.ok.inj hvalue
    exact hshow
  exact ⟨font, hfont, hview 6 0 (by decide) (by decide), hview 6 1 (by decide) (by decide),
    hview 5 0 (by decide) (by decide)⟩

end Source

end GlyphStrip
