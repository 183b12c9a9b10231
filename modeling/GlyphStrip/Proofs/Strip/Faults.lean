import GlyphStrip.Log.Event
import GlyphStrip.Proofs.Strip.Packing

/-!
# Strips that cannot be read to the end

A strip is read glyph by glyph, so of several unreadable pixels the one that comes first in that
order is reported (`pack_of_firstFlaw`), which need not be the first in its row. The glyphs in front
of it are finished, each as its cell prescribes (`Source.tells_finished`).
-/

namespace GlyphStrip

/-! ## Pieces of a reading -/

theorem getElem?_pieces {α : Type} (n : Nat) (items : List α) {i : Nat}
    (hi : i < items.length / (n + 1)) :
    (pieces n items)[i]? = some ((items.drop ((n + 1) * i)).take (n + 1)) := by
  fun_induction pieces n items generalizing i with
  | case1 items hlt ih =>
    cases i with
    | zero => simp
    | succ i =>
      have hcount : items.length / (n + 1) = (items.length - (n + 1)) / (n + 1) + 1 :=
        Nat.div_eq_sub_div (Nat.succ_pos n) hlt
      have hi' : i < (items.drop (n + 1)).length / (n + 1) := by
        rw [List.length_drop]
        omega
      rw [List.getElem?_cons_succ, ih hi', List.drop_drop, Nat.mul_succ, Nat.add_comm (n + 1)]
  | case2 items hge =>
    rw [Nat.div_eq_of_lt (by omega)] at hi
    omega

namespace Reading

variable (reading : Reading)

theorem length_glyphs :
    reading.glyphs.length = reading.values.length / (glyphHeight * glyphWidth) := by
  simp only [glyphs, List.length_map, List.length_zipIdx, List.length_attach, length_pieces,
    length_rows, Nat.div_div_eq_div_mul]
  rfl

/-- A finished row shows the pixels read for it. -/
theorem exists_row {j : Nat} (hj : j < reading.values.length / glyphWidth) :
    ∃ r, reading.rows[j]? = some r ∧ ∀ column < glyphWidth,
      r.pixel? column = (reading.values[glyphWidth * j + column]?).map isForeground := by
  have hlt : j < reading.rows.length := by rwa [reading.length_rows]
  refine ⟨reading.rows[j], List.getElem?_eq_getElem hlt, fun column hcolumn => ?_⟩
  have hfull : glyphWidth * j + column < glyphWidth * (reading.values.length / glyphWidth) := by
    have hstep := Nat.mul_le_mul_left glyphWidth hj
    rw [Nat.mul_succ] at hstep
    omega
  have hpixels := congrArg (fun pixels => pixels[glyphWidth * j + column]?)
    (Source.flatMap_pixels_rows reading)
  simp only [getElem?_flatMap_of_length Row.length_pixels _ _ hcolumn,
    List.getElem?_eq_getElem hlt, Option.bind_some, Row.getElem?_pixels, List.getElem?_take,
    if_pos hfull, List.getElem?_map] at hpixels
  exact hpixels

theorem getElem?_glyphs {c : Nat} (hc : c < reading.glyphs.length) :
    ∃ glyph, reading.glyphs[c]? = some glyph ∧ glyph.index = UInt8.ofNat c ∧
      glyph.rows = (reading.rows.drop (glyphHeight * c)).take glyphHeight := by
  have hpieces : c < reading.rows.length / (glyphHeight - 1 + 1) := by
    rw [length_glyphs] at hc
    rw [length_rows, Nat.div_div_eq_div_mul]
    exact hc
  have hget := getElem?_pieces (glyphHeight - 1) reading.rows hpieces
  refine ⟨reading.glyphs[c], List.getElem?_eq_getElem hc, ?_, ?_⟩
  · simp [glyphs]
  · have hlt : c < (pieces (glyphHeight - 1) reading.rows).length := by rwa [length_pieces]
    rw [List.getElem?_eq_getElem hlt, Option.some.injEq] at hget
    simpa [glyphs] using hget

end Reading

namespace Source

variable {source : Source}

/-! ## What cells prescribe -/

/-- A glyph is the one of cell `c`: bit `7 - column` of the byte of a row is set exactly if the
luminance of its pixel is not 255. -/
structure Prescribes (source : Source) (c : Nat) (glyph : Glyph) : Prop where
  index : glyph.index.toNat = c
  bit : ∀ row column : Nat, row < 7 → column < 8 → ∃ value byte,
    source.luminance (.ofNat (8 * c + column)) (.ofNat row) = .ok value ∧
      glyph.bytes[row]? = some byte ∧ byte.toNat.testBit (7 - column) = (value != 255)

/-- Events tell of the first `n` glyphs, one after the other, each as its cell prescribes. -/
def Tells (source : Source) (n : Nat) (events : List Event) : Prop :=
  events.length = n ∧ ∀ c < n, ∃ glyph, events[c]? = some (.packedGlyph glyph) ∧
    source.Prescribes c glyph

theorem Prescribes.unique {c : Nat} {glyph other : Glyph} (h : source.Prescribes c glyph)
    (hother : source.Prescribes c other) : glyph = other := by
  have hindex : glyph.index = other.index :=
    UInt8.toNat_inj.1 (h.index.trans hother.index.symm)
  have hrows : glyph.rows = other.rows := by
    apply List.ext_getElem?
    intro row
    by_cases hrow : row < 7
    · obtain ⟨r, hr⟩ := glyph.exists_row? hrow
      obtain ⟨r', hr'⟩ := other.exists_row? hrow
      have hpixel (column : Nat) (hcolumn : column < glyphWidth) :
          r.pixel? column = r'.pixel? column := by
        obtain ⟨value, byte, hvalue, hbyte, hbit⟩ := h.bit row column hrow hcolumn
        obtain ⟨value', byte', hvalue', hbyte', hbit'⟩ := hother.bit row column hrow hcolumn
        obtain rfl := Except.ok.inj (hvalue.symm.trans hvalue')
        rw [Glyph.row?] at hr hr'
        rw [Glyph.bytes, List.getElem?_map, hr] at hbyte
        rw [Glyph.bytes, List.getElem?_map, hr'] at hbyte'
        obtain rfl := Option.some.inj hbyte
        obtain rfl := Option.some.inj hbyte'
        simp only [Row.pixel?, if_pos hcolumn, glyphWidth, hbit, hbit']
      rw [Glyph.row?] at hr hr'
      rw [hr, hr', Row.ext_pixel? hpixel]
    · have hnone := glyph.row?_eq_none hrow
      have hnone' := other.row?_eq_none hrow
      rw [Glyph.row?] at hnone hnone'
      rw [hnone, hnone']
  cases glyph
  cases other
  simp_all

/-- What has been read is what stands in front of the first fault. -/
theorem map_sample_take (source : Source) (points : List Point) :
    (points.take (source.read points).values.length).map source.sample =
      (source.read points).values.map .ok := by
  induction points with
  | nil => rfl
  | cons p rest ih =>
    cases hp : source.luminance p.x p.y with
    | error error => simp [read, hp]
    | ok value =>
      simp only [read, hp, List.length_cons, List.take_succ_cons, List.map_cons, ih]
      exact congrArg (· :: _) hp

/-- The place of a pixel in the scan. -/
theorem getElem?_values {c row column : Nat} (hc : c < glyphCount) (hrow : row < glyphHeight)
    (hcolumn : column < glyphWidth)
    (hread : glyphWidth * (glyphHeight * c + row) + column <
      (source.read stripScan).values.length) :
    ∃ value, source.sample (.ofPixel c row column) = .ok value ∧
      (source.read stripScan).values[glyphWidth * (glyphHeight * c + row) + column]? =
        some value := by
  have hpoint := getElem?_stripScan hc hrow hcolumn
  generalize glyphWidth * (glyphHeight * c + row) + column = n at hpoint hread
  have hsample := congrArg (fun samples => samples[n]?) (source.map_sample_take stripScan)
  simp only [List.getElem?_map, List.getElem?_take, if_pos hread, hpoint, Option.map_some]
    at hsample
  obtain ⟨value, hvalue, hok⟩ := Option.map_eq_some_iff.1 hsample.symm
  exact ⟨value, hok.symm, hvalue⟩

theorem exists_finished {c : Nat} (hc : c < (source.read stripScan).glyphs.length)
    (hcount : c < glyphCount) : ∃ glyph,
      (source.read stripScan).glyphs[c]? = some glyph ∧ source.Prescribes c glyph := by
  obtain ⟨glyph, hget, hindex, hrows⟩ := (source.read stripScan).getElem?_glyphs hc
  rw [Reading.length_glyphs] at hc
  simp only [glyphCount, glyphHeight, glyphWidth] at hc hcount
  refine ⟨glyph, hget, ?_, fun row column hrow hcolumn => ?_⟩
  · rw [hindex, UInt8.toNat_ofNat_of_lt' hcount]
  · obtain ⟨value, hvalue, hread⟩ := source.getElem?_values hcount hrow hcolumn
      (by simp only [glyphHeight, glyphWidth]; omega)
    obtain ⟨r, hr, hpixel⟩ := (source.read stripScan).exists_row (j := glyphHeight * c + row)
      (by simp only [glyphHeight, glyphWidth]; omega)
    refine ⟨value, r.bits, hvalue, ?_, ?_⟩
    · have hinside : row < glyphHeight := hrow
      rw [Glyph.bytes, List.getElem?_map, hrows, List.getElem?_take, if_pos hinside,
        List.getElem?_drop, hr]
      rfl
    · have hbit := hpixel column hcolumn
      rw [hread, Row.pixel?, if_pos hcolumn] at hbit
      exact Option.some.inj hbit

theorem tells_finished (hcount : (source.read stripScan).glyphs.length ≤ glyphCount) :
    source.Tells (source.read stripScan).glyphs.length
      ((source.read stripScan).glyphs.map .packedGlyph) := by
  refine ⟨List.length_map .., fun c hc => ?_⟩
  obtain ⟨glyph, hget, hglyph⟩ := exists_finished hc (Nat.lt_of_lt_of_le hc hcount)
  exact ⟨glyph, by rw [List.getElem?_map, hget, Option.map_some], hglyph⟩

/-! ## The first flaw -/

/-- Whether one pixel is read before another: glyph by glyph, row by row, left to right. -/
def Precedes (c row column c' row' column' : Nat) : Prop :=
  c < c' ∨ c = c' ∧ (row < row' ∨ row = row' ∧ column < column')

/-- A pixel cannot be read, and no pixel before it fails as well. -/
structure FirstFlaw (source : Source) (c row column : Nat) (error : SampleError) : Prop where
  inside : c < 256 ∧ row < 7 ∧ column < 8
  fails : source.luminance (.ofNat (8 * c + column)) (.ofNat row) = .error error
  first : ∀ c' row' column', c' < 256 → row' < 7 → column' < 8 →
    Precedes c' row' column' c row column →
      ∃ value, source.luminance (.ofNat (8 * c' + column')) (.ofNat row') = .ok value

theorem precedes_iff {c row column c' row' column' : Nat} (hrow : row < 7) (hcolumn : column < 8)
    (hrow' : row' < 7) (hcolumn' : column' < 8) : Precedes c row column c' row' column' ↔
      glyphWidth * (glyphHeight * c + row) + column <
        glyphWidth * (glyphHeight * c' + row') + column' := by
  simp only [Precedes, glyphWidth, glyphHeight]
  omega

theorem FirstFlaw.unique {c row column c' row' column' : Nat} {error error' : SampleError}
    (h : source.FirstFlaw c row column error) (h' : source.FirstFlaw c' row' column' error') :
    c = c' ∧ row = row' ∧ column = column' ∧ error = error' := by
  obtain ⟨hc, hrow, hcolumn⟩ := h.inside
  obtain ⟨hc', hrow', hcolumn'⟩ := h'.inside
  have hfails := h.fails
  have hfails' := h'.fails
  have hbefore : ¬ Precedes c row column c' row' column' := by
    intro hprecedes
    obtain ⟨value, hvalue⟩ := h'.first c row column hc hrow hcolumn hprecedes
    rw [hvalue] at hfails
    cases hfails
  have hbehind : ¬ Precedes c' row' column' c row column := by
    intro hprecedes
    obtain ⟨value, hvalue⟩ := h.first c' row' column' hc' hrow' hcolumn' hprecedes
    rw [hvalue] at hfails'
    cases hfails'
  rw [precedes_iff hrow hcolumn hrow' hcolumn'] at hbefore
  rw [precedes_iff hrow' hcolumn' hrow hcolumn] at hbehind
  simp only [glyphWidth, glyphHeight] at hbefore hbehind
  obtain rfl : c = c' := by omega
  obtain rfl : row = row' := by omega
  obtain rfl : column = column' := by omega
  exact ⟨rfl, rfl, rfl, Except.error.inj (hfails.symm.trans hfails')⟩

/-- The fault of a reading is that of the place right behind what was read. -/
theorem sample_of_fault {points : List Point} {error : SampleError}
    (h : (source.read points).fault = some error) :
    ∃ p, points[(source.read points).values.length]? = some p ∧ source.sample p = .error error := by
  induction points with
  | nil => cases h
  | cons p rest ih =>
    cases hp : source.luminance p.x p.y with
    | error other =>
      simp only [read, hp, Option.some.injEq] at h ⊢
      exact ⟨p, rfl, h ▸ hp⟩
    | ok value =>
      simp only [read, hp] at h ⊢
      exact ih h

/-- An unreadable strip has a first flaw, and the reading ends there. -/
theorem exists_firstFlaw (h : ¬ source.IsReadable) :
    ∃ c row column error, source.FirstFlaw c row column error ∧
      (source.read stripScan).fault = some error ∧
      (source.read stripScan).values.length = glyphWidth * (glyphHeight * c + row) + column := by
  have hfault : (source.read stripScan).fault ≠ none := by
    intro hnone
    apply h
    rw [isReadable_iff]
    intro p hp
    have hmem := List.mem_map_of_mem (f := source.sample) hp
    rw [source.map_sample_of_fault hnone] at hmem
    obtain ⟨value, _, hvalue⟩ := List.mem_map.1 hmem
    exact ⟨value, hvalue.symm⟩
  obtain ⟨error, herror⟩ := Option.ne_none_iff_exists'.1 hfault
  obtain ⟨p, hp, hfails⟩ := sample_of_fault herror
  have hlength : (source.read stripScan).values.length < fontSize * glyphWidth := by
    rw [← length_stripScan]
    exact (List.getElem?_eq_some_iff.1 hp).1
  obtain ⟨c, row, column, hrow, hcolumn, hplace⟩ := Font.exists_place hlength
  rw [hplace, getElem?_stripScan c.toNat_lt hrow hcolumn, Option.some.injEq] at hp
  subst hp
  refine ⟨c.toNat, row, column, error, ⟨⟨c.toNat_lt, hrow, hcolumn⟩, hfails, ?_⟩, herror, hplace⟩
  intro c' row' column' hc' hrow' hcolumn' hprecedes
  rw [precedes_iff hrow' hcolumn' hrow hcolumn, ← hplace] at hprecedes
  obtain ⟨value, hvalue, _⟩ := source.getElem?_values hc' hrow' hcolumn' hprecedes
  exact ⟨value, hvalue⟩

theorem FirstFlaw.not_isReadable {c row column : Nat} {error : SampleError}
    (h : source.FirstFlaw c row column error) : ¬ source.IsReadable := by
  intro hread
  obtain ⟨hc, hrow, hcolumn⟩ := h.inside
  obtain ⟨value, hvalue⟩ := isReadable_iff.1 hread (.ofPixel c row column)
    (mem_stripScan.2 ⟨c, row, column, hc, hrow, hcolumn, rfl⟩)
  cases hvalue.symm.trans h.fails

/-- The error of the first flaw is reported, and the glyphs in front of its cell are finished. -/
theorem pack_of_firstFlaw (hstrip : source.IsStrip) {c row column : Nat} {error : SampleError}
    (h : source.FirstFlaw c row column error) :
    source.pack.result = .error (.sample error) ∧
      source.Tells c (source.pack.finished.map .packedGlyph) := by
  obtain ⟨c', row', column', error', h', hfault, hlength⟩ := exists_firstFlaw h.not_isReadable
  obtain ⟨rfl, rfl, rfl, rfl⟩ := h.unique h'
  obtain ⟨hc, hrow, hcolumn⟩ := h.inside
  have hcount : (source.read stripScan).glyphs.length = c := by
    rw [Reading.length_glyphs, hlength]
    simp only [glyphWidth, glyphHeight]
    omega
  have htells := source.tells_finished (by rw [hcount]; exact Nat.le_of_lt hc)
  rw [hcount] at htells
  rw [pack_of_fault hstrip hfault]
  exact ⟨rfl, htells⟩

/-! ## Strips without a flaw -/

theorem Draws.prescribes {font : Font} (h : source.Draws font) (c : UInt8) :
    source.Prescribes c.toNat (font.glyph c) := by
  refine ⟨rfl, fun row column hrow hcolumn => ?_⟩
  obtain ⟨value, hvalue, hpixel⟩ := h.pixel c row column hrow hcolumn
  obtain ⟨r, hr⟩ := (font.glyph c).exists_row? hrow
  have hinside : column < glyphWidth := hcolumn
  rw [Font.pixel?, hr, Option.bind_some, Row.pixel?, if_pos hinside] at hpixel
  refine ⟨value, r.bits, hvalue, ?_, Option.some.inj hpixel⟩
  rw [Glyph.row?] at hr
  rw [Glyph.bytes, List.getElem?_map, hr]
  rfl

theorem finished_of_pack {font : Font} (h : source.pack.result = .ok font) :
    source.pack.finished = font.glyphs ∧
      source.Tells 256 (source.pack.finished.map .packedGlyph) := by
  have hdraws := draws_of_pack h
  have hfault : (source.read stripScan).fault = none := by
    by_contra hsome
    obtain ⟨error, herror⟩ := Option.ne_none_iff_exists'.1 hsome
    rw [pack_of_fault hdraws.isStrip herror] at h
    cases h
  obtain ⟨packed, hpack, _⟩ := pack_of_no_fault hdraws.isStrip hfault
  have hcount : (source.read stripScan).glyphs.length = 256 := by
    rw [Reading.length_glyphs, source.length_values_read stripScan hfault, length_stripScan]
    rfl
  have htells := source.tells_finished (Nat.le_of_eq hcount)
  rw [hcount] at htells
  rw [hpack]
  refine ⟨?_, htells⟩
  apply List.ext_getElem?
  intro c
  by_cases hc : c < 256
  · have hread : c < (source.read stripScan).glyphs.length := by rwa [hcount]
    obtain ⟨glyph, hget, hglyph⟩ := exists_finished hread hc
    have hfont := hdraws.prescribes (UInt8.ofNat c)
    rw [UInt8.toNat_ofNat_of_lt' hc] at hfont
    rw [hget, font.getElem?_glyphs hc, hglyph.unique hfont]
  · have hge : 256 ≤ c := Nat.le_of_not_lt hc
    rw [List.getElem?_eq_none (Nat.le_trans (Nat.le_of_eq hcount) hge),
      List.getElem?_eq_none (Nat.le_trans (Nat.le_of_eq font.length_glyphs) hge)]

/-- **Of several unreadable pixels the first in reading order is reported**, with the very error
that the source gave for it, whatever the others give. The glyphs in front of its cell have been
told of, one after the other, each as its cell prescribes, and no other. If nothing is unreadable,
all 256 glyphs are told of, and their rows are the bytes of the font. -/
theorem pack_reports_first_flaw (source : Source) (hwidth : source.width = 2048)
    (hheight : source.height = 7) :
    (∀ (x y : UInt32) (flaw : SampleError), x < 2048 → y < 7 →
      source.luminance x y = .error flaw →
        ∃ c row column error, source.FirstFlaw c row column error ∧
          source.pack.result = .error (.sample error) ∧
          source.Tells c (source.pack.finished.map .packedGlyph)) ∧
    ∀ font, source.pack.result = .ok font →
      source.Tells 256 (source.pack.finished.map .packedGlyph) ∧
        source.pack.finished.flatMap Glyph.bytes = font.bytes := by
  have hstrip := isStrip_iff.2 ⟨hwidth, hheight⟩
  constructor
  · intro x y flaw hx hy hfails
    have hunreadable : ¬ source.IsReadable := by
      intro hread
      obtain ⟨value, hvalue⟩ := hread x y hx hy
      cases hvalue.symm.trans hfails
    obtain ⟨c, row, column, error, hflaw, _⟩ := exists_firstFlaw hunreadable
    exact ⟨c, row, column, error, hflaw, pack_of_firstFlaw hstrip hflaw⟩
  · intro font hfont
    obtain ⟨hfinished, htells⟩ := finished_of_pack hfont
    refine ⟨htells, ?_⟩
    rw [hfinished, font.flatMap_bytes_glyphs]

/-- A white strip with two unreadable pixels, one at the top of glyph 2 and one at the bottom of
glyph 1, whose errors name other pixels. -/
def twoFlaws : Source :=
  ⟨2048, 7, fun x y =>
    if x = 16 ∧ y = 0 then .error ⟨1, 2⟩ else if x = 13 ∧ y = 6 then .error ⟨3, 4⟩ else .ok 255⟩

theorem firstFlaw_twoFlaws : twoFlaws.FirstFlaw 1 6 5 ⟨3, 4⟩ := by
  refine ⟨by decide, rfl, ?_⟩
  intro c row column hc hrow hcolumn hprecedes
  rw [precedes_iff hrow hcolumn (by decide) (by decide)] at hprecedes
  simp only [glyphWidth, glyphHeight] at hprecedes
  have htop : ¬(UInt32.ofNat (8 * c + column) = 16 ∧ UInt32.ofNat row = 0) := by
    rintro ⟨hx, _⟩
    simp only [UInt32.ofNat_eq_iff_mod_eq_toNat, UInt32.reduceToNat] at hx
    omega
  have hbottom : ¬(UInt32.ofNat (8 * c + column) = 13 ∧ UInt32.ofNat row = 6) := by
    rintro ⟨hx, hy⟩
    simp only [UInt32.ofNat_eq_iff_mod_eq_toNat, UInt32.reduceToNat] at hx hy
    omega
  exact ⟨255, by simp only [twoFlaws, if_neg htop, if_neg hbottom]⟩

/-- The flaw of the lower row is reported, because its glyph comes first. -/
theorem pack_twoFlaws : twoFlaws.pack.result = .error (.sample ⟨3, 4⟩) ∧
    twoFlaws.Tells 1 (twoFlaws.pack.finished.map .packedGlyph) := by
  obtain ⟨c, row, column, error, hflaw, hresult, htells⟩ :=
    (pack_reports_first_flaw twoFlaws rfl rfl).1 16 0 ⟨1, 2⟩ (by decide) (by decide) rfl
  obtain ⟨rfl, rfl, rfl, rfl⟩ := hflaw.unique firstFlaw_twoFlaws
  exact ⟨hresult, htells⟩

end Source

end GlyphStrip
