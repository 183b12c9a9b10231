import GlyphStrip.Proofs.Strip.Packing
import Mathlib.Data.Finset.Image
import Mathlib.Data.Fintype.Prod

/-!
# How far two packed strips differ

Pixels of the strip and bits of the font are in one-to-one correspondence (`bitOf`), and a bit is
set exactly if its pixel is foreground (`Source.Draws.silhouette_eq`). So two strips differ in their
fonts where their silhouettes differ, bit for pixel (`pack_difference`).
-/

namespace GlyphStrip

/-- A pixel of the strip: its column and its row. -/
abbrev StripPixel := Fin 2048 × Fin 7

/-- A bit of a font: its byte, and its place in the byte, the least significant first. -/
abbrev FontBit := Fin 1792 × Fin 8

/-! ## Pixels and bits -/

/-- The bit of pixel `(x, y)`: bit `7 - x % 8` of byte `7 * (x / 8) + y`. -/
def bitOf : StripPixel ≃ FontBit where
  toFun p := (⟨7 * (p.1.val / 8) + p.2.val, by omega⟩, ⟨7 - p.1.val % 8, by omega⟩)
  invFun q := (⟨8 * (q.1.val / 7) + (7 - q.2.val), by omega⟩, ⟨q.1.val % 7, by omega⟩)
  left_inv := by
    rintro ⟨⟨x, hx⟩, ⟨y, hy⟩⟩
    simp only [Prod.mk.injEq, Fin.mk.injEq]
    constructor <;> omega
  right_inv := by
    rintro ⟨⟨n, hn⟩, ⟨k, hk⟩⟩
    simp only [Prod.mk.injEq, Fin.mk.injEq]
    constructor <;> omega

/-- Whether a bit of the font is set. -/
def Font.bit (font : Font) (q : FontBit) : Bool :=
  (font.bytes.get ⟨q.1.val, by rw [font.length_bytes]; exact q.1.isLt⟩).toNat.testBit q.2.val

/-- The bits in which two fonts differ. -/
def Font.difference (font other : Font) : Finset FontBit :=
  {q | font.bit q ≠ other.bit q}

namespace Source

/-- The thresholded picture: which pixels are foreground, as far as they can be read. -/
def silhouette (source : Source) (p : StripPixel) : Option Bool :=
  (source.luminance (.ofNat p.1.val) (.ofNat p.2.val)).toOption.map isForeground

/-- The pixels at which two sources do not have the same silhouette. -/
def disagreement (source other : Source) : Finset StripPixel :=
  {p | source.silhouette p ≠ other.silhouette p}

end Source

theorem Font.pixel?_eq_bit (font : Font) (p : StripPixel) :
    font.pixel? (.ofNat (p.1.val / 8)) p.2.val (p.1.val % 8) = some (font.bit (bitOf p)) := by
  obtain ⟨⟨x, hx⟩, ⟨y, hy⟩⟩ := p
  have hc : x / 8 < 256 := by omega
  obtain ⟨drawn, hdrawn⟩ := font.exists_pixel? (.ofNat (x / 8)) hy (Nat.mod_lt x (by decide))
  obtain ⟨byte, hbyte, hbit⟩ := (shows_of_pixel? hdrawn).bit
  rw [UInt8.toNat_ofNat_of_lt' hc] at hbyte
  obtain ⟨hlt, hget⟩ := List.getElem?_eq_some_iff.1 hbyte
  rw [hdrawn, ← hbit, ← hget]
  rfl

theorem Font.mem_difference_iff {font other : Font} {q : FontBit} :
    q ∈ font.difference other ↔ font.bit q ≠ other.bit q := by
  simp only [difference, Finset.mem_filter_univ]

namespace Source

variable {source other : Source} {font font' : Font}

theorem Draws.silhouette_eq (h : source.Draws font) (p : StripPixel) :
    source.silhouette p = some (font.bit (bitOf p)) := by
  have hc : p.1.val / 8 < 256 := by omega
  obtain ⟨value, hvalue, hpixel⟩ :=
    h.pixel (.ofNat (p.1.val / 8)) p.2.val (p.1.val % 8) p.2.isLt (Nat.mod_lt _ (by decide))
  have hread : source.luminance (.ofNat p.1.val) (.ofNat p.2.val) = .ok value := by
    rwa [UInt8.toNat_ofNat_of_lt' hc, sample, Point.ofPixel, Nat.div_add_mod] at hvalue
  rw [← font.pixel?_eq_bit p, hpixel, silhouette, hread]
  rfl

theorem mem_disagreement_iff (h : source.Draws font) (h' : other.Draws font') {p : StripPixel} :
    p ∈ source.disagreement other ↔ bitOf p ∈ font.difference font' := by
  simp only [disagreement, Font.mem_difference_iff, Finset.mem_filter_univ, h.silhouette_eq,
    h'.silhouette_eq, ne_eq, Option.some.injEq]

theorem bit_eq_of_notMem (h : source.Draws font) (h' : other.Draws font') {p : StripPixel}
    (hp : p ∉ source.disagreement other) : font.bit (bitOf p) = font'.bit (bitOf p) := by
  rw [mem_disagreement_iff h h', Font.mem_difference_iff, not_not] at hp
  exact hp

end Source

/-! ## Fonts with the same bits -/

section bits

variable {font other : Font} (c : UInt8)

theorem Font.pixel?_eq_of_bit {row column : Nat} (hrow : row < glyphHeight)
    (hcolumn : column < glyphWidth)
    (h : ∀ p : StripPixel, p.1.val / 8 = c.toNat → p.2.val = row →
      font.bit (bitOf p) = other.bit (bitOf p)) :
    font.pixel? c row column = other.pixel? c row column := by
  have hc := c.toNat_lt
  simp only [glyphHeight, glyphWidth] at hrow hcolumn
  let p : StripPixel := (⟨8 * c.toNat + column, by omega⟩, ⟨row, hrow⟩)
  have hdiv : p.1.val / 8 = c.toNat := by simp only [p]; omega
  have hmod : p.1.val % 8 = column := by simp only [p]; omega
  have hfont := font.pixel?_eq_bit p
  have hother := other.pixel?_eq_bit p
  rw [hdiv, hmod, UInt8.ofNat_toNat] at hfont hother
  rw [hfont, hother, h p hdiv rfl]

theorem Font.row?_eq_of_bit (row : Nat)
    (h : ∀ p : StripPixel, p.1.val / 8 = c.toNat → p.2.val = row →
      font.bit (bitOf p) = other.bit (bitOf p)) :
    (font.glyph c).row? row = (other.glyph c).row? row := by
  by_cases hrow : row < glyphHeight
  · obtain ⟨r, hr⟩ := (font.glyph c).exists_row? hrow
    obtain ⟨r', hr'⟩ := (other.glyph c).exists_row? hrow
    have hpixel (column : Nat) (hcolumn : column < glyphWidth) :
        r.pixel? column = r'.pixel? column := by
      have heq := pixel?_eq_of_bit c hrow hcolumn h
      rwa [pixel?, pixel?, hr, hr'] at heq
    rw [hr, hr', Row.ext_pixel? hpixel]
  · rw [Glyph.row?_eq_none _ hrow, Glyph.row?_eq_none _ hrow]

theorem Font.glyph_eq_of_bit
    (h : ∀ p : StripPixel, p.1.val / 8 = c.toNat → font.bit (bitOf p) = other.bit (bitOf p)) :
    font.glyph c = other.glyph c := by
  have hrows : (font.glyph c).rows = (other.glyph c).rows := by
    apply List.ext_getElem?
    intro row
    exact row?_eq_of_bit c row fun p hp _ => h p hp
  simp only [Font.glyph, Glyph.mk.injEq, true_and]
  exact hrows

theorem Font.eq_of_difference (h : font.difference other = ∅) : font = other := by
  apply ext_pixel?
  intro c row column hrow hcolumn
  refine pixel?_eq_of_bit c hrow hcolumn fun p _ _ => ?_
  by_contra hne
  rw [← ne_eq, ← mem_difference_iff, h] at hne
  exact Finset.notMem_empty _ hne

end bits

/-! ## Two strips -/

/-- **Two fonts differ in just the bits of the pixels at which the two strips disagree.** Nothing
leaks into another bit, row or glyph, and no two pixels share a bit; so as many bits differ as
pixels do, and the fonts are equal if and only if the silhouettes are. -/
theorem pack_difference (source other : Source) (hstrip : source.IsStrip)
    (hread : source.IsReadable) (hstrip' : other.IsStrip) (hread' : other.IsReadable) :
    ∃ font font', source.pack.result = .ok font ∧ other.pack.result = .ok font' ∧
      font.difference font' = (source.disagreement other).image bitOf ∧
      (font.difference font').card = (source.disagreement other).card ∧
      (font = font' ↔ source.silhouette = other.silhouette) ∧
      ∀ changed : Finset StripPixel, source.disagreement other ⊆ changed →
        (∀ p ∉ changed, font.bit (bitOf p) = font'.bit (bitOf p)) ∧
        (∀ c : UInt8, (∀ p ∈ changed, p.1.val / 8 ≠ c.toNat) → font.glyph c = font'.glyph c) ∧
        ∀ (c : UInt8) (row : Nat), (∀ p ∈ changed, ¬(p.1.val / 8 = c.toNat ∧ p.2.val = row)) →
          (font.glyph c).row? row = (font'.glyph c).row? row := by
  obtain ⟨font, hfont⟩ := Source.exists_pack_iff.2 ⟨hstrip, hread⟩
  obtain ⟨font', hfont'⟩ := Source.exists_pack_iff.2 ⟨hstrip', hread'⟩
  have hdraws := Source.draws_of_pack hfont
  have hdraws' := Source.draws_of_pack hfont'
  have himage : font.difference font' = (source.disagreement other).image bitOf := by
    ext q
    obtain ⟨p, rfl⟩ := bitOf.surjective q
    rw [← Source.mem_disagreement_iff hdraws hdraws', Function.Injective.mem_finset_image]
    exact bitOf.injective
  have hsame (changed : Finset StripPixel) (hchanged : source.disagreement other ⊆ changed)
      (p : StripPixel) (hp : p ∉ changed) : font.bit (bitOf p) = font'.bit (bitOf p) :=
    Source.bit_eq_of_notMem hdraws hdraws' (Finset.notMem_mono hchanged hp)
  refine ⟨font, font', hfont, hfont', himage, ?_, ?_, fun changed hchanged => ⟨?_, ?_, ?_⟩⟩
  · rw [himage, Finset.card_image_of_injective _ bitOf.injective]
  · constructor
    · rintro rfl
      funext p
      rw [hdraws.silhouette_eq, hdraws'.silhouette_eq]
    · intro hsilhouette
      apply Font.eq_of_difference
      rw [himage, Source.disagreement, hsilhouette]
      simp
  · exact hsame changed hchanged
  · exact fun c hc => Font.glyph_eq_of_bit c fun p hp =>
      hsame changed hchanged p fun hmem => hc p hmem hp
  · exact fun c row hrow => Font.row?_eq_of_bit c row fun p hp hy =>
      hsame changed hchanged p fun hmem => hrow p hmem ⟨hp, hy⟩

/-- A white strip. -/
def Source.blank : Source :=
  ⟨2048, 7, fun _ _ => .ok 255⟩

theorem Source.disagreement_greyPoint : greyPoint.disagreement blank = {(1600, 6)} := by
  ext ⟨x, y⟩
  have hx : UInt32.ofNat x.val = 1600 ↔ x = 1600 := by
    rw [UInt32.ofNat_eq_iff_mod_eq_toNat, Nat.mod_eq_of_lt (by omega), Fin.ext_iff]
    rfl
  have hy : UInt32.ofNat y.val = 6 ↔ y = 6 := by
    rw [UInt32.ofNat_eq_iff_mod_eq_toNat, Nat.mod_eq_of_lt (by omega), Fin.ext_iff]
    rfl
  rw [Finset.mem_singleton, Prod.mk.injEq, disagreement, Finset.mem_filter_univ]
  simp only [silhouette, greyPoint, blank, hx, hy]
  by_cases hpoint : x = 1600 ∧ y = 6 <;>
    simp [hpoint, Except.toOption, isForeground, backgroundLuminance]

/-- The grey point of a white strip is one bit of its font: the highest of byte 1406. -/
theorem pack_difference_greyPoint : ∃ font font', Source.greyPoint.pack.result = .ok font ∧
    Source.blank.pack.result = .ok font' ∧ font.difference font' = {(1406, 7)} ∧
    (font.difference font').card = 1 ∧ ∀ c, c ≠ 200 → font.glyph c = font'.glyph c := by
  obtain ⟨font, font', hfont, hfont', himage, hcard, _, hchanged⟩ :=
    pack_difference Source.greyPoint Source.blank ⟨rfl, rfl⟩ (fun _ _ _ _ => ⟨_, rfl⟩)
      ⟨rfl, rfl⟩ (fun _ _ _ _ => ⟨_, rfl⟩)
  rw [Source.disagreement_greyPoint] at himage hcard
  obtain ⟨_, hglyph, _⟩ := hchanged {(1600, 6)} (Finset.subset_of_eq Source.disagreement_greyPoint)
  refine ⟨font, font', hfont, hfont', ?_, hcard, fun c hc => hglyph c fun p hp hcell => hc ?_⟩
  · rw [himage, Finset.image_singleton]
    rfl
  · rw [Finset.mem_singleton] at hp
    rw [hp] at hcell
    rw [← UInt8.toNat_inj, ← hcell]
    rfl

end GlyphStrip
