import GlyphStrip.Font.Basic

/-!
# The bits of a font

Packing eight pixels and reading a row undo each other (`Row.pixels_ofPixels`,
`Row.ofPixels_pixels`). A font is determined by its pixels in reading order
(`Font.pixels_injective`), where pixel `(c, row, column)` stands at place
`8 * (7 * c + row) + column` (`Font.getElem?_pixels`).
-/

namespace GlyphStrip

/-- In a list put together from pieces of length `n`, item `j` of piece `i` stands at
`n * i + j`. -/
theorem getElem?_flatMap_of_length {α β : Type} {f : α → List β} {n : Nat}
    (hf : ∀ a, (f a).length = n) (items : List α) (i : Nat) {j : Nat} (hj : j < n) :
    (items.flatMap f)[n * i + j]? = items[i]?.bind fun a => (f a)[j]? := by
  induction items generalizing i with
  | nil => simp
  | cons a items ih =>
    rw [List.flatMap_cons]
    cases i with
    | zero =>
      have hlt : n * 0 + j < (f a).length := by rw [hf a]; omega
      rw [List.getElem?_append_left hlt]
      simp
    | succ i =>
      have hsplit : n * (i + 1) + j = (f a).length + (n * i + j) := by
        rw [hf a, Nat.mul_succ]
        omega
      rw [hsplit, List.getElem?_append_right (Nat.le_add_right _ _), Nat.add_sub_cancel_left, ih]
      simp

namespace Row

/-! ## Rows -/

/-- Each pixel moves those before it up by a bit, so the last one ends in bit zero. -/
theorem testBit_foldl (pixels : List Bool) (i : Nat) :
    (pixels.foldl (fun bits (pixel : Bool) => 2 * bits + pixel.toNat) 0).testBit i =
      pixels.reverse[i]?.getD false := by
  rw [List.foldl_eq_foldr_reverse]
  generalize pixels.reverse = reversed
  induction reversed generalizing i with
  | nil => simp
  | cons pixel reversed ih =>
    rw [List.foldr_cons]
    generalize reversed.foldr (fun (pixel : Bool) bits => 2 * bits + pixel.toNat) 0 = bits at ih ⊢
    cases i with
    | zero => cases pixel <;> simp [Nat.testBit_zero, Nat.add_mod]
    | succ i =>
      have hhalf : (2 * bits + pixel.toNat) / 2 = bits := by cases pixel <;> simp; omega
      rw [Nat.testBit_succ, hhalf, ih]
      simp

theorem pixels_ofPixels {pixels : List Bool} (h : pixels.length = glyphWidth) :
    (ofPixels pixels).pixels = pixels := by
  apply List.ext_getElem?
  intro column
  rw [getElem?_pixels, pixel?]
  split
  · rename_i hcolumn
    have hplace : pixels.length - 1 - (glyphWidth - 1 - column) = column := by omega
    have hbit : glyphWidth - 1 - column < 8 := by simp only [glyphWidth]; omega
    rw [ofPixels, UInt8.toNat_ofNat', Nat.testBit_mod_two_pow,
      decide_eq_true hbit, Bool.true_and, testBit_foldl, List.getElem?_reverse (by omega), hplace,
      List.getElem?_eq_getElem (by omega), Option.getD_some]
  · rename_i hcolumn
    rw [List.getElem?_eq_none (by omega)]

theorem pixels_injective {row other : Row} (h : row.pixels = other.pixels) : row = other := by
  obtain ⟨bits⟩ := row
  obtain ⟨others⟩ := other
  congr 1
  apply UInt8.toNat_inj.1
  apply Nat.eq_of_testBit_eq
  intro i
  by_cases hi : i < glyphWidth
  · have hget := congrArg (fun pixels => pixels[glyphWidth - 1 - i]?) h
    have hcolumn : glyphWidth - 1 - i < glyphWidth := by omega
    have hbit : glyphWidth - 1 - (glyphWidth - 1 - i) = i := by omega
    simpa only [getElem?_pixels, pixel?, if_pos hcolumn, hbit, Option.some.injEq] using hget
  · have hle : 2 ^ 8 ≤ 2 ^ i := Nat.pow_le_pow_right (by decide) (by simpa using hi)
    rw [Nat.testBit_lt_two_pow (Nat.lt_of_lt_of_le bits.toNat_lt hle),
      Nat.testBit_lt_two_pow (Nat.lt_of_lt_of_le others.toNat_lt hle)]

theorem ext_pixel? {row other : Row}
    (h : ∀ column < glyphWidth, row.pixel? column = other.pixel? column) : row = other := by
  apply pixels_injective
  apply List.ext_getElem?
  intro column
  rw [getElem?_pixels, getElem?_pixels]
  by_cases hcolumn : column < glyphWidth
  · exact h column hcolumn
  · rw [pixel?, pixel?, if_neg hcolumn, if_neg hcolumn]

theorem ofPixels_pixels (row : Row) : ofPixels row.pixels = row :=
  pixels_injective (pixels_ofPixels row.length_pixels)

end Row

/-! ## Rows of a glyph -/

theorem Glyph.exists_row? (glyph : Glyph) {row : Nat} (hrow : row < glyphHeight) :
    ∃ r, glyph.row? row = some r :=
  ⟨_, List.getElem?_eq_getElem (by rwa [glyph.length_rows])⟩

theorem Glyph.row?_eq_none (glyph : Glyph) {row : Nat} (hrow : ¬ row < glyphHeight) :
    glyph.row? row = none :=
  List.getElem?_eq_none (by rw [glyph.length_rows]; exact Nat.le_of_not_lt hrow)

namespace Font

/-! ## Fonts -/

/-- The pixels of all glyphs, in each glyph row by row, in each row left to right. -/
def pixels (font : Font) : List Bool :=
  font.bytes.flatMap fun byte => (Row.mk byte).pixels

theorem length_pixels (font : Font) : font.pixels.length = fontSize * glyphWidth := by
  simp [pixels, List.length_flatMap, List.map_const', font.length_bytes]

theorem pixels_injective {font other : Font} (h : font.pixels = other.pixels) : font = other := by
  obtain ⟨bytes, hbytes⟩ := font
  obtain ⟨others, hothers⟩ := other
  congr 1
  apply List.ext_getElem (hbytes.trans hothers.symm)
  intro i hi hi'
  have hrow : (Row.mk bytes[i]).pixels = (Row.mk others[i]).pixels := by
    apply List.ext_getElem?
    intro column
    by_cases hcolumn : column < glyphWidth
    · have hget := congrArg (fun pixels => pixels[glyphWidth * i + column]?) h
      simp only [pixels, getElem?_flatMap_of_length (fun byte => (Row.mk byte).length_pixels) _ _
        hcolumn, List.getElem?_eq_getElem hi, List.getElem?_eq_getElem hi', Option.bind_some]
        at hget
      exact hget
    · rw [List.getElem?_eq_none (by rw [Row.length_pixels]; omega),
        List.getElem?_eq_none (by rw [Row.length_pixels]; omega)]
  exact congrArg Row.bits (Row.pixels_injective hrow)

theorem row?_glyph (font : Font) (c : UInt8) {row : Nat} (hrow : row < glyphHeight) :
    (font.glyph c).row? row = font.bytes[glyphHeight * c.toNat + row]?.map Row.mk := by
  simp only [Glyph.row?, glyph, glyphBytes, List.getElem?_map, List.getElem?_take, if_pos hrow,
    List.getElem?_drop]

theorem getElem?_pixels (font : Font) (c : UInt8) {row column : Nat} (hrow : row < glyphHeight)
    (hcolumn : column < glyphWidth) :
    font.pixels[glyphWidth * (glyphHeight * c.toNat + row) + column]? =
      font.pixel? c row column := by
  rw [pixels, getElem?_flatMap_of_length (fun byte => (Row.mk byte).length_pixels) _ _ hcolumn,
    pixel?, row?_glyph font c hrow, Option.bind_map]
  simp only [Function.comp_def, Row.getElem?_pixels]

theorem exists_pixel? (font : Font) (c : UInt8) {row column : Nat} (hrow : row < glyphHeight)
    (hcolumn : column < glyphWidth) : ∃ drawn, font.pixel? c row column = some drawn := by
  have hc := c.toNat_lt
  have hlt : glyphWidth * (glyphHeight * c.toNat + row) + column < font.pixels.length := by
    rw [length_pixels]
    simp only [fontSize, glyphCount, glyphHeight, glyphWidth] at hrow hcolumn ⊢
    omega
  exact ⟨_, (getElem?_pixels font c hrow hcolumn).symm.trans (List.getElem?_eq_getElem hlt)⟩

/-- Every place in a font is a pixel of a glyph. -/
theorem exists_place {n : Nat} (hn : n < fontSize * glyphWidth) :
    ∃ (c : UInt8) (row column : Nat), row < glyphHeight ∧ column < glyphWidth ∧
      n = glyphWidth * (glyphHeight * c.toNat + row) + column := by
  simp only [fontSize, glyphCount, glyphHeight, glyphWidth] at hn ⊢
  have hc : n / 8 / 7 < 256 := by omega
  refine ⟨UInt8.ofNat (n / 8 / 7), n / 8 % 7, n % 8, by omega, by omega, ?_⟩
  rw [UInt8.toNat_ofNat_of_lt' hc]
  omega

/-- Fonts with the same pixels are the same. -/
theorem ext_pixel? {font other : Font}
    (h : ∀ (c : UInt8) (row column : Nat), row < glyphHeight → column < glyphWidth →
      font.pixel? c row column = other.pixel? c row column) : font = other := by
  apply pixels_injective
  apply List.ext_getElem?
  intro n
  by_cases hn : n < fontSize * glyphWidth
  · obtain ⟨c, row, column, hrow, hcolumn, rfl⟩ := exists_place hn
    rw [getElem?_pixels font c hrow hcolumn, getElem?_pixels other c hrow hcolumn]
    exact h c row column hrow hcolumn
  · rw [List.getElem?_eq_none (by rw [length_pixels]; omega),
      List.getElem?_eq_none (by rw [length_pixels]; omega)]

/-! ## Glyphs in their order -/

@[simp] theorem length_glyphs (font : Font) : font.glyphs.length = glyphCount := by
  simp [glyphs]

theorem getElem?_glyphs (font : Font) {p : Nat} (hp : p < glyphCount) :
    font.glyphs[p]? = some (font.glyph (UInt8.ofNat p)) := by
  rw [glyphs, List.getElem?_map, List.getElem?_range hp, Option.map_some]

theorem drop_glyphs (font : Font) {p : Nat} (hp : p < glyphCount) :
    font.glyphs.drop p = font.glyph (UInt8.ofNat p) :: font.glyphs.drop (p + 1) := by
  have hlt : p < font.glyphs.length := by rwa [length_glyphs]
  have hget := font.getElem?_glyphs hp
  rw [List.getElem?_eq_getElem hlt, Option.some.injEq] at hget
  rw [List.drop_eq_getElem_cons hlt, hget]

theorem bytes_glyph (font : Font) (c : UInt8) : (font.glyph c).bytes = font.glyphBytes c.toNat := by
  simp [Glyph.bytes, glyph, Function.comp_def]

theorem flatMap_bytes_glyphs (font : Font) : font.glyphs.flatMap Glyph.bytes = font.bytes := by
  have hlength : ∀ glyph : Glyph, glyph.bytes.length = glyphHeight := by
    intro glyph
    rw [Glyph.bytes, List.length_map, glyph.length_rows]
  apply List.ext_getElem?
  intro n
  have hrow : n % glyphHeight < glyphHeight := Nat.mod_lt _ (by decide)
  have hn : glyphHeight * (n / glyphHeight) + n % glyphHeight = n := Nat.div_add_mod ..
  rw [← hn, getElem?_flatMap_of_length hlength _ _ hrow]
  by_cases hp : n / glyphHeight < glyphCount
  · rw [font.getElem?_glyphs hp, Option.bind_some, bytes_glyph, UInt8.toNat_ofNat_of_lt' hp,
      glyphBytes, List.getElem?_take, if_pos hrow, List.getElem?_drop]
  · rw [List.getElem?_eq_none (by rw [length_glyphs]; omega), Option.bind_none, eq_comm]
    apply List.getElem?_eq_none
    rw [font.length_bytes]
    simp only [fontSize, glyphCount, glyphHeight] at hp ⊢
    omega

end Font

end GlyphStrip
