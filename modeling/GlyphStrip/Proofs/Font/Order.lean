import GlyphStrip.Font.Order
import GlyphStrip.Proofs.Font.Bits
import Mathlib.Data.List.Forall2

/-!
# The order of pixels in reading order

Two rows compare as numbers the way their pixels compare from left to right (`Row.compare_pixels`),
because the leftmost pixel is the most significant bit. Lists compare item by item, so the same
holds of the rows of a glyph, of the bytes of a font and of its glyphs (`compare_flatMap`).
-/

namespace GlyphStrip

/-! ## Codes that keep the order -/

section codes

variable {α β : Type} [Ord α] [Ord β]

theorem compare_append {front front' : List α} (h : front.length = front'.length)
    (back back' : List α) :
    compare (front ++ back) (front' ++ back') =
      (compare front front').then (compare back back') := by
  induction front generalizing front' with
  | nil =>
    obtain rfl := List.eq_nil_of_length_eq_zero h.symm
    rfl
  | cons a front ih =>
    cases front' with
    | nil => cases h
    | cons b front' =>
      rw [List.cons_append, List.cons_append, List.compare_cons_cons, List.compare_cons_cons,
        ih (Nat.succ.inj h), Ordering.then_assoc]

/-- The codes of two items are equally long and compare as the items do. -/
structure KeepsOrder (code : α → List β) (a b : α) : Prop where
  length : (code a).length = (code b).length
  compare_eq : compare a b = compare (code a) (code b)

/-- Lists compare as their codes put together, since the first items that differ have codes that
differ in front of all others. -/
theorem compare_flatMap {code : α → List β} {items others : List α}
    (h : List.Forall₂ (KeepsOrder code) items others) :
    compare items others = compare (items.flatMap code) (others.flatMap code) := by
  induction h with
  | nil => rfl
  | cons hab _ ih =>
    rw [List.flatMap_cons, List.flatMap_cons, compare_append hab.length, List.compare_cons_cons,
      hab.compare_eq, ih]

theorem compare_flatMap_of_length {code : α → List β} (h : ∀ a b, KeepsOrder code a b)
    {items others : List α} (hlength : items.length = others.length) :
    compare items others = compare (items.flatMap code) (others.flatMap code) :=
  compare_flatMap (List.forall₂_iff_zip.2 ⟨hlength, fun _ => h _ _⟩)

end codes

/-! ## Rows -/

namespace Row

theorem compare_push (m n : Nat) (pixel other : Bool) :
    compare (2 * m + pixel.toNat) (2 * n + other.toNat) =
      (compare m n).then (compare pixel other) := by
  have hpixel := pixel.toNat_lt
  have hother := other.toNat_lt
  rcases Nat.lt_trichotomy m n with h | rfl | h
  · rw [Nat.compare_eq_lt.2 h, Nat.compare_eq_lt.2 (by omega)]
    rfl
  · rw [Nat.compare_eq_eq.2 rfl, Ordering.eq_then]
    cases pixel <;> cases other
    · exact Nat.compare_eq_eq.2 rfl
    · exact Nat.compare_eq_lt.2 (Nat.lt_succ_self _)
    · exact Nat.compare_eq_gt.2 (Nat.lt_succ_self _)
    · exact Nat.compare_eq_eq.2 rfl
  · rw [Nat.compare_eq_gt.2 h, Nat.compare_eq_gt.2 (by omega)]
    rfl

/-- What was packed before counts more than what is packed later. -/
theorem compare_foldl {pixels others : List Bool} (h : pixels.length = others.length) (m n : Nat) :
    compare (pixels.foldl (fun bits pixel => 2 * bits + pixel.toNat) m)
        (others.foldl (fun bits pixel => 2 * bits + pixel.toNat) n) =
      (compare m n).then (compare pixels others) := by
  induction pixels generalizing others m n with
  | nil =>
    obtain rfl := List.eq_nil_of_length_eq_zero h.symm
    exact Ordering.then_eq.symm
  | cons pixel pixels ih =>
    cases others with
    | nil => cases h
    | cons other others =>
      rw [List.foldl_cons, List.foldl_cons, ih (Nat.succ.inj h), compare_push,
        List.compare_cons_cons, Ordering.then_assoc]

theorem toNat_bits (row : Row) :
    row.bits.toNat = row.pixels.foldl (fun bits pixel => 2 * bits + pixel.toNat) 0 := by
  have hlt : row.pixels.foldl (fun bits (pixel : Bool) => 2 * bits + pixel.toNat) 0 < 2 ^ 8 := by
    apply Nat.lt_pow_two_of_testBit
    intro i hi
    rw [testBit_foldl, List.getElem?_eq_none (by rwa [List.length_reverse, length_pixels])]
    rfl
  have hbits : row.bits = UInt8.ofNat (row.pixels.foldl _ 0) :=
    (congrArg bits row.ofPixels_pixels).symm
  rw [hbits, UInt8.toNat_ofNat_of_lt' hlt]

/-- Rows compare as their pixels do from left to right. -/
theorem compare_pixels (row other : Row) : compare row other = compare row.pixels other.pixels := by
  have hlength : row.pixels.length = other.pixels.length := by
    rw [length_pixels, length_pixels]
  show compare row.bits other.bits = _
  rw [UInt8.compare_eq_toNat_compare_toNat, toNat_bits, toNat_bits, compare_foldl hlength]
  rfl

-- one pixel outweighs all that are to the right of it
example : compare (Row.mk 0b01111111) (Row.mk 0b10000000) = .lt := by decide

theorem keepsOrder_pixels (row other : Row) : KeepsOrder pixels row other :=
  ⟨by rw [length_pixels, length_pixels], row.compare_pixels other⟩

end Row

/-! ## Glyphs -/

namespace Glyph

/-- The pixels of the glyph, row by row, in each row left to right. -/
def pixels (glyph : Glyph) : List Bool :=
  glyph.rows.flatMap Row.pixels

theorem length_pixels (glyph : Glyph) : glyph.pixels.length = glyphHeight * glyphWidth := by
  simp [pixels, List.length_flatMap, List.map_const', glyph.length_rows]

/-- The index decides where it differs, and the pixels elsewhere. -/
theorem compare_pixels (glyph other : Glyph) :
    compare glyph other =
      (compare glyph.index other.index).then (compare glyph.pixels other.pixels) := by
  have hlength : glyph.rows.length = other.rows.length := by
    rw [glyph.length_rows, other.length_rows]
  rw [pixels, pixels, ← compare_flatMap_of_length Row.keepsOrder_pixels hlength]
  rfl

theorem keepsOrder_pixels {glyph other : Glyph} (h : glyph.index = other.index) :
    KeepsOrder pixels glyph other where
  length := by rw [length_pixels, length_pixels]
  compare_eq := by
    have hindex : compare glyph.index other.index = .eq := Std.LawfulEqOrd.compare_eq_iff_eq.2 h
    rw [compare_pixels, hindex, Ordering.eq_then]

end Glyph

/-! ## Fonts -/

namespace Font

theorem flatMap_pixels_glyphs (font : Font) : font.glyphs.flatMap Glyph.pixels = font.pixels := by
  have hpixels : Glyph.pixels = fun glyph =>
      glyph.bytes.flatMap fun byte => (Row.mk byte).pixels := by
    funext glyph
    rw [Glyph.pixels, Glyph.bytes, List.flatMap_map]
  rw [pixels, ← flatMap_bytes_glyphs, List.flatMap_assoc, hpixels]

theorem compare_pixels (font other : Font) :
    compare font other = compare font.pixels other.pixels := by
  have hbytes (byte other : UInt8) : KeepsOrder (fun byte => (Row.mk byte).pixels) byte other :=
    ⟨(Row.keepsOrder_pixels ⟨byte⟩ ⟨other⟩).length,
      (Row.keepsOrder_pixels ⟨byte⟩ ⟨other⟩).compare_eq⟩
  have hlength : font.bytes.length = other.bytes.length := by
    rw [font.length_bytes, other.length_bytes]
  exact compare_flatMap_of_length hbytes hlength

/-- The glyphs of two fonts have the same indices in the same order, so none of them decides by its
index. -/
theorem compare_glyphs (font other : Font) :
    compare font.glyphs other.glyphs = compare font.pixels other.pixels := by
  have hglyphs : List.Forall₂ (KeepsOrder Glyph.pixels) font.glyphs other.glyphs := by
    rw [glyphs, glyphs, List.forall₂_map_left_iff, List.forall₂_map_right_iff, List.forall₂_same]
    exact fun n _ => Glyph.keepsOrder_pixels rfl
  rw [compare_flatMap hglyphs, flatMap_pixels_glyphs, flatMap_pixels_glyphs]

end Font

theorem FontBuffer.compare_font (buffer other : FontBuffer) :
    compare buffer other = compare buffer.font other.font :=
  Array.compare_eq_compare_toList

/-! ## Total orders -/

instance : Std.TransOrd Row :=
  inferInstanceAs (Std.TransCmp (compareOn Row.bits))

instance : Std.LawfulEqOrd Row where
  eq_of_compare h := congrArg Row.mk (Std.LawfulEqOrd.eq_of_compare h)

instance : Std.TransOrd Glyph :=
  inferInstanceAs (Std.TransCmp (compareLex (compareOn Glyph.index) (compareOn Glyph.rows)))

instance : Std.LawfulEqOrd Glyph where
  eq_of_compare {glyph other} h := by
    obtain ⟨hindex, hrows⟩ := Ordering.then_eq_eq.1 h
    obtain ⟨index, rows, _⟩ := glyph
    obtain ⟨others, _, _⟩ := other
    obtain rfl := Std.LawfulEqOrd.eq_of_compare hindex
    obtain rfl := Std.LawfulEqOrd.eq_of_compare hrows
    rfl

instance : Std.TransOrd Font :=
  inferInstanceAs (Std.TransCmp (compareOn Font.bytes))

instance : Std.LawfulEqOrd Font where
  eq_of_compare {font other} h := by
    have hbytes : font.bytes = other.bytes := Std.LawfulEqOrd.eq_of_compare h
    cases font
    cases other
    exact (Font.mk.injEq ..).mpr hbytes

instance : Std.TransOrd FontBuffer :=
  inferInstanceAs (Std.TransCmp (compareOn FontBuffer.storage))

instance : Std.LawfulEqOrd FontBuffer where
  eq_of_compare {buffer other} h := by
    have hstorage : buffer.storage = other.storage := Std.LawfulEqOrd.eq_of_compare h
    cases buffer
    cases other
    exact (FontBuffer.mk.injEq ..).mpr hstorage

/-- Comparison goes both ways alike and is transitive, and equal values alone compare as equal. -/
def IsTotalOrder (α : Type) [Ord α] : Prop :=
  Std.TransOrd α ∧ Std.LawfulEqOrd α

theorem isTotalOrder (α : Type) [Ord α] [Std.TransOrd α] [Std.LawfulEqOrd α] : IsTotalOrder α :=
  ⟨inferInstance, inferInstance⟩

/-- **All orders are the order of pixels in reading order**, where a pixel that is not set comes
first: that of fonts, of the buffers that hold them, and of their glyphs one after the other. So
fonts compare as equal only if all their pixels are the same, and then the fonts are. Single glyphs
compare by their characters first, whatever their pixels. -/
theorem Font.orders_agree :
    (∀ font other : Font,
      compare (FontBuffer.ofFont font) (FontBuffer.ofFont other) = compare font other ∧
      compare font other = compare font.glyphs other.glyphs ∧
      compare font other =
        compare (font.glyphs.flatMap Glyph.pixels) (other.glyphs.flatMap Glyph.pixels) ∧
      (compare font other = .eq ↔
        ∀ c row column, font.pixel? c row column = other.pixel? c row column) ∧
      (compare font other = .eq ↔ font = other)) ∧
    (∀ buffer other : FontBuffer, compare buffer other = compare buffer.font other.font) ∧
    (∀ glyph other : Glyph, compare glyph other =
      (compare glyph.index other.index).then (compare glyph.pixels other.pixels)) ∧
    IsTotalOrder Font ∧ IsTotalOrder FontBuffer ∧ IsTotalOrder (List Glyph) ∧
      IsTotalOrder Glyph ∧ IsTotalOrder Row ∧ IsTotalOrder (List Bool) := by
  refine ⟨fun font other => ⟨?_, ?_, ?_, ⟨fun heq c row column => ?_, fun hpixels => ?_⟩, ?_⟩,
    FontBuffer.compare_font, Glyph.compare_pixels, isTotalOrder _, isTotalOrder _, isTotalOrder _,
    isTotalOrder _, isTotalOrder _, isTotalOrder _⟩
  · rw [FontBuffer.compare_font, FontBuffer.font_ofFont, FontBuffer.font_ofFont]
  · rw [compare_glyphs, compare_pixels]
  · rw [flatMap_pixels_glyphs, flatMap_pixels_glyphs, compare_pixels]
  · rw [Std.LawfulEqOrd.eq_of_compare heq]
  · rw [ext_pixel? fun c row column _ _ => hpixels c row column]
    exact Std.ReflCmp.compare_self
  · exact Std.LawfulEqOrd.compare_eq_iff_eq

end GlyphStrip
