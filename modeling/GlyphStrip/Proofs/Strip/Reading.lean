import GlyphStrip.Proofs.Font.Bits
import GlyphStrip.Strip.Pack

/-!
# Reading a strip

A run of readable places gives its samples in order (`Source.read_append`), and the scan of a strip
visits pixel `(c, row, column)` at the very place where a font keeps it (`getElem?_stripScan`).
-/

namespace GlyphStrip

/-! ## Pieces -/

/-- Cutting loses only what is left over at the end. -/
theorem flatten_pieces {α : Type} (n : Nat) (items : List α) :
    (pieces n items).flatten = items.take ((n + 1) * (items.length / (n + 1))) := by
  fun_induction pieces n items with
  | case1 items hlt ih =>
    have hcount : items.length / (n + 1) = (items.length - (n + 1)) / (n + 1) + 1 :=
      Nat.div_eq_sub_div (Nat.succ_pos n) hlt
    rw [List.flatten_cons, ih, List.length_drop, hcount, Nat.mul_succ, Nat.add_comm _ (n + 1)]
    exact List.take_add.symm
  | case2 items hge => rw [Nat.div_eq_of_lt (by omega)]; rfl

/-- Behind full pieces cutting starts anew. -/
theorem pieces_append_of_full {α : Type} {n count : Nat} {items : List α}
    (h : items.length = (n + 1) * count) (more : List α) :
    pieces n (items ++ more) = pieces n items ++ pieces n more := by
  induction count generalizing items with
  | zero =>
    obtain rfl : items = [] := List.eq_nil_of_length_eq_zero h
    have hnone : pieces n ([] : List α) = [] := pieces_of_short (Nat.zero_le n)
    rw [hnone, List.nil_append, List.nil_append]
  | succ count ih =>
    rw [Nat.mul_succ] at h
    have hfirst : (items.take (n + 1)).length = n + 1 := by rw [List.length_take]; omega
    have hrest : (items.drop (n + 1)).length = (n + 1) * count := by rw [List.length_drop]; omega
    rw [← List.take_append_drop (n + 1) items, List.append_assoc, pieces_append hfirst,
      pieces_append hfirst, ih hrest, List.cons_append]

/-! ## Samples -/

namespace Source

/-- What a source gives at a place. -/
def sample (source : Source) (p : Point) : Except SampleError UInt8 :=
  source.luminance p.x p.y

theorem luminance_ofGray_eq_ok_iff {image : GrayImage} {x y : UInt32} {value : UInt8} :
    (ofGray image).luminance x y = .ok value ↔ image.get? x y = some value := by
  simp only [ofGray]
  cases image.get? x y <;> simp

/-- Readable places in front are read first, whatever follows. -/
theorem read_append (source : Source) {before : List Point} {values : List UInt8}
    (h : before.map source.sample = values.map .ok) (rest : List Point) :
    source.read (before ++ rest) = ⟨before ++ (source.read rest).asked,
      values ++ (source.read rest).values, (source.read rest).fault⟩ := by
  induction before generalizing values with
  | nil =>
    obtain rfl : values = [] := by simpa using h.symm
    rfl
  | cons p before ih =>
    obtain ⟨value, values, rfl⟩ : ∃ value others, values = value :: others := by
      cases values with
      | nil => simp at h
      | cons value others => exact ⟨value, others, rfl⟩
    rw [List.map_cons, List.map_cons, List.cons.injEq] at h
    have hp : source.luminance p.x p.y = .ok value := h.1
    simp only [List.cons_append, read, hp, ih h.2]

theorem read_of_map (source : Source) {points : List Point} {values : List UInt8}
    (h : points.map source.sample = values.map .ok) :
    source.read points = ⟨points, values, none⟩ := by
  have hread := source.read_append h []
  simpa [read] using hread

/-- Reading without a fault has read everything. -/
theorem map_sample_of_fault (source : Source) {points : List Point}
    (h : (source.read points).fault = none) :
    points.map source.sample = (source.read points).values.map .ok := by
  induction points with
  | nil => rfl
  | cons p rest ih =>
    cases hp : source.luminance p.x p.y with
    | error error => simp [read, hp] at h
    | ok value =>
      simp only [read, hp] at h ⊢
      rw [List.map_cons, List.map_cons, ih h]
      exact congrArg (· :: _) hp

theorem read_congr {source other : Source} {points : List Point}
    (h : ∀ p ∈ points, source.sample p = other.sample p) :
    source.read points = other.read points := by
  induction points with
  | nil => rfl
  | cons p rest ih =>
    obtain ⟨hp, hrest⟩ := List.forall_mem_cons.1 h
    have hp' : source.luminance p.x p.y = other.luminance p.x p.y := hp
    simp only [read, hp', ih hrest]

theorem length_values_read_le (source : Source) (points : List Point) :
    (source.read points).values.length ≤ points.length := by
  induction points with
  | nil => exact Nat.le_refl 0
  | cons p rest ih =>
    rw [read]
    cases source.luminance p.x p.y with
    | error error => exact Nat.zero_le _
    | ok value => exact Nat.succ_le_succ ih

theorem exists_values (source : Source) {points : List Point}
    (h : ∀ p ∈ points, ∃ value, source.sample p = .ok value) :
    ∃ values : List UInt8, points.map source.sample = values.map .ok := by
  induction points with
  | nil => exact ⟨[], rfl⟩
  | cons p rest ih =>
    obtain ⟨⟨value, hvalue⟩, hrest⟩ := List.forall_mem_cons.1 h
    obtain ⟨values, hvalues⟩ := ih hrest
    exact ⟨value :: values, by rw [List.map_cons, List.map_cons, hvalue, hvalues]⟩

end Source

/-! ## The order of the scan -/

theorem length_rowScan (c row : Nat) : (rowScan c row).length = glyphWidth := by
  simp [rowScan]

theorem length_glyphScan (c : Nat) : (glyphScan c).length = glyphHeight * glyphWidth := by
  simp [glyphScan, List.length_flatMap, length_rowScan, List.map_const']

theorem getElem?_stripScan {c row column : Nat} (hc : c < glyphCount) (hrow : row < glyphHeight)
    (hcolumn : column < glyphWidth) :
    stripScan[glyphWidth * (glyphHeight * c + row) + column]? = some (.ofPixel c row column) := by
  have hplace : glyphWidth * (glyphHeight * c + row) + column =
      glyphHeight * glyphWidth * c + (glyphWidth * row + column) := by
    simp only [glyphWidth, glyphHeight]; omega
  have hinner : glyphWidth * row + column < glyphHeight * glyphWidth := by
    simp only [glyphWidth, glyphHeight] at hrow hcolumn ⊢; omega
  rw [hplace, stripScan, getElem?_flatMap_of_length length_glyphScan _ _ hinner,
    List.getElem?_range hc, Option.bind_some, glyphScan,
    getElem?_flatMap_of_length (length_rowScan c) _ _ hcolumn, List.getElem?_range hrow,
    Option.bind_some, rowScan, List.getElem?_map, List.getElem?_range hcolumn, Option.map_some]

theorem mem_stripScan {p : Point} : p ∈ stripScan ↔
    ∃ c row column, c < glyphCount ∧ row < glyphHeight ∧ column < glyphWidth ∧
      Point.ofPixel c row column = p := by
  simp only [stripScan, glyphScan, rowScan, List.mem_flatMap, List.mem_map, List.mem_range]
  constructor
  · rintro ⟨c, hc, row, hrow, column, hcolumn, rfl⟩
    exact ⟨c, row, column, hc, hrow, hcolumn, rfl⟩
  · rintro ⟨c, row, column, hc, hrow, hcolumn, rfl⟩
    exact ⟨c, hc, row, hrow, column, hcolumn, rfl⟩

/-- The cells cover the strip: every place is that of a pixel. -/
theorem ofPixel_div_mod (x y : UInt32) :
    Point.ofPixel (x.toNat / glyphWidth) y.toNat (x.toNat % glyphWidth) = ⟨x, y⟩ := by
  rw [Point.ofPixel, Nat.div_add_mod, UInt32.ofNat_toNat, UInt32.ofNat_toNat]

/-- The scan visits the places of the strip and no others. -/
theorem mem_stripScan_iff {p : Point} :
    p ∈ stripScan ↔ p.x.toNat < stripWidth ∧ p.y.toNat < stripHeight := by
  rw [mem_stripScan]
  constructor
  · rintro ⟨c, row, column, hc, hrow, hcolumn, rfl⟩
    simp only [Point.ofPixel, UInt32.toNat_ofNat', stripWidth, stripHeight, glyphCount, glyphHeight,
      glyphWidth] at *
    omega
  · rintro ⟨hx, hy⟩
    refine ⟨p.x.toNat / glyphWidth, p.y.toNat, p.x.toNat % glyphWidth, ?_, hy,
      Nat.mod_lt _ (by decide), ofPixel_div_mod p.x p.y⟩
    simp only [stripWidth, glyphCount, glyphWidth] at hx ⊢
    omega

end GlyphStrip
