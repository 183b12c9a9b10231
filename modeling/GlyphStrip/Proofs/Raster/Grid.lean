import GlyphStrip.Raster.Grid

/-!
# Cells of grids

A grid has a cell at each place inside it, and a grid that is built is known by its cells. A map
acts on each cell for itself.
-/

namespace GlyphStrip

namespace Grid

variable {α : Type}

/-- Row by row, each place inside a grid has a number below the number of cells. -/
theorem index_lt {width height x y : Nat} (hx : x < width) (hy : y < height) :
    y * width + x < width * height := by
  calc y * width + x < y * width + width := by omega
    _ = width * (y + 1) := by rw [Nat.mul_succ, Nat.mul_comm]
    _ ≤ width * height := Nat.mul_le_mul_left _ hy

theorem index_mod {width x : Nat} (hx : x < width) (y : Nat) : (y * width + x) % width = x := by
  rw [Nat.mul_comm, Nat.mul_add_mod, Nat.mod_eq_of_lt hx]

theorem index_div {width x : Nat} (hx : x < width) (y : Nat) : (y * width + x) / width = y := by
  rw [Nat.mul_comm, Nat.mul_add_div (by omega), Nat.div_eq_of_lt hx, Nat.add_zero]

/-- No two places inside a grid have the same number. -/
theorem index_ne {width x y x' y' : UInt32} (hx : x < width) (hx' : x' < width)
    (hne : (x, y) ≠ (x', y')) :
    y.toNat * width.toNat + x.toNat ≠ y'.toNat * width.toNat + x'.toNat := by
  intro h
  have hcolumn := congrArg (· % width.toNat) h
  have hrow := congrArg (· / width.toNat) h
  simp only [index_mod (UInt32.lt_iff_toNat_lt.1 hx), index_mod (UInt32.lt_iff_toNat_lt.1 hx')]
    at hcolumn
  simp only [index_div (UInt32.lt_iff_toNat_lt.1 hx), index_div (UInt32.lt_iff_toNat_lt.1 hx')]
    at hrow
  exact hne (Prod.ext (UInt32.toNat_inj.1 hcolumn) (UInt32.toNat_inj.1 hrow))

theorem exists_get? (grid : Grid α) {x y : UInt32} (hx : x < grid.width) (hy : y < grid.height) :
    ∃ cell, grid.get? x y = some cell := by
  have hplace := index_lt (UInt32.lt_iff_toNat_lt.1 hx) (UInt32.lt_iff_toNat_lt.1 hy)
  rw [← grid.size_cells] at hplace
  exact ⟨_, by rw [get?, if_pos ⟨hx, hy⟩, Array.getElem?_eq_getElem hplace]⟩

variable {width height : UInt32}

theorem get?_build (f : Nat → Nat → α) {x y : UInt32} (hx : x < width) (hy : y < height) :
    (build width height f).get? x y = some (f x.toNat y.toNat) := by
  have hx' := UInt32.lt_iff_toNat_lt.1 hx
  have hplace := index_lt hx' (UInt32.lt_iff_toNat_lt.1 hy)
  rw [get?, if_pos ⟨hx, hy⟩]
  simp only [build, Array.getElem?_ofFn, dif_pos hplace, index_mod hx', index_div hx']

theorem build_congr {f g : Nat → Nat → α}
    (h : ∀ x y, x < width.toNat → y < height.toNat → f x y = g x y) :
    build width height f = build width height g := by
  have hcell : ∀ i : Fin (width.toNat * height.toNat),
      f (i.val % width.toNat) (i.val / width.toNat) =
        g (i.val % width.toNat) (i.val / width.toNat) := by
    intro i
    have hwidth : 0 < width.toNat :=
      Nat.pos_of_mul_pos_right (Nat.lt_of_le_of_lt (Nat.zero_le _) i.isLt)
    exact h _ _ (Nat.mod_lt _ hwidth) (Nat.div_lt_of_lt_mul i.isLt)
  simp only [build, funext hcell]

/-! ## Maps -/

section maps

variable {β γ : Type} (grid : Grid α)

theorem map_map (f : α → β) (g : β → γ) : (grid.map f).map g = grid.map fun cell => g (f cell) := by
  simp only [map, Array.map_map, Function.comp_def]

theorem map_of_eq {f : α → α} (h : ∀ cell, f cell = cell) : grid.map f = grid := by
  obtain rfl : f = id := funext h
  simp only [map, Array.map_id]

theorem get?_map (f : α → β) (x y : UInt32) : (grid.map f).get? x y = (grid.get? x y).map f := by
  unfold get?
  split
  · rw [if_pos ‹_›]
    exact Array.getElem?_map
  · rw [if_neg ‹_›, Option.map_none]

end maps

end Grid

end GlyphStrip
