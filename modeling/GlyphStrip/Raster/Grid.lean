/-!
# Grids

A grid is a rectangle of cells, stored row by row.
-/

namespace GlyphStrip

/-- A rectangle of cells, row by row. -/
structure Grid (α : Type) where
  width : UInt32
  height : UInt32
  cells : Array α
  size_cells : cells.size = width.toNat * height.toNat

/-- A picture of 8-bit luminance values. -/
abbrev GrayImage := Grid UInt8

namespace Grid

variable {α β : Type}

/-- The cell in column `x` of row `y`, if it lies inside. -/
def get? (grid : Grid α) (x y : UInt32) : Option α :=
  if x < grid.width ∧ y < grid.height then grid.cells[y.toNat * grid.width.toNat + x.toNat]?
  else none

/-- The grid whose cell in column `x` of row `y` is `f x y`. -/
def build (width height : UInt32) (f : Nat → Nat → α) : Grid α where
  width := width
  height := height
  cells := Array.ofFn fun i : Fin (width.toNat * height.toNat) =>
    f (i.val % width.toNat) (i.val / width.toNat)
  size_cells := Array.size_ofFn

/-- Applies a function to every cell. -/
def map (f : α → β) (grid : Grid α) : Grid β where
  width := grid.width
  height := grid.height
  cells := grid.cells.map f
  size_cells := by rw [Array.size_map, grid.size_cells]

/-- The grid made of the first cells of a store, if it holds enough. -/
def ofCells? (width height : UInt32) (store : Array α) : Option (Grid α) :=
  if h : width.toNat * height.toNat ≤ store.size then
    some ⟨width, height, store.extract 0 (width.toNat * height.toNat), by
      rw [Array.size_extract, Nat.min_eq_left h, Nat.sub_zero]⟩
  else none

end Grid

end GlyphStrip
