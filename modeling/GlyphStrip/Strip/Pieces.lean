/-!
# Cutting a list into pieces

A list is cut into pieces of one length; what is left over at the end is dropped.
-/

namespace GlyphStrip

variable {α : Type}

/-- The full pieces of length `n + 1` of a list. -/
def pieces (n : Nat) (items : List α) : List (List α) :=
  if n < items.length then items.take (n + 1) :: pieces n (items.drop (n + 1)) else []
termination_by items.length
decreasing_by simp only [List.length_drop]; omega

theorem pieces_of_short {n : Nat} {items : List α} (h : items.length ≤ n) :
    pieces n items = [] := by
  rw [pieces, if_neg (Nat.not_lt.2 h)]

/-- A full piece in front is cut off. -/
theorem pieces_append {n : Nat} {piece : List α} (h : piece.length = n + 1) (items : List α) :
    pieces n (piece ++ items) = piece :: pieces n items := by
  have hlong : n < (piece ++ items).length := by rw [List.length_append]; omega
  rw [pieces, if_pos hlong, List.take_left' h, List.drop_left' h]

theorem length_pieces (n : Nat) (items : List α) :
    (pieces n items).length = items.length / (n + 1) := by
  fun_induction pieces n items with
  | case1 items h ih =>
    rw [List.length_cons, ih, List.length_drop]
    rw [Nat.div_eq_sub_div (Nat.succ_pos n) (by omega : n + 1 ≤ items.length)]
  | case2 items h => rw [List.length_nil, Nat.div_eq_of_lt (by omega)]

theorem length_of_mem_pieces {n : Nat} {items piece : List α} (h : piece ∈ pieces n items) :
    piece.length = n + 1 := by
  fun_induction pieces n items with
  | case1 items hn ih =>
    rcases List.mem_cons.1 h with rfl | h
    · rw [List.length_take]; omega
    · exact ih h
  | case2 => simp at h

end GlyphStrip
