import GlyphStrip.Text.Split

/-!
# Splitting undoes joining

Splitting a text gives pieces without the separator (`notMem_of_mem_split`), and such pieces come
back when they are joined and split again (`split_join`). Both go part by part (`split_append_cons`,
`join_append`).
-/

namespace GlyphStrip.Text

theorem split_append {separator : Char} {piece : List Char} (hpiece : separator ∉ piece)
    (rest : List Char) :
    split separator (piece ++ separator :: rest) = piece :: split separator rest := by
  induction piece with
  | nil => simp [split]
  | cons c piece ih =>
    have hc : c ≠ separator := fun h => hpiece (h ▸ List.mem_cons_self)
    rw [List.cons_append, split, if_neg hc, ih fun h => hpiece (List.mem_cons_of_mem c h)]

/-- A text is split around any occurrence. -/
theorem split_append_cons (separator : Char) (front rest : List Char) :
    split separator (front ++ separator :: rest) =
      split separator front ++ split separator rest := by
  induction front with
  | nil => simp [split]
  | cons c front ih =>
    rw [List.cons_append, split, split, ih]
    by_cases hc : c = separator
    · rw [if_pos hc, if_pos hc, List.cons_append]
    · rw [if_neg hc, if_neg hc]
      cases hfront : split separator front with
      | nil => exact absurd hfront (split_ne_nil separator front)
      | cons piece pieces => rfl

theorem split_flatMap {α : Type} {separator : Char} (pieceOf : α → List Char) (items : List α)
    (h : ∀ item ∈ items, separator ∉ pieceOf item) :
    split separator (items.flatMap fun item => pieceOf item ++ [separator]) =
      items.map pieceOf ++ [[]] := by
  induction items with
  | nil => rfl
  | cons item items ih =>
    obtain ⟨hitem, hitems⟩ := List.forall_mem_cons.1 h
    rw [List.flatMap_cons, List.append_assoc, List.singleton_append, split_append hitem,
      ih hitems, List.map_cons, List.cons_append]

theorem notMem_of_mem_split {separator : Char} {text piece : List Char}
    (h : piece ∈ split separator text) : separator ∉ piece := by
  induction text generalizing piece with
  | nil =>
    obtain rfl := List.mem_singleton.1 h
    exact List.not_mem_nil
  | cons c rest ih =>
    rw [split] at h
    split at h
    · rcases List.mem_cons.1 h with rfl | h
      · exact List.not_mem_nil
      · exact ih h
    · rename_i hc
      split at h
      · obtain rfl := List.mem_singleton.1 h
        simpa using Ne.symm hc
      · rename_i first pieces hpieces
        rw [hpieces] at ih
        rcases List.mem_cons.1 h with rfl | h
        · rw [List.mem_cons, not_or]
          exact ⟨Ne.symm hc, ih List.mem_cons_self⟩
        · exact ih (List.mem_cons_of_mem _ h)

theorem split_join {separator : Char} {pieces : List (List Char)} (hne : pieces ≠ [])
    (h : ∀ piece ∈ pieces, separator ∉ piece) :
    split separator (join separator pieces) = pieces := by
  induction pieces with
  | nil => exact absurd rfl hne
  | cons piece pieces ih =>
    obtain ⟨hpiece, hpieces⟩ := List.forall_mem_cons.1 h
    cases pieces with
    | nil => exact split_of_notMem hpiece
    | cons next pieces =>
      rw [join, split_append hpiece, ih (List.cons_ne_nil _ _) hpieces]
      exact List.cons_ne_nil _ _

theorem join_cons {separator : Char} (piece : List Char) {pieces : List (List Char)}
    (h : pieces ≠ []) :
    join separator (piece :: pieces) = piece ++ separator :: join separator pieces := by
  rw [join]
  exact h

theorem join_append {separator : Char} {front rest : List (List Char)} (hfront : front ≠ [])
    (hrest : rest ≠ []) :
    join separator (front ++ rest) = join separator front ++ separator :: join separator rest := by
  induction front with
  | nil => exact absurd rfl hfront
  | cons piece front ih =>
    cases front with
    | nil => exact join_cons piece hrest
    | cons next front =>
      have hnext := List.cons_ne_nil next front
      rw [List.cons_append, join_cons piece (List.append_ne_nil_of_left_ne_nil hnext rest),
        ih hnext, join_cons piece hnext, List.append_assoc, List.cons_append]

/-- Any other character of a text is in one of its pieces. -/
theorem mem_join_iff {separator c : Char} (hc : c ≠ separator) (pieces : List (List Char)) :
    c ∈ join separator pieces ↔ ∃ piece ∈ pieces, c ∈ piece := by
  induction pieces with
  | nil => simp [join]
  | cons piece pieces ih =>
    cases pieces with
    | nil => simp [join]
    | cons next pieces =>
      rw [join_cons piece (List.cons_ne_nil next pieces), List.mem_append, List.mem_cons, ih]
      simp [hc]

end GlyphStrip.Text
