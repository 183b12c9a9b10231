import GlyphStrip.Path.Parent
import GlyphStrip.Proofs.Text.Split
import Mathlib.Data.List.Induction
import Mathlib.Data.List.TakeWhile

/-!
# The directory of a path

A path whose last step is a name has that name for its last segment, up to slashes at its end
(`segments_of_getLast?`). What stands in front is put together again as the directory of the path,
less steps at its end that stay (`steps_directory`).
-/

namespace GlyphStrip.Path

/-! ## Segments -/

theorem slash_notMem_of_mem_segments {path segment : String} (h : segment ∈ segments path) :
    '/' ∉ segment.toList := by
  obtain ⟨piece, hpiece, rfl⟩ := List.mem_map.1 h
  rw [String.toList_ofList]
  exact Text.notMem_of_mem_split hpiece

theorem isAbsolute_iff {path first : String} {others : List String}
    (h : segments path = first :: others) :
    isAbsolute path = true ↔ first = "" ∧ others ≠ [] := by
  rw [segments] at h
  rw [isAbsolute]
  cases htext : path.toList with
  | nil =>
    rw [htext] at h
    obtain ⟨rfl, rfl⟩ := List.cons.inj h
    simp
  | cons c rest =>
    rw [htext, Text.split] at h
    have hne := Text.split_ne_nil '/' rest
    by_cases hc : c = '/'
    · rw [if_pos hc] at h
      obtain ⟨rfl, rfl⟩ := List.cons.inj h
      simpa [hc] using hne
    · rw [if_neg hc] at h
      have hfirst : first ≠ "" := by
        rintro rfl
        split at h <;> simp at h
      simp [hc, hfirst]

/-- The steps that some segments stand for. -/
theorem steps_of_segments {path : String} {pieces : List String} (h : segments path = pieces) :
    steps path = pieces.filterMap Step.ofSegment? := by
  rw [steps, h]

theorem segments_assemble {first : String} {others : List String}
    (hslash : ∀ segment ∈ first :: others, '/' ∉ segment.toList)
    (hroot : ¬(first = "" ∧ others = [])) :
    segments (assemble first others) = first :: others := by
  have hsplit : Text.split '/' (Text.join '/' ((first :: others).map String.toList)) =
      (first :: others).map String.toList := by
    apply Text.split_join (by simp)
    intro piece hpiece
    obtain ⟨segment, hsegment, rfl⟩ := List.mem_map.1 hpiece
    exact hslash segment hsegment
  rw [assemble, if_neg hroot, segments, String.toList_ofList, hsplit, List.map_map]
  simp

theorem steps_assemble {first : String} {others : List String}
    (hslash : ∀ segment ∈ first :: others, '/' ∉ segment.toList) :
    steps (assemble first others) = (first :: others).filterMap Step.ofSegment? := by
  by_cases hroot : first = "" ∧ others = []
  · obtain ⟨rfl, rfl⟩ := hroot
    decide +kernel
  · exact steps_of_segments (segments_assemble hslash hroot)

theorem isAbsolute_assemble {first : String} {others : List String}
    (hslash : ∀ segment ∈ first :: others, '/' ∉ segment.toList) :
    isAbsolute (assemble first others) = true ↔ first = "" := by
  by_cases hroot : first = "" ∧ others = []
  · obtain ⟨rfl, rfl⟩ := hroot
    exact ⟨fun _ => rfl, fun _ => by decide +kernel⟩
  · rw [isAbsolute_iff (segments_assemble hslash hroot)]
    exact ⟨fun h => h.1, fun h => ⟨h, fun hothers => hroot ⟨h, hothers⟩⟩⟩

/-! ## Steps of segments -/

theorem eq_empty_of_ofSegment? {segment : String} (h : Step.ofSegment? segment = none) :
    segment = "" := by
  rw [Step.ofSegment?] at h
  split at h
  · assumption
  · split at h
    · cases h
    · split at h <;> cases h

theorem eq_name_of_ofSegment? {segment name : String}
    (h : Step.ofSegment? segment = some (.enter name)) :
    segment = name ∧ isIdle segment = false := by
  rw [Step.ofSegment?] at h
  split at h
  · cases h
  · split at h
    · cases h
    · split at h
      · cases h
      · rename_i hempty hdot _
        exact ⟨Step.enter.inj (Option.some.inj h), by simp [isIdle, hempty, hdot]⟩

/-- Idle segments stay where one is. -/
theorem filterMap_of_idle {idle : List String} (h : ∀ segment ∈ idle, isIdle segment = true) :
    ∃ n, idle.filterMap Step.ofSegment? = List.replicate n .stay := by
  induction idle with
  | nil => exact ⟨0, rfl⟩
  | cons segment idle ih =>
    obtain ⟨hsegment, hidle⟩ := List.forall_mem_cons.1 h
    obtain ⟨n, hn⟩ := ih hidle
    rw [isIdle, Bool.or_eq_true, beq_iff_eq, beq_iff_eq] at hsegment
    rcases hsegment with rfl | rfl
    · exact ⟨n, by rw [List.filterMap_cons_none rfl, hn]⟩
    · have hdot : Step.ofSegment? "." = some .stay := by decide
      exact ⟨n + 1, by rw [List.filterMap_cons_some hdot, hn, List.replicate_succ]⟩

/-- The last step comes from the last segment that is not empty. -/
theorem segments_of_getLast? {segments : List String} {name : String}
    (h : (segments.filterMap Step.ofSegment?).getLast? = some (.enter name)) :
    ∃ before behind, segments = before ++ name :: behind ∧
      (∀ segment ∈ behind, segment = "") ∧ Step.ofSegment? name = some (.enter name) := by
  induction segments using List.reverseRecOn with
  | nil => cases h
  | append_singleton segments last ih =>
    rw [List.filterMap_append] at h
    cases hlast : Step.ofSegment? last with
    | none =>
      rw [List.filterMap_cons_none hlast, List.filterMap_nil, List.append_nil] at h
      obtain ⟨before, behind, rfl, hbehind, hname⟩ := ih h
      refine ⟨before, behind ++ [last], by simp, ?_, hname⟩
      intro segment hsegment
      rcases List.mem_append.1 hsegment with hsegment | hsegment
      · exact hbehind segment hsegment
      · rw [List.mem_singleton.1 hsegment]
        exact eq_empty_of_ofSegment? hlast
    | some step =>
      rw [List.filterMap_cons_some hlast, List.filterMap_nil, List.getLast?_concat,
        Option.some.injEq] at h
      subst h
      obtain ⟨rfl, _⟩ := eq_name_of_ofSegment? hlast
      exact ⟨segments, [], rfl, by simp, hlast⟩

/-! ## Parents -/

theorem around_append_of_idle (first : String) {idle : List String}
    (h : ∀ segment ∈ idle, isIdle segment = true) (rest : List String) :
    around first (idle ++ rest) = around first rest := by
  induction idle with
  | nil => rfl
  | cons segment idle ih =>
    obtain ⟨hsegment, hidle⟩ := List.forall_mem_cons.1 h
    rw [List.cons_append, around, if_pos hsegment, ih hidle]

theorem trim_append_idle (segments : List String) :
    ∃ idle, segments = trim segments ++ idle ∧ ∀ segment ∈ idle, isIdle segment = true := by
  refine ⟨(segments.reverse.takeWhile isIdle).reverse, ?_, ?_⟩
  · rw [trim, ← List.reverse_append, List.takeWhile_append_dropWhile, List.reverse_reverse]
  · intro segment hsegment
    exact List.mem_takeWhile_imp (List.mem_reverse.1 hsegment)

/-- The empty text is never put together again. -/
theorem assemble_ne_empty (first : String) (others : List String) : assemble first others ≠ "" := by
  rw [assemble]
  split
  · decide
  · rename_i hroot
    intro h
    have htext := congrArg String.toList h
    rw [String.toList_ofList] at htext
    cases others with
    | nil => exact hroot ⟨by simpa [Text.join] using htext, rfl⟩
    | cons next others => simp [Text.join] at htext

section directory

variable {path name : String} {behind : List String} (hbehind : ∀ segment ∈ behind, segment = "")
include hbehind

theorem isIdle_of_behind : ∀ segment ∈ behind.reverse, isIdle segment = true := by
  intro segment hsegment
  rw [hbehind segment (List.mem_reverse.1 hsegment)]
  rfl

theorem directory_of_name (hsegments : segments path = name :: behind) : directory path = "." := by
  have hparents : enclosing path = [] := by
    have haround := around_append_of_idle name (isIdle_of_behind hbehind) []
    rw [List.append_nil] at haround
    rw [enclosing, hsegments]
    exact haround
  rw [directory, parent?, hparents]
  dsimp only
  by_cases hnone : (path.isEmpty || isAbsolute path) = true
  · rw [if_pos hnone]
  · rw [if_neg hnone]
    rfl

theorem directory_of_front {first : String} {middle : List String}
    (hsegments : segments path = first :: middle ++ name :: behind) (hname : isIdle name = false) :
    directory path = assemble first (trim middle) := by
  have hparents : enclosing path =
      assemble first (trim middle) :: around first middle.reverse := by
    rw [enclosing, hsegments, List.cons_append]
    dsimp only
    rw [List.reverse_append, List.reverse_cons, List.append_assoc,
      around_append_of_idle first (isIdle_of_behind hbehind), List.singleton_append, around, hname,
      List.reverse_reverse]
    rfl
  rw [directory, parent?, hparents]
  dsimp only
  rw [if_neg (assemble_ne_empty first (trim middle))]

end directory

/-- The steps in front of the last one lead where the directory of the path does. -/
theorem steps_directory {path name : String}
    (hlast : (steps path).getLast? = some (.enter name)) :
    isAbsolute (directory path) = isAbsolute path ∧
      ∃ n, (steps path).dropLast ++ [.stay] =
        steps (directory path) ++ List.replicate n .stay := by
  obtain ⟨before, behind, hsegments, hbehind, hname⟩ := segments_of_getLast? hlast
  obtain ⟨_, hnotIdle⟩ := eq_name_of_ofSegment? hname
  have hnone : behind.filterMap Step.ofSegment? = [] := by
    rw [List.filterMap_eq_nil_iff]
    intro segment hsegment
    rw [hbehind segment hsegment]
    rfl
  have hfront : (steps path).dropLast = before.filterMap Step.ofSegment? := by
    rw [steps_of_segments hsegments, List.filterMap_append, List.filterMap_cons_some hname, hnone,
      List.dropLast_concat]
  rw [hfront]
  cases before with
  | nil =>
    rw [List.nil_append] at hsegments
    rw [directory_of_name hbehind hsegments]
    have hrelative : isAbsolute path = false := by
      rw [Bool.eq_false_iff, ne_eq, isAbsolute_iff hsegments]
      rintro ⟨rfl, _⟩
      cases hname
    have hdot : steps "." = [.stay] := by decide +kernel
    have hhere : isAbsolute "." = false := by decide +kernel
    exact ⟨hhere.trans hrelative.symm, 0, by rw [hdot]; rfl⟩
  | cons first middle =>
    obtain ⟨idle, hmiddle, hidle⟩ := trim_append_idle middle
    obtain ⟨n, hn⟩ := filterMap_of_idle hidle
    have hslash : ∀ segment ∈ first :: trim middle, '/' ∉ segment.toList := by
      intro segment hsegment
      have hmem : segment ∈ segments path := by
        rw [hsegments, List.cons_append, hmiddle]
        rcases List.mem_cons.1 hsegment with rfl | hsegment
        · exact List.mem_cons_self
        · exact List.mem_cons_of_mem _ (List.mem_append_left _ (List.mem_append_left _ hsegment))
      exact slash_notMem_of_mem_segments hmem
    rw [directory_of_front hbehind hsegments hnotIdle]
    refine ⟨?_, n + 1, ?_⟩
    · rw [Bool.eq_iff_iff, isAbsolute_assemble hslash, isAbsolute_iff hsegments]
      simp
    · rw [steps_assemble hslash, List.replicate_succ', ← List.append_assoc, ← hn,
        ← List.filterMap_append, List.cons_append, ← hmiddle]

end GlyphStrip.Path
