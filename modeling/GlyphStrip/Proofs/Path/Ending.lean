import GlyphStrip.Proofs.Path.Parent

/-!
# How a path ends

What stands behind the last slash of a path is its last segment. If that is an ordinary name, it is
the last step of the path (`getLast?_steps`), and the directory of the path with this name behind it
has the same text but for what is idle (`directory_cases`) and enters the same names
(`enter_mem_steps_beside`). If not, the path ends at no name, or with a slash (`ends_at_no_name`).
-/

namespace GlyphStrip.Path

/-- What stands behind the last slash of a path. -/
def lastSegment (path : String) : String :=
  (segments path).getLastD ""

/-- A name that tells an entry of a directory from others. -/
def IsOrdinary (name : String) : Prop :=
  name ≠ "" ∧ name ≠ "." ∧ name ≠ ".."

instance (name : String) : Decidable (IsOrdinary name) :=
  inferInstanceAs (Decidable (name ≠ "" ∧ name ≠ "." ∧ name ≠ ".."))

/-- The path of a name in a directory. -/
def beside (directory name : String) : String :=
  directory ++ "/" ++ name

variable {path : String}

/-! ## The last segment -/

theorem exists_segments_eq (path : String) :
    ∃ before, segments path = before ++ [lastSegment path] := by
  have hne : segments path ≠ [] := by
    rw [segments, ne_eq, List.map_eq_nil_iff]
    exact Text.split_ne_nil '/' path.toList
  refine ⟨(segments path).dropLast, ?_⟩
  rw [lastSegment, List.getLastD_eq_getLast?, List.getLast?_eq_some_getLast hne, Option.getD_some,
    List.dropLast_concat_getLast hne]

theorem slash_notMem_lastSegment (path : String) : '/' ∉ (lastSegment path).toList := by
  obtain ⟨before, hsegments⟩ := exists_segments_eq path
  exact slash_notMem_of_mem_segments (by rw [hsegments]; simp)

/-- A path is its segments with slashes between them. -/
theorem toList_of_segments {pieces : List String} (h : segments path = pieces) :
    path.toList = Text.join '/' (pieces.map String.toList) := by
  rw [← h, segments, List.map_map]
  simp [Function.comp_def, Text.join_split]

/-- Segments with slashes between them end with the last one. -/
theorem join_concat_cases (pieces : List (List Char)) (last : List Char) :
    Text.join '/' (pieces ++ [last]) = last ∨
      ∃ front, Text.join '/' (pieces ++ [last]) = front ++ '/' :: last := by
  by_cases h : pieces = []
  · rw [h]
    exact Or.inl rfl
  · exact Or.inr ⟨_, Text.join_append h (List.cons_ne_nil _ _)⟩

theorem toList_eq_front_lastSegment (path : String) :
    path.toList = (lastSegment path).toList ∨
      ∃ front, path.toList = front ++ '/' :: (lastSegment path).toList := by
  obtain ⟨before, hsegments⟩ := exists_segments_eq path
  have htext := toList_of_segments hsegments
  rw [List.map_append, List.map_singleton] at htext
  rw [htext]
  exact join_concat_cases _ _

theorem endsWithSlash_iff : endsWithSlash path = true ↔ path ≠ "" ∧ lastSegment path = "" := by
  have hslash := slash_notMem_lastSegment path
  have htext := toList_eq_front_lastSegment path
  rw [endsWithSlash, beq_iff_eq, ne_eq, ← String.toList_eq_nil_iff, ← String.toList_eq_nil_iff]
  generalize (lastSegment path).toList = last at hslash htext
  have hlast : last.getLast? ≠ some '/' := fun h => hslash (List.mem_of_getLast? h)
  rcases htext with htext | ⟨front, htext⟩
  · rw [htext]
    simp [hlast]
  · rw [htext]
    cases last with
    | nil => simp
    | cons c last => simpa using hlast

/-- Every character that stands for something else than a slash or a dot is part of a name. -/
theorem mem_toList_iff {c : Char} (hslash : c ≠ '/') (hdot : c ≠ '.') :
    c ∈ path.toList ↔ ∃ name, .enter name ∈ steps path ∧ c ∈ name.toList := by
  rw [toList_of_segments rfl, Text.mem_join_iff hslash]
  simp only [steps, List.mem_map, List.mem_filterMap, exists_exists_and_eq_and]
  constructor
  · rintro ⟨segment, hsegment, hc⟩
    have hordinary : Step.ofSegment? segment = some (.enter segment) := by
      rw [Step.ofSegment?, if_neg, if_neg, if_neg]
      all_goals
        rintro rfl
        simp [hdot] at hc
    exact ⟨segment, ⟨segment, hsegment, hordinary⟩, hc⟩
  · rintro ⟨name, ⟨segment, hsegment, hname⟩, hc⟩
    obtain ⟨rfl, _⟩ := eq_name_of_ofSegment? hname
    exact ⟨_, hsegment, hc⟩

/-! ## Ordinary names -/

theorem ofSegment?_of_isOrdinary {name : String} (h : IsOrdinary name) :
    Step.ofSegment? name = some (.enter name) := by
  rw [Step.ofSegment?, if_neg h.1, if_neg h.2.1, if_neg h.2.2]

theorem isIdle_of_isOrdinary {name : String} (h : IsOrdinary name) : isIdle name = false := by
  simp [isIdle, h.1, h.2.1]

theorem getLast?_steps (h : IsOrdinary (lastSegment path)) :
    (steps path).getLast? = some (.enter (lastSegment path)) := by
  obtain ⟨before, hsegments⟩ := exists_segments_eq path
  rw [steps_of_segments hsegments, List.filterMap_append,
    List.filterMap_cons_some (ofSegment?_of_isOrdinary h), List.filterMap_nil, List.getLast?_concat]

/-- Any other path is empty, ends with a slash or ends at no name. -/
theorem ends_at_no_name (h : ¬ IsOrdinary (lastSegment path)) :
    path = "" ∨ endsWithSlash path = true ∨
      ∀ name, (steps path).getLast? ≠ some (.enter name) := by
  by_cases hlast : lastSegment path = ""
  · by_cases hpath : path = ""
    · exact Or.inl hpath
    · exact Or.inr (Or.inl (endsWithSlash_iff.2 ⟨hpath, hlast⟩))
  · refine Or.inr (Or.inr fun name => ?_)
    obtain ⟨before, hsegments⟩ := exists_segments_eq path
    have hdots : lastSegment path = "." ∨ lastSegment path = ".." := by
      simpa [IsOrdinary, hlast, or_iff_not_imp_left] using h
    have hstep : ∃ step, Step.ofSegment? (lastSegment path) = some step ∧ step ≠ .enter name := by
      rcases hdots with hdot | hdots
      · exact ⟨.stay, by rw [hdot]; decide, by simp⟩
      · exact ⟨.up, by rw [hdots]; decide, by simp⟩
    obtain ⟨step, hstep, hne⟩ := hstep
    rw [steps_of_segments hsegments, List.filterMap_append, List.filterMap_cons_some hstep,
      List.filterMap_nil, List.getLast?_concat]
    simpa using hne

/-! ## The directory and the name -/

/-- The directory of a path is never the empty path. -/
theorem directory_ne_empty (path : String) : directory path ≠ "" := by
  rw [directory]
  split
  · decide
  · split_ifs with hempty
    · decide
    · exact hempty

theorem segments_beside (directory : String) {name : String} (hslash : '/' ∉ name.toList) :
    segments (beside directory name) = segments directory ++ [name] := by
  rw [segments, beside, String.toList_append, String.toList_append, List.append_assoc]
  show List.map _ (Text.split '/' (directory.toList ++ '/' :: name.toList)) = _
  rw [Text.split_append_cons, Text.split_of_notMem hslash, List.map_append, List.map_singleton,
    String.ofList_toList, segments]

theorem lastSegment_beside (directory : String) {name : String} (hslash : '/' ∉ name.toList) :
    lastSegment (beside directory name) = name := by
  rw [lastSegment, segments_beside directory hslash, List.getLastD_concat]

theorem steps_beside (directory : String) {name : String} (hslash : '/' ∉ name.toList)
    (hname : IsOrdinary name) :
    steps (beside directory name) = steps directory ++ [.enter name] := by
  rw [steps_of_segments (segments_beside directory hslash), List.filterMap_append,
    List.filterMap_cons_some (ofSegment?_of_isOrdinary hname), List.filterMap_nil, steps]

/-- A path that ends at an ordinary name has no slash at its end. -/
theorem allSteps_of_isOrdinary (h : IsOrdinary (lastSegment path)) :
    allSteps path = steps path := by
  rw [allSteps, if_neg]
  intro hends
  exact h.1 (endsWithSlash_iff.1 hends).2

theorem steps_eq_concat (h : IsOrdinary (lastSegment path)) :
    steps path = (steps path).dropLast ++ [.enter (lastSegment path)] := by
  obtain ⟨front, hfront⟩ := List.getLast?_eq_some_iff.1 (getLast?_steps h)
  rw [hfront, List.dropLast_concat]

/-- The directory with the name behind it enters the names that the path enters. -/
theorem enter_mem_steps_beside (h : IsOrdinary (lastSegment path)) (name : String) :
    .enter name ∈ steps (beside (directory path) (lastSegment path)) ↔
      .enter name ∈ steps path := by
  obtain ⟨_, n, hsteps⟩ := steps_directory (getLast?_steps h)
  have hfront : .enter name ∈ (steps path).dropLast ↔ .enter name ∈ steps (directory path) := by
    have hmem := congrArg (Step.enter name ∈ ·) hsteps
    simpa [List.mem_replicate] using hmem
  rw [steps_beside _ (slash_notMem_lastSegment path) h, steps_eq_concat h, List.mem_append,
    List.mem_append, hfront]

theorem isAbsolute_beside {directory : String} (h : directory ≠ "") (name : String) :
    isAbsolute (beside directory name) = isAbsolute directory := by
  obtain ⟨c, rest, hdirectory⟩ := List.exists_cons_of_ne_nil (String.toList_eq_nil_iff.not.2 h)
  rw [isAbsolute, isAbsolute, beside, String.toList_append, String.toList_append, hdirectory]
  rfl

/-- A path is its directory and its name with idle text between them, unless its directory is the
working directory or the root. -/
theorem directory_cases (h : IsOrdinary (lastSegment path)) :
    (directory path = "." ∨ directory path = "/") ∨
      ∃ between, path = directory path ++ "/" ++ between ++ lastSegment path := by
  obtain ⟨before, hsegments⟩ := exists_segments_eq path
  have hbehind : ∀ segment ∈ ([] : List String), segment = "" := by simp
  cases before with
  | nil => exact Or.inl (Or.inl (directory_of_name hbehind hsegments))
  | cons first middle =>
    obtain ⟨idle, hmiddle, _⟩ := trim_append_idle middle
    have hdirectory := directory_of_front hbehind hsegments (isIdle_of_isOrdinary h)
    by_cases hroot : first = "" ∧ trim middle = []
    · exact Or.inl (Or.inr (by rw [hdirectory, assemble, if_pos hroot]))
    · right
      have hfront : (directory path).toList =
          Text.join '/' ((first :: trim middle).map String.toList) := by
        rw [hdirectory, assemble, if_neg hroot, String.toList_ofList]
      have htext : path.toList = (directory path).toList ++
          '/' :: Text.join '/' ((idle ++ [lastSegment path]).map String.toList) := by
        rw [hfront, ← Text.join_append (by simp) (by simp), ← List.map_append]
        apply toList_of_segments
        rw [hsegments, List.cons_append, List.cons_append, ← List.append_assoc, ← hmiddle]
      rw [List.map_append, List.map_singleton] at htext
      rcases join_concat_cases (idle.map String.toList) (lastSegment path).toList with
        hlast | ⟨between, hlast⟩
      · rw [hlast] at htext
        exact ⟨"", String.toList_inj.1 (by simp [htext])⟩
      · rw [hlast] at htext
        exact ⟨String.ofList (between ++ ['/']), String.toList_inj.1 (by simp [htext])⟩

end GlyphStrip.Path
