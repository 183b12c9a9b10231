import GlyphStrip.Proofs.Conversion
import GlyphStrip.Proofs.Path.Ending

/-!
# Where a font is moved to

A font is moved to an entry of the directory that its scratch file is in: all steps of a path but
the last lead where the directory of the path leads (`walk_directory`). So the directory with the
last name behind it names the same entry (`sameEntry_beside`), and a move never leaves it
(`eq_of_move`). A path that is too long for a walk, or whose name is, names nothing
(`namesNothing_of_overlong`, `namesNothing_of_long_name`), and a path that ends at no name is never
moved to (`not_replaceable`).
-/

namespace GlyphStrip

namespace Disk

open GlyphStrip.Path (Step IsOrdinary lastSegment beside)

variable {disk : Disk} {path : String}

/-- Two paths name one entry, or neither names any, and both lead to one place or fail alike. -/
structure SameEntry (disk : Disk) (path other : String) : Prop where
  slot : disk.slot other = disk.slot path
  place : disk.resolve other = disk.resolve path

/-- A path that leads nowhere and that no file can be moved to. -/
structure NamesNothing (disk : Disk) (path : String) : Prop where
  resolve : ∀ place, disk.resolve path ≠ .ok place
  replaceable : ∀ target, disk.replaceable path ≠ .ok target

theorem checkPath_eq_ok_iff : checkPath path = .ok () ↔
    '\x00' ∉ path.toList ∧ path ≠ "" ∧ path.utf8ByteSize < pathBound := by
  rw [checkPath]
  split_ifs with hnull hempty hlong
  · have hmem : '\x00' ∈ path.toList := by simpa using hnull
    simp [hmem]
  · simp [String.isEmpty_iff.1 hempty]
  · simp [Nat.not_lt.2 hlong]
  · have hmem : '\x00' ∉ path.toList := by simpa using hnull
    have hne : path ≠ "" := fun h => hempty (String.isEmpty_iff.2 h)
    simp [hmem, hne, Nat.lt_of_not_le hlong]

/-- Publishing at a path that no file can be moved to fails and leaves the disk as it was. -/
theorem publishOn_of_not_replaceable (h : ∀ target, disk.replaceable path ≠ .ok target)
    (device : Device) (font : Font) :
    ∃ error, disk.publishOn device path font = (.error error, disk) := by
  rcases @publishOn_cases disk path font device with hfail | ⟨target, htarget, _⟩
  · exact hfail
  · exact absurd htarget (h target)

/-! ## The way to the directory -/

/-- Staying once more changes nothing. -/
theorem walk_stays (disk : Disk) (links : Nat) (place : Place) (front : List Step) (n : Nat) :
    disk.walk links place (front ++ List.replicate (n + 1) .stay) =
      disk.walk links place (front ++ [.stay]) := by
  rw [walk_append, walk_append]
  congr 1
  funext middle
  by_cases hplace : disk.find? middle.place = some .directory
  · induction n with
    | zero => rfl
    | succ n ih =>
      rw [List.replicate_succ, walk, hplace]
      exact ih
  · rw [List.replicate_succ, walk_of_ne_directory hplace, walk_of_ne_directory hplace]

/-- Entering a name asks for a directory, as staying does. -/
theorem walk_enter (disk : Disk) (links : Nat) (place : Place) (front : List Step) (name : String) :
    disk.walk links place (front ++ [.enter name]) =
      (disk.walk links place (front ++ [.stay])).bind fun middle =>
        disk.walk middle.links middle.place [.enter name] := by
  rw [walk_append, walk_append]
  cases disk.walk links place front with
  | error fault => rfl
  | ok middle =>
    simp only [Except.bind]
    by_cases hplace : disk.find? middle.place = some .directory
    · have hstay : disk.walk middle.links middle.place [.stay] = .ok middle := by
        rw [walk, hplace]
        dsimp only
        rw [walk]
      rw [hstay]
    · rw [walk_of_ne_directory hplace, walk_of_ne_directory hplace]

theorem lastSegment_beside (path : String) :
    lastSegment (beside (Path.directory path) (lastSegment path)) = lastSegment path :=
  Path.lastSegment_beside _ (Path.slash_notMem_lastSegment path)

section ordinary

variable (h : IsOrdinary (lastSegment path))
include h

/-- All steps but the last lead where the directory leads. -/
theorem walk_directory (disk : Disk) (links : Nat) (start : Place) :
    disk.walk links start ((Path.steps path).dropLast ++ [.stay]) =
      disk.walk links start (Path.steps (Path.directory path) ++ [.stay]) := by
  obtain ⟨_, n, hsteps⟩ := Path.steps_directory (Path.getLast?_steps h)
  calc
    disk.walk links start ((Path.steps path).dropLast ++ [.stay])
      = disk.walk links start ((Path.steps path).dropLast ++ List.replicate (1 + 1) .stay) :=
        (walk_stays disk links start _ 1).symm
    _ = disk.walk links start
          (Path.steps (Path.directory path) ++ List.replicate (n + 1) .stay) := by
        rw [List.replicate_succ', ← List.append_assoc, List.replicate_one, hsteps,
          List.replicate_succ', List.append_assoc]
    _ = disk.walk links start (Path.steps (Path.directory path) ++ [.stay]) :=
        walk_stays disk links start _ n

theorem isOrdinary_beside :
    IsOrdinary (lastSegment (beside (Path.directory path) (lastSegment path))) := by
  rwa [lastSegment_beside]

theorem origin_directory (base : Place) : origin (Path.directory path) base = origin path base := by
  rw [origin, origin, (Path.steps_directory (Path.getLast?_steps h)).1]

/-! ## The entry of a name -/

theorem origin_beside (base : Place) :
    origin (beside (Path.directory path) (lastSegment path)) base = origin path base := by
  rw [← origin_directory h, origin, origin, Path.isAbsolute_beside (Path.directory_ne_empty path)]

/-- The directory with a short name behind it is refused if the path is. -/
theorem checkPath_beside (hlong : path.utf8ByteSize < pathBound)
    (hname : (lastSegment path).utf8ByteSize ≤ nameLimit) :
    checkPath (beside (Path.directory path) (lastSegment path)) = checkPath path := by
  have hnull : '\x00' ∈ (beside (Path.directory path) (lastSegment path)).toList ↔
      '\x00' ∈ path.toList := by
    rw [Path.mem_toList_iff (by decide) (by decide), Path.mem_toList_iff (by decide) (by decide)]
    simp only [Path.enter_mem_steps_beside h]
  have hempty : path.isEmpty = false := by
    rw [Bool.eq_false_iff, ne_eq, String.isEmpty_iff]
    rintro rfl
    exact h.1 (by decide +kernel)
  have hempty' : (beside (Path.directory path) (lastSegment path)).isEmpty = false := by
    rw [Bool.eq_false_iff, ne_eq, String.isEmpty_iff, ← String.toList_eq_nil_iff]
    simp [beside]
  have hlong' : (beside (Path.directory path) (lastSegment path)).utf8ByteSize < pathBound := by
    rw [beside, String.utf8ByteSize_append, String.utf8ByteSize_append]
    have hslash : "/".utf8ByteSize = 1 := rfl
    rcases Path.directory_cases h with hdirectory | ⟨between, htext⟩
    · have hone : (Path.directory path).utf8ByteSize = 1 := by
        rcases hdirectory with hdirectory | hdirectory <;> rw [hdirectory] <;> rfl
      have hlimit : nameLimit + 2 < pathBound := by decide
      omega
    · have hsize := congrArg String.utf8ByteSize htext
      simp only [String.utf8ByteSize_append] at hsize
      omega
  rw [checkPath, checkPath, hempty, hempty', if_neg (Nat.not_le.2 hlong),
    if_neg (Nat.not_le.2 hlong')]
  simp only [List.contains_iff_mem, hnull]

/-- A name in the directory of the path is the entry that the path names. -/
theorem sameEntry_beside (disk : Disk) (hlong : path.utf8ByteSize < pathBound)
    (hname : (lastSegment path).utf8ByteSize ≤ nameLimit) :
    disk.SameEntry path (beside (Path.directory path) (lastSegment path)) := by
  have hsteps := Path.steps_beside (Path.directory path) (Path.slash_notMem_lastSegment path) h
  have hslot (place : Place) : Slot.ofSteps (Path.steps (Path.directory path) ++
      [.enter (lastSegment path)]) place = Slot.ofSteps (Path.steps path) place := by
    rw [Slot.ofSteps, Slot.ofSteps, List.getLast?_concat, Path.getLast?_steps h]
  have hall : Path.allSteps (beside (Path.directory path) (lastSegment path)) =
      Path.steps (beside (Path.directory path) (lastSegment path)) :=
    Path.allSteps_of_isOrdinary (isOrdinary_beside h)
  constructor
  · simp only [slot, approach, checkPath_beside h hlong hname, origin_beside h, hsteps,
      List.dropLast_concat, walk_directory h, hslot]
  · rw [resolve, resolve, checkPath_beside h hlong hname, origin_beside h, hall,
      Path.allSteps_of_isOrdinary h, hsteps, Path.steps_eq_concat h, walk_enter, walk_enter,
      walk_directory h]

end ordinary

/-! ## Paths that are too long -/

theorem namesNothing_of_overlong (h : pathBound ≤ path.utf8ByteSize) : disk.NamesNothing path := by
  have hcheck : checkPath path ≠ .ok () := fun hok =>
    absurd (checkPath_eq_ok_iff.1 hok).2.2 (Nat.not_lt.2 h)
  constructor
  · intro place hplace
    exact hcheck (resolve_eq_ok_iff.1 hplace).1
  · intro target htarget
    obtain ⟨_, _, hslot, _⟩ := replaceable_eq_ok_iff.1 htarget
    exact hcheck (slot_eq_named_iff.1 hslot).1

theorem namesNothing_of_long_name (h : IsOrdinary (lastSegment path))
    (hname : nameLimit < (lastSegment path).utf8ByteSize) : disk.NamesNothing path := by
  constructor
  · intro place hplace
    obtain ⟨_, left, hwalks⟩ := resolve_eq_ok_iff.1 hplace
    rw [Path.allSteps_of_isOrdinary h, Path.steps_eq_concat h] at hwalks
    obtain ⟨⟨middle, links⟩, _, hlast⟩ := hwalks.split
    cases hlast with
    | enter _ hshort => exact absurd hname (Nat.not_lt.2 hshort)
    | follow _ hshort => exact absurd hname (Nat.not_lt.2 hshort)
  · intro target htarget
    obtain ⟨_, name, hslot, hshort, _⟩ := replaceable_eq_ok_iff.1 htarget
    obtain ⟨_, hlast, _⟩ := slot_eq_named_iff.1 hslot
    obtain rfl : lastSegment path = name := by simpa [Path.getLast?_steps h] using hlast
    exact absurd hname (Nat.not_lt.2 hshort)

/-! ## Moves -/

/-- A scratch file is moved to an entry of the directory that it is in. -/
theorem eq_of_move (h : IsOrdinary (lastSegment path)) {device : Device}
    {pieces : List (List UInt8)} {scratch target : Place}
    (hmove : .move scratch target ∈ (disk.publicationOn device path pieces).operations) :
    ∃ place name, disk.resolveDirectory (Path.directory path) = .ok place ∧
      scratch = name :: place ∧ target = lastSegment path :: place := by
  have hnone {place : Place} {done : List FileOperation} (hdone : done <+: writing place pieces) :
      FileOperation.move scratch target ∉ done ++ [.remove place] := by
    intro hmem
    rcases List.mem_append.1 hmem with hmem | hmem
    · simpa [writing] using hdone.subset hmem
    · simp at hmem
  have hexit := disk.exit_publicationOn device path pieces
  generalize disk.publicationOn device path pieces = publication at hexit hmove
  cases hexit with
  | uncreated => cases hmove
  | unwritten => exact absurd hmove (hnone (take_prefix_writing _ _ _))
  | unsynced => exact absurd hmove (hnone (List.prefix_append _ _))
  | unmoved => exact absurd hmove (hnone (List.prefix_refl _))
  | @moved place other name hplace _ _ _ htarget =>
    obtain ⟨rfl, rfl⟩ : scratch = name :: place ∧ target = other := by simpa [writing] using hmove
    obtain ⟨_, _, hdirectory⟩ := bind_eq_ok_iff.1 hplace
    refine ⟨place, name, hdirectory, rfl, ?_⟩
    obtain ⟨place', last, hslot, _, _, _, rfl⟩ := replaceable_eq_ok_iff.1 htarget
    obtain ⟨_, hlast, _, hwalks⟩ := slot_eq_named_iff.1 hslot
    obtain ⟨_, _, hwalks'⟩ := resolveDirectory_eq_ok_iff.1 hdirectory
    have hname : lastSegment path = last := by
      simpa [Path.getLast?_steps h] using hlast
    have harrival := hwalks'.walk_eq
    rw [origin_directory h, ← walk_directory h, hwalks.walk_eq, Except.ok.injEq,
      Arrival.mk.injEq] at harrival
    rw [harrival.1, hname]

/-- Nothing is moved over a path that ends at no name. -/
theorem not_replaceable (h : ¬ IsOrdinary (lastSegment path)) (disk : Disk) (target : Place) :
    disk.replaceable path ≠ .ok target := by
  intro htarget
  obtain ⟨_, name, hslot, _, hslash, _, _⟩ := replaceable_eq_ok_iff.1 htarget
  obtain ⟨hcheck, hlast, _⟩ := slot_eq_named_iff.1 hslot
  rcases Path.ends_at_no_name h with hempty | hends | hnone
  · exact (checkPath_eq_ok_iff.1 hcheck).2.1 hempty
  · exact absurd (hends.symm.trans hslash) (by decide)
  · exact hnone name hlast

/-- **A font is moved within one directory, or not at all.** The directory of a path is never the
empty path. If the path ends in an ordinary name and has less than 4096 bytes, then the directory
with this name behind it names the same entry on every disk and leads to the same place, or both
name nothing because the name has more than 255 bytes. Every move over the path starts and ends in
that directory. A longer path names nothing, however short the path of its entry might be, and a
path that ends in no ordinary name is never moved over: publishing at either fails and leaves the
disk as it was, on every device. -/
theorem move_within_directory (path : String) :
    Path.directory path ≠ "" ∧
    (IsOrdinary (lastSegment path) → ∀ disk : Disk,
      (path.utf8ByteSize < 4096 →
        ((lastSegment path).utf8ByteSize ≤ 255 →
          disk.SameEntry path (beside (Path.directory path) (lastSegment path))) ∧
        (255 < (lastSegment path).utf8ByteSize → disk.NamesNothing path ∧
          disk.NamesNothing (beside (Path.directory path) (lastSegment path)))) ∧
      (4096 ≤ path.utf8ByteSize → disk.NamesNothing path ∧
        ∀ device font, ∃ error, disk.publishOn device path font = (.error error, disk)) ∧
      ∀ device pieces scratch target,
        .move scratch target ∈ (disk.publicationOn device path pieces).operations →
          ∃ place name, disk.resolveDirectory (Path.directory path) = .ok place ∧
            scratch = name :: place ∧ target = lastSegment path :: place) ∧
    (¬ IsOrdinary (lastSegment path) → ∀ disk : Disk,
      (∀ target, disk.replaceable path ≠ .ok target) ∧
        ∀ device font, ∃ error, disk.publishOn device path font = (.error error, disk)) := by
  refine ⟨Path.directory_ne_empty path, fun h disk => ⟨fun hshort => ⟨?_, fun hname => ⟨?_, ?_⟩⟩,
    fun hlong => ?_, ?_⟩, fun h disk => ⟨not_replaceable h disk, ?_⟩⟩
  · exact sameEntry_beside h disk hshort
  · exact namesNothing_of_long_name h hname
  · exact namesNothing_of_long_name (isOrdinary_beside h) (by rwa [lastSegment_beside])
  · have hnothing : disk.NamesNothing path := namesNothing_of_overlong hlong
    exact ⟨hnothing, publishOn_of_not_replaceable hnothing.replaceable⟩
  · intro device pieces scratch target hmove
    exact eq_of_move h hmove
  · exact publishOn_of_not_replaceable (not_replaceable h disk)

/-- Idle segments and the root, a move in the working directory, and a slash at the end. -/
theorem move_within_directory_linkedStrip :
    linkedStrip.SameEntry "a/..//./x" "a/../x" ∧ linkedStrip.slot "//x" = linkedStrip.slot "/x" ∧
      (∃ scratch name, scratch = name :: home ∧ .move scratch ("link.png" :: home) ∈
        (linkedStrip.publication "link.png" [[7]]).operations) ∧
      ∃ error, linkedStrip.publish "link.png/" ⟨List.replicate fontSize 7, List.length_replicate⟩ =
        (.error error, linkedStrip) := by
  refine ⟨?_, ?_, ?_, ?_⟩
  · exact (((move_within_directory "a/..//./x").2.1 (by decide +kernel) linkedStrip).1
      (by decide +kernel)).1 (by decide +kernel)
  · exact ((((move_within_directory "/x").2.1 (by decide +kernel) linkedStrip).1
      (by decide +kernel)).1 (by decide +kernel)).slot
  · have hdirectory : linkedStrip.scratchDirectory (Path.directory "link.png") = .ok home :=
      scratchDirectory_linkedStrip (by decide +kernel)
    have htarget : linkedStrip.replaceable "link.png" = .ok ("link.png" :: home) :=
      isName_link.replaceable rfl (by decide +kernel)
    obtain ⟨scratch, _, hplan⟩ := publication_of_replaceable [[7]] hdirectory htarget
    have hmove : .move scratch ("link.png" :: home) ∈
        (linkedStrip.publication "link.png" [[7]]).operations := by
      rw [hplan]
      exact List.mem_append_right _ List.mem_cons_self
    obtain ⟨place, name, _, hscratch, hplace⟩ :=
      ((move_within_directory "link.png").2.1 (by decide +kernel) linkedStrip).2.2 .sound _ _ _
        hmove
    exact ⟨scratch, name, (List.cons.inj hplace).2 ▸ hscratch, hmove⟩
  · exact ((move_within_directory "link.png/").2.2 (by decide +kernel) linkedStrip).2 .sound _

/-! ### A short name behind many slashes -/

/-- A name in the working directory, behind one slash and some more. -/
def slashed (more : Nat) (name : String) : String :=
  "." ++ String.ofList (List.replicate (more + 1) '/') ++ name

section slashed

variable (more : Nat) {name : String}

theorem segments_slashed (hslash : '/' ∉ name.toList) :
    Path.segments (slashed more name) = "." :: List.replicate more "" ++ [name] := by
  have hsplit : Text.split '/' (List.replicate more '/' ++ name.toList) =
      List.replicate more [] ++ [name.toList] := by
    induction more with
    | zero => exact Text.split_of_notMem hslash
    | succ more ih => rw [List.replicate_succ, List.cons_append, Text.split, if_pos rfl, ih]; rfl
  have htext : (slashed more name).toList =
      ['.'] ++ '/' :: (List.replicate more '/' ++ name.toList) := by
    simp [slashed, List.replicate_succ]
  rw [Path.segments, htext, Text.split_append (by decide), hsplit]
  simp

theorem lastSegment_slashed (hslash : '/' ∉ name.toList) :
    lastSegment (slashed more name) = name := by
  rw [lastSegment, segments_slashed more hslash, List.getLastD_concat]

theorem directory_slashed (hslash : '/' ∉ name.toList) (hname : IsOrdinary name) :
    Path.directory (slashed more name) = "." := by
  have hbehind : ∀ segment ∈ ([] : List String), segment = "" := by simp
  have htrim : Path.trim (List.replicate more "") = [] := by
    simp [Path.trim, Path.isIdle]
  rw [Path.directory_of_front hbehind (segments_slashed more hslash)
    (Path.isIdle_of_isOrdinary hname), htrim]
  decide +kernel

theorem utf8ByteSize_slashed :
    (slashed more name).utf8ByteSize = more + 2 + name.utf8ByteSize := by
  have hslashes (n : Nat) : (String.ofList (List.replicate n '/')).utf8ByteSize = n := by
    induction n with
    | zero => rfl
    | succ n ih =>
      rw [List.replicate_succ', String.ofList_append, String.utf8ByteSize_append, ih]
      rfl
  have hdot : ".".utf8ByteSize = 1 := rfl
  rw [slashed, String.utf8ByteSize_append, String.utf8ByteSize_append, hslashes]
  omega

theorem checkPath_slashed (hnull : '\x00' ∉ name.toList)
    (hlong : pathBound ≤ more + 2 + name.utf8ByteSize) :
    checkPath (slashed more name) = .error .invalidFilename := by
  have hcontains : ¬(slashed more name).toList.contains '\x00' := by simp [slashed, hnull]
  have hempty : ¬(slashed more name).isEmpty := by
    simp [String.isEmpty_iff, ← String.toList_eq_nil_iff, slashed]
  rw [checkPath, if_neg hcontains, if_neg hempty, utf8ByteSize_slashed, if_pos hlong]

end slashed

/-- The strip has a short path that leads to it; with 4094 slashes more the same path is too
long. -/
theorem slashed_strip_names_nothing :
    IsOrdinary (lastSegment (slashed 4094 "strip.png")) ∧
    beside (Path.directory (slashed 4094 "strip.png")) (lastSegment (slashed 4094 "strip.png")) =
      "./strip.png" ∧
    linkedStrip.slot "./strip.png" = .ok (.named home "strip.png") ∧
    linkedStrip.resolve "./strip.png" = .ok ("strip.png" :: home) ∧
    linkedStrip.slot (slashed 4094 "strip.png") = .error .invalidFilename ∧
    ¬∀ (path : String) (disk : Disk), IsOrdinary (lastSegment path) →
      disk.slot (beside (Path.directory path) (lastSegment path)) = disk.slot path ∨
        (∀ place, disk.resolve (beside (Path.directory path) (lastSegment path)) ≠ .ok place) ∧
          ∀ place, disk.resolve path ≠ .ok place := by
  have hslash : '/' ∉ "strip.png".toList := by decide
  have hname : IsOrdinary "strip.png" := by decide
  have hlast := lastSegment_slashed 4094 hslash
  have hbeside : beside (Path.directory (slashed 4094 "strip.png"))
      (lastSegment (slashed 4094 "strip.png")) = "./strip.png" := by
    rw [hlast, directory_slashed 4094 hslash hname]
    rfl
  have hsame : linkedStrip.SameEntry "strip.png" "./strip.png" :=
    @sameEntry_beside "strip.png" (by decide +kernel) linkedStrip (by decide +kernel)
      (by decide +kernel)
  have hshort : linkedStrip.slot "./strip.png" = .ok (.named home "strip.png") :=
    hsame.slot.trans (isName_strip.slot rfl)
  have hplace : linkedStrip.resolve "./strip.png" = .ok ("strip.png" :: home) :=
    hsame.place.trans (isName_strip.resolve_of_file rfl rfl)
  have hrefused : linkedStrip.slot (slashed 4094 "strip.png") = .error .invalidFilename := by
    rw [slot, checkPath_slashed 4094 (by decide) (by decide +kernel)]
    rfl
  have hordinary : IsOrdinary (lastSegment (slashed 4094 "strip.png")) := by rwa [hlast]
  refine ⟨hordinary, hbeside, hshort, hplace, hrefused, fun hall => ?_⟩
  rcases hall _ linkedStrip hordinary with hslot | ⟨hnowhere, _⟩
  · rw [hbeside, hshort, hrefused] at hslot
    cases hslot
  · rw [hbeside] at hnowhere
    exact hnowhere _ hplace

end Disk

end GlyphStrip
