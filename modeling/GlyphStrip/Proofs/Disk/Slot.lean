import GlyphStrip.Proofs.Disk.Walk

/-!
# The entry that a path names

A path names a name in a directory: the directory is where all steps but the last lead, and the last
step is the name (`slot_eq_named_iff`). A new file elsewhere leaves it the same entry
(`replaceable_put_fresh`).
-/

namespace GlyphStrip

namespace Disk

@[simp] theorem workplace_put (disk : Disk) (place : Place) (entry : Entry) :
    (disk.put place entry).workplace = disk.workplace :=
  rfl

/-- The disk holds at one place another entry, and all else is as it was. -/
structure Replaces (before after : Disk) (place : Place) (entry : Entry) : Prop where
  replaced : after.find? place = some entry
  others : ∀ other, other ≠ place → after.find? other = before.find? other
  workplace : after.workplace = before.workplace

theorem replaces_put (disk : Disk) {place : Place} (hroot : place ≠ []) (entry : Entry) :
    disk.Replaces (disk.put place entry) place entry where
  replaced := by rw [find?_put disk hroot, if_pos rfl]
  others other hne := by rw [find?_put disk hroot, if_neg hne]
  workplace := rfl

theorem ne_nil_of_find?_eq_none {disk : Disk} {place : Place} (h : disk.find? place = none) :
    place ≠ [] := by
  rintro rfl
  simp [find?] at h

/-! ## Paths that lead somewhere -/

theorem checked_walk_eq_ok_iff {disk : Disk} {path : String} {links : Nat} {start place : Place}
    {steps : List Path.Step} :
    ((checkPath path).bind fun _ => (disk.walk links start steps).map Arrival.place) = .ok place ↔
      checkPath path = .ok () ∧ ∃ left, disk.Walks links start steps ⟨place, left⟩ := by
  simp only [bind_eq_ok_iff, map_eq_ok_iff, walk_eq_ok_iff]
  constructor
  · rintro ⟨_, hcheck, ⟨place, left⟩, hwalks, rfl⟩
    exact ⟨hcheck, left, hwalks⟩
  · rintro ⟨hcheck, left, hwalks⟩
    exact ⟨(), hcheck, ⟨place, left⟩, hwalks, rfl⟩

theorem resolve_eq_ok_iff {disk : Disk} {path : String} {place : Place} :
    disk.resolve path = .ok place ↔ checkPath path = .ok () ∧ ∃ left,
      disk.Walks linkLimit (origin path disk.workplace) (Path.allSteps path) ⟨place, left⟩ :=
  checked_walk_eq_ok_iff

theorem resolveDirectory_eq_ok_iff {disk : Disk} {path : String} {place : Place} :
    disk.resolveDirectory path = .ok place ↔ checkPath path = .ok () ∧ ∃ left,
      disk.Walks linkLimit (origin path disk.workplace) (Path.steps path ++ [.stay])
        ⟨place, left⟩ :=
  checked_walk_eq_ok_iff

/-! ## Slots -/

theorem slot_eq_named_iff {disk : Disk} {path : String} {directory : Place} {name : String} :
    disk.slot path = .ok (.named directory name) ↔
      checkPath path = .ok () ∧ (Path.steps path).getLast? = some (.enter name) ∧
        ∃ links, disk.Walks linkLimit (origin path disk.workplace)
          ((Path.steps path).dropLast ++ [.stay]) ⟨directory, links⟩ := by
  simp only [slot, approach, bind_eq_ok_iff, map_eq_ok_iff, walk_eq_ok_iff, Slot.ofSteps]
  constructor
  · rintro ⟨_, hcheck, ⟨place, links⟩, hwalks, hslot⟩
    split at hslot
    · rename_i last hlast
      obtain ⟨rfl, rfl⟩ := Slot.named.inj hslot
      exact ⟨hcheck, hlast, links, hwalks⟩
    · cases hslot
  · rintro ⟨hcheck, hlast, links, hwalks⟩
    exact ⟨(), hcheck, ⟨directory, links⟩, hwalks, by rw [hlast]⟩

theorem find?_of_slot {disk : Disk} {path : String} {directory : Place} {name : String}
    (h : disk.slot path = .ok (.named directory name)) :
    disk.find? directory = some .directory := by
  obtain ⟨_, _, links, hwalks⟩ := slot_eq_named_iff.1 h
  exact hwalks.find?_of_stay

theorem replaceable_eq_ok_iff {disk : Disk} {path : String} {target : Place} :
    disk.replaceable path = .ok target ↔ ∃ directory name,
      disk.slot path = .ok (.named directory name) ∧ name.utf8ByteSize ≤ nameLimit ∧
        Path.endsWithSlash path = false ∧ disk.find? (name :: directory) ≠ some .directory ∧
          target = name :: directory := by
  simp only [replaceable, bind_eq_ok_iff]
  constructor
  · rintro ⟨slot, hslot, hresult⟩
    cases slot with
    | nameless => cases hresult
    | named directory name =>
      dsimp only at hresult
      split at hresult
      · cases hresult
      split at hresult
      · cases hresult
      split at hresult
      · cases hresult
      rename_i hname hslash hentry
      exact ⟨directory, name, hslot, Nat.le_of_not_lt hname, Bool.eq_false_iff.2 hslash, hentry,
        (Except.ok.inj hresult).symm⟩
  · rintro ⟨directory, name, hslot, hname, hslash, hentry, rfl⟩
    refine ⟨_, hslot, ?_⟩
    dsimp only
    rw [if_neg (Nat.not_lt.2 hname), if_neg (Bool.eq_false_iff.1 hslash), if_neg hentry]

/-! ## Names in the working directory -/

/-- A path that is a single name. -/
structure IsName (path : String) : Prop where
  check : checkPath path = .ok ()
  relative : Path.isAbsolute path = false
  steps : Path.steps path = [.enter path]
  plain : Path.endsWithSlash path = false
  short : path.utf8ByteSize ≤ nameLimit

namespace IsName

variable {disk : Disk} {path : String} (hpath : IsName path)
  (hhere : disk.find? disk.workplace = some .directory)
include hpath

theorem origin_eq (base : Place) : origin path base = base := by
  rw [origin, hpath.relative]
  rfl

theorem allSteps_eq : Path.allSteps path = [.enter path] := by
  rw [Path.allSteps, hpath.plain, hpath.steps]
  rfl

include hhere

theorem slot : disk.slot path = .ok (.named disk.workplace path) := by
  refine slot_eq_named_iff.2 ⟨hpath.check, by rw [hpath.steps]; rfl, linkLimit, ?_⟩
  rw [hpath.origin_eq, hpath.steps]
  exact .stay hhere (.done _ _)

theorem replaceable (hentry : disk.find? (path :: disk.workplace) ≠ some .directory) :
    disk.replaceable path = .ok (path :: disk.workplace) :=
  replaceable_eq_ok_iff.2 ⟨_, _, hpath.slot hhere, hpath.short, hpath.plain, hentry, rfl⟩

theorem resolve_of_file {content : List UInt8}
    (hfile : disk.find? (path :: disk.workplace) = some (.file content)) :
    disk.resolve path = .ok (path :: disk.workplace) := by
  refine resolve_eq_ok_iff.2 ⟨hpath.check, linkLimit, ?_⟩
  rw [hpath.origin_eq, hpath.allSteps_eq]
  exact .enter hhere hpath.short hfile (fun target h => nomatch h) (.done _ _)

theorem resolve_of_missing (hnone : disk.find? (path :: disk.workplace) = none) :
    disk.resolve path = .error .notFound := by
  rw [resolve, hpath.check, hpath.origin_eq, hpath.allSteps_eq, walk, hhere]
  dsimp only
  rw [if_neg (Nat.not_lt.2 hpath.short), hnone]
  rfl

theorem resolve_of_link {target : String} {content : List UInt8} (htarget : IsName target)
    (hlink : disk.find? (path :: disk.workplace) = some (.link target))
    (hfile : disk.find? (target :: disk.workplace) = some (.file content)) :
    disk.resolve path = .ok (target :: disk.workplace) := by
  have hsome : target.isEmpty = false := by
    rw [Bool.eq_false_iff]
    intro hempty
    have hcheck := htarget.check
    rw [checkPath, hempty] at hcheck
    split at hcheck <;> cases hcheck
  refine resolve_eq_ok_iff.2 ⟨hpath.check, 39, ?_⟩
  rw [hpath.origin_eq, hpath.allSteps_eq]
  refine .follow hhere hpath.short hlink hsome ?_
  rw [htarget.origin_eq, htarget.allSteps_eq]
  exact .enter hhere htarget.short hfile (fun target h => nomatch h) (.done _ _)

end IsName

/-! ## New files -/

section fresh

variable {disk : Disk} {fresh : Place} (hfresh : disk.find? fresh = none) (content : List UInt8)
include hfresh

theorem slot_put_fresh {path : String} {directory : Place} {name : String} :
    (disk.put fresh (.file content)).slot path = .ok (.named directory name) ↔
      disk.slot path = .ok (.named directory name) := by
  have hroot := ne_nil_of_find?_eq_none hfresh
  simp only [slot_eq_named_iff, workplace_put]
  constructor
  · rintro ⟨hcheck, hlast, links, hwalks⟩
    refine ⟨hcheck, hlast, links, hwalks.of_put_file hroot ?_⟩
    -- the walk ends in a directory, and the new entry is none
    rintro rfl
    have hdirectory := hwalks.find?_of_stay
    rw [find?_put disk hroot, if_pos rfl] at hdirectory
    cases hdirectory
  · rintro ⟨hcheck, hlast, links, hwalks⟩
    exact ⟨hcheck, hlast, links, hwalks.put_fresh hfresh _⟩

theorem replaceable_put_fresh {path : String} {target : Place} :
    (disk.put fresh (.file content)).replaceable path = .ok target ↔
      disk.replaceable path = .ok target := by
  have hroot := ne_nil_of_find?_eq_none hfresh
  have hentry (place : Place) : (disk.put fresh (.file content)).find? place ≠ some .directory ↔
      disk.find? place ≠ some .directory := by
    rw [find?_put disk hroot]
    split
    · subst place
      simp [hfresh]
    · exact Iff.rfl
  simp only [replaceable_eq_ok_iff, slot_put_fresh hfresh, hentry]

end fresh

/-! ## Trees -/

/-- Every entry stands in a directory. -/
def IsTree (disk : Disk) : Prop :=
  ∀ name place, (disk.find? (name :: place)).isSome → disk.find? place = some .directory

/-- A file or a link that is replaced, or made in a directory, leaves a tree. -/
theorem IsTree.replaces {before after : Disk} (htree : before.IsTree) {name : String}
    {directory : Place} {content : List UInt8}
    (hdirectory : before.find? directory = some .directory)
    (hentry : before.find? (name :: directory) ≠ some .directory)
    (h : before.Replaces after (name :: directory) (.file content)) : after.IsTree := by
  intro other place hother
  have hplace : before.find? place = some .directory := by
    by_cases heq : other :: place = name :: directory
    · obtain ⟨-, rfl⟩ := List.cons.inj heq
      exact hdirectory
    · rw [h.others _ heq] at hother
      exact htree other place hother
  have hne : place ≠ name :: directory := by
    rintro rfl
    exact hentry hplace
  rw [h.others _ hne, hplace]

/-- On a tree a walk of at least one step ends at a directory or a file, never at a link. -/
theorem Walks.find?_ne_link {disk : Disk} (htree : disk.IsTree) {links : Nat} {place : Place}
    {steps : List Path.Step} {arrival : Arrival} (h : disk.Walks links place steps arrival)
    (hstart : steps = [] → ∀ target, disk.find? place ≠ some (.link target)) (target : String) :
    disk.find? arrival.place ≠ some (.link target) := by
  have hplain {p : Place} (hp : disk.find? p = some .directory) (target : String) :
      disk.find? p ≠ some (.link target) := by
    rw [hp]
    simp
  induction h with
  | done links place => exact hstart rfl target
  | stay hplace _ ih => exact ih fun _ => hplain hplace
  | @up links place rest arrival hplace _ ih =>
    refine ih fun _ => ?_
    cases place with
    | nil => exact hplain hplace
    | cons name place => exact hplain (htree name place (by rw [hplace]; rfl))
  | enter hplace hname hentry hlink _ ih =>
    refine ih fun _ other => ?_
    rw [hentry]
    exact fun h => hlink other (Option.some.inj h)
  | @follow links place name path rest arrival hplace hname hentry htarget _ ih =>
    refine ih fun _ => ?_
    rw [origin]
    split
    · exact hplain rfl
    · exact hplain hplace

end Disk

end GlyphStrip
