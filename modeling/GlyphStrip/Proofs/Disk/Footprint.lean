import GlyphStrip.Proofs.Disk.Slot
import GlyphStrip.Proofs.Path.Parent

/-!
# What a path depends on

`Disk.consulted` lists the entries that play a part when a path is resolved. Another entry may be
replaced, and the path leads to the same place as before (`Walks.replaces`); so does the path of an
output, when its own entry is replaced and the way to its directory does not use it
(`slot_of_replaces`).
-/

namespace GlyphStrip

namespace Path

/-- A slash at the end adds nothing but the demand to stay. -/
theorem exists_allSteps_eq (path : String) :
    ∃ n, allSteps path = steps path ++ List.replicate n .stay := by
  rw [allSteps]
  split
  · exact ⟨1, rfl⟩
  · exact ⟨0, by simp⟩

end Path

namespace Disk

open GlyphStrip.Path (Step)

/-- The entries that a walk looks up by name, as far as it goes, and the place where it ends. -/
def lookups (disk : Disk) (links : Nat) (place : Place) (steps : List Step) : List Place :=
  match steps with
  | [] => [place]
  | step :: rest =>
    match disk.find? place with
    | some .directory =>
      match step with
      | .stay => disk.lookups links place rest
      | .up => disk.lookups links place.tail rest
      | .enter name =>
        if nameLimit < name.utf8ByteSize then []
        else
          (name :: place) :: match disk.find? (name :: place) with
          | none => []
          | some (.link target) =>
            match links with
            | 0 => []
            | links + 1 =>
              if target.isEmpty then []
              else disk.lookups links (origin target place) (Path.allSteps target ++ rest)
          | some _ => disk.lookups links (name :: place) rest
    | _ => []
termination_by (links, steps.length)

/-- The entries consulted when a path is resolved: those on the way, links among them, and the one
that it leads to. -/
def consulted (disk : Disk) (path : String) : List Place :=
  disk.lookups linkLimit (origin path disk.workplace) (Path.allSteps path)

/-! ## Lookups of a walk that arrives -/

section lookups

variable {disk : Disk} {links : Nat} {place : Place}

theorem lookups_nil : disk.lookups links place [] = [place] := by
  rw [lookups]

variable (hplace : disk.find? place = some .directory) (rest : List Step)
include hplace

theorem lookups_stay :
    disk.lookups links place (.stay :: rest) = disk.lookups links place rest := by
  rw [lookups, hplace]

theorem lookups_up :
    disk.lookups links place (.up :: rest) = disk.lookups links place.tail rest := by
  rw [lookups, hplace]

theorem lookups_enter {name : String} {entry : Entry} (hname : name.utf8ByteSize ≤ nameLimit)
    (hentry : disk.find? (name :: place) = some entry) (hlink : ∀ target, entry ≠ .link target) :
    disk.lookups links place (.enter name :: rest) =
      (name :: place) :: disk.lookups links (name :: place) rest := by
  rw [lookups, hplace]
  dsimp only
  rw [if_neg (Nat.not_lt.2 hname), hentry]
  cases entry with
  | link target => exact absurd rfl (hlink target)
  | file | directory => rfl

theorem lookups_follow {name target : String} (hname : name.utf8ByteSize ≤ nameLimit)
    (hentry : disk.find? (name :: place) = some (.link target)) (htarget : target.isEmpty = false) :
    disk.lookups (links + 1) place (.enter name :: rest) =
      (name :: place) ::
        disk.lookups links (origin target place) (Path.allSteps target ++ rest) := by
  rw [lookups, hplace]
  dsimp only
  rw [if_neg (Nat.not_lt.2 hname), hentry]
  dsimp only
  rw [if_neg (Bool.eq_false_iff.1 htarget)]

theorem lookups_stays (n : Nat) : disk.lookups links place (List.replicate n .stay) = [place] := by
  induction n with
  | zero => exact lookups_nil
  | succ n ih => rw [List.replicate_succ, lookups_stay hplace, ih]

end lookups

namespace Walks

variable {disk : Disk} {links : Nat} {place : Place} {steps : List Step} {arrival : Arrival}

/-- A longer walk looks up more where the shorter one has arrived. -/
theorem exists_lookups_append (h : disk.Walks links place steps arrival) :
    ∃ front, ∀ more, disk.lookups links place (steps ++ more) =
      front ++ disk.lookups arrival.links arrival.place more := by
  induction h with
  | done links place => exact ⟨[], fun more => rfl⟩
  | stay hplace _ ih =>
    obtain ⟨front, hfront⟩ := ih
    exact ⟨front, fun more => by rw [List.cons_append, lookups_stay hplace, hfront]⟩
  | up hplace _ ih =>
    obtain ⟨front, hfront⟩ := ih
    exact ⟨front, fun more => by rw [List.cons_append, lookups_up hplace, hfront]⟩
  | @enter links place name entry rest arrival hplace hname hentry hlink _ ih =>
    obtain ⟨front, hfront⟩ := ih
    refine ⟨(name :: place) :: front, fun more => ?_⟩
    rw [List.cons_append, lookups_enter hplace _ hname hentry hlink, hfront, List.cons_append]
  | @follow links place name target rest arrival hplace hname hentry htarget _ ih =>
    obtain ⟨front, hfront⟩ := ih
    refine ⟨(name :: place) :: front, fun more => ?_⟩
    rw [List.cons_append, lookups_follow hplace _ hname hentry htarget, ← List.append_assoc, hfront,
      List.cons_append]

theorem mem_lookups (h : disk.Walks links place steps arrival) :
    arrival.place ∈ disk.lookups links place steps := by
  obtain ⟨front, hfront⟩ := h.exists_lookups_append
  have hsteps := hfront []
  rw [List.append_nil, lookups_nil] at hsteps
  simp [hsteps]

theorem eq_of_stays {n : Nat} (h : disk.Walks links place (List.replicate n .stay) arrival) :
    arrival = ⟨place, links⟩ := by
  induction n with
  | zero =>
    cases h with
    | done => rfl
  | succ n ih =>
    cases h with
    | stay _ hrest => exact ih hrest

/-- Staying where a walk has arrived looks nothing up. -/
theorem lookups_append_stays {n : Nat}
    (h : disk.Walks links place (steps ++ List.replicate n .stay) arrival)
    (hdirectory : disk.find? arrival.place = some .directory) (m : Nat) :
    disk.lookups links place (steps ++ List.replicate m .stay) =
      disk.lookups links place (steps ++ List.replicate n .stay) := by
  obtain ⟨middle, hsteps, hstays⟩ := h.split
  obtain rfl := hstays.eq_of_stays
  obtain ⟨front, hfront⟩ := hsteps.exists_lookups_append
  rw [hfront, hfront, lookups_stays hdirectory, lookups_stays hdirectory]

end Walks

theorem mem_consulted_of_resolve {disk : Disk} {path : String} {place : Place}
    (h : disk.resolve path = .ok place) : place ∈ disk.consulted path := by
  obtain ⟨_, left, hwalks⟩ := resolve_eq_ok_iff.1 h
  exact hwalks.mem_lookups

/-! ## Replacing an entry that is not consulted -/

section replaces

variable {before after : Disk} {target : Place} {entry : Entry}
  (hreplaces : before.Replaces after target entry) (htarget : before.find? target ≠ some .directory)

include hreplaces htarget

/-- A walk that arrives stands in directories only, so an entry that is none matters to it where it
is looked up. -/
theorem Walks.replaces {links : Nat} {place : Place} {steps : List Step} {arrival : Arrival}
    (h : before.Walks links place steps arrival)
    (hunseen : target ∉ before.lookups links place steps) :
    after.Walks links place steps arrival := by
  have hdirectory {p : Place} (hp : before.find? p = some .directory) :
      after.find? p = some .directory := by
    rw [hreplaces.others p (fun heq => htarget (heq ▸ hp)), hp]
  induction h with
  | done links place => exact .done links place
  | stay hplace _ ih =>
    rw [lookups_stay hplace] at hunseen
    exact .stay (hdirectory hplace) (ih hunseen)
  | up hplace _ ih =>
    rw [lookups_up hplace] at hunseen
    exact .up (hdirectory hplace) (ih hunseen)
  | enter hplace hname hentry hlink _ ih =>
    rw [lookups_enter hplace _ hname hentry hlink, List.mem_cons, not_or] at hunseen
    obtain ⟨hne, hrest⟩ := hunseen
    rw [← hreplaces.others _ (Ne.symm hne)] at hentry
    exact .enter (hdirectory hplace) hname hentry hlink (ih hrest)
  | follow hplace hname hentry htarget _ ih =>
    rw [lookups_follow hplace _ hname hentry htarget, List.mem_cons, not_or] at hunseen
    obtain ⟨hne, hrest⟩ := hunseen
    rw [← hreplaces.others _ (Ne.symm hne)] at hentry
    exact .follow (hdirectory hplace) hname hentry htarget (ih hrest)

variable {path : String}

/-- The way to a directory does not depend on how often it is asked to be one. -/
theorem Walks.replaces_of_consulted {n : Nat} {arrival : Arrival}
    (h : before.Walks linkLimit (origin path before.workplace)
      (Path.steps path ++ List.replicate n .stay) arrival)
    (hdirectory : before.find? arrival.place = some .directory)
    (hunseen : target ∉ before.consulted path) :
    after.Walks linkLimit (origin path after.workplace)
      (Path.steps path ++ List.replicate n .stay) arrival := by
  obtain ⟨m, hm⟩ := Path.exists_allSteps_eq path
  rw [consulted, hm, h.lookups_append_stays hdirectory m] at hunseen
  rw [hreplaces.workplace]
  exact h.replaces hreplaces htarget hunseen

theorem resolve_of_replaces {place : Place} (h : before.resolve path = .ok place)
    (hunseen : target ∉ before.consulted path) : after.resolve path = .ok place := by
  obtain ⟨hcheck, left, hwalks⟩ := resolve_eq_ok_iff.1 h
  refine resolve_eq_ok_iff.2 ⟨hcheck, left, ?_⟩
  rw [hreplaces.workplace]
  exact hwalks.replaces hreplaces htarget hunseen

theorem resolveDirectory_of_replaces {place : Place} (h : before.resolveDirectory path = .ok place)
    (hunseen : target ∉ before.consulted path) : after.resolveDirectory path = .ok place := by
  obtain ⟨hcheck, left, hwalks⟩ := resolveDirectory_eq_ok_iff.1 h
  have hdirectory := hwalks.find?_of_stay
  have hstays : [Step.stay] = List.replicate 1 .stay := rfl
  rw [hstays] at hwalks
  refine resolveDirectory_eq_ok_iff.2 ⟨hcheck, left, ?_⟩
  exact hwalks.replaces_of_consulted hreplaces htarget hdirectory hunseen

theorem slot_of_replaces {directory : Place} {name : String}
    (h : before.slot path = .ok (.named directory name))
    (hunseen : target ∉ before.consulted (Path.directory path)) :
    after.slot path = .ok (.named directory name) := by
  obtain ⟨hcheck, hlast, links, hwalks⟩ := slot_eq_named_iff.1 h
  obtain ⟨habsolute, n, hsteps⟩ := Path.steps_directory hlast
  have horigin (base : Place) : origin path base = origin (Path.directory path) base := by
    rw [origin, origin, habsolute]
  rw [hsteps, horigin] at hwalks
  refine slot_eq_named_iff.2 ⟨hcheck, hlast, links, ?_⟩
  rw [hsteps, horigin]
  exact hwalks.replaces_of_consulted hreplaces htarget (find?_of_slot h) hunseen

end replaces

/-! ## Names in the working directory -/

namespace IsName

variable {disk : Disk} {path : String} (hpath : IsName path)
  (hhere : disk.find? disk.workplace = some .directory)
include hpath hhere

theorem eq_of_mem_consulted {content : List UInt8} {place : Place}
    (hfile : disk.find? (path :: disk.workplace) = some (.file content))
    (h : place ∈ disk.consulted path) : place = path :: disk.workplace := by
  rw [consulted, hpath.origin_eq, hpath.allSteps_eq,
    lookups_enter hhere _ hpath.short hfile (fun target h => nomatch h), lookups_nil] at h
  simpa using h

end IsName

theorem eq_of_mem_consulted_here {disk : Disk} {place : Place}
    (hhere : disk.find? disk.workplace = some .directory) (h : place ∈ disk.consulted ".") :
    place = disk.workplace := by
  have hsteps : Path.allSteps "." = List.replicate 1 .stay := by decide +kernel
  have hrelative : Path.isAbsolute "." = false := by decide +kernel
  rw [consulted, origin, hrelative, if_neg Bool.false_ne_true, hsteps, lookups_stays hhere] at h
  exact List.mem_singleton.1 h

end Disk

end GlyphStrip
