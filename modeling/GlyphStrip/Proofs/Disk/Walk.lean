import GlyphStrip.Disk.Resolve
import GlyphStrip.Proofs.Results

/-!
# Successful walks

`Disk.Walks` lists what a walk that arrives can do, one rule for each kind of step; `walk_eq_ok_iff`
ties it to the function. A walk that arrives finds its way as well on a disk that holds more
(`Walks.mono`), and a new file changes no walk but those that end at it (`Walks.of_put_file`).
-/

namespace GlyphStrip

namespace Disk

open GlyphStrip.Path (Step)

theorem walk_of_ne_directory {disk : Disk} {place : Place}
    (h : disk.find? place ≠ some .directory) (links : Nat) (step : Step) (rest : List Step) :
    disk.walk links place (step :: rest) = .error .notADirectory := by
  rw [walk.eq_def]
  dsimp only
  split
  · contradiction
  · rfl

/-- A walk along steps in two parts goes on where the first part ends. -/
theorem walk_append (disk : Disk) (links : Nat) (place : Place) (first second : List Step) :
    disk.walk links place (first ++ second) =
      (disk.walk links place first).bind fun middle =>
        disk.walk middle.links middle.place second := by
  fun_induction walk disk links place first with
  | case1 => rfl
  | case2 links place rest hplace ih => rw [List.cons_append, walk, hplace]; exact ih
  | case3 links place rest hplace ih => rw [List.cons_append, walk, hplace]; exact ih
  | case8 place rest hplace name hname target hentry links htarget ih =>
    simp only [List.cons_append, walk, hplace, if_neg hname, hentry, if_neg htarget]
    rw [← List.append_assoc]
    exact ih
  | case9 links place rest hplace name hname entry hlink hentry ih =>
    simp only [List.cons_append, walk, hplace, if_neg hname, hentry]
    exact ih
  | case4 | case5 | case6 | case7 => simp_all [walk, Except.bind]
  | case10 links place step rest hplace => exact walk_of_ne_directory hplace links step _

/-- A walk with some links to spare leads from a place along some steps to an arrival. -/
inductive Walks (disk : Disk) : Nat → Place → List Step → Arrival → Prop
  | done (links : Nat) (place : Place) : Walks disk links place [] ⟨place, links⟩
  | stay {links : Nat} {place : Place} {rest : List Step} {arrival : Arrival}
      (hplace : disk.find? place = some .directory) (hrest : Walks disk links place rest arrival) :
      Walks disk links place (.stay :: rest) arrival
  | up {links : Nat} {place : Place} {rest : List Step} {arrival : Arrival}
      (hplace : disk.find? place = some .directory)
      (hrest : Walks disk links place.tail rest arrival) :
      Walks disk links place (.up :: rest) arrival
  | enter {links : Nat} {place : Place} {name : String} {entry : Entry} {rest : List Step}
      {arrival : Arrival} (hplace : disk.find? place = some .directory)
      (hname : name.utf8ByteSize ≤ nameLimit) (hentry : disk.find? (name :: place) = some entry)
      (hlink : ∀ target, entry ≠ .link target)
      (hrest : Walks disk links (name :: place) rest arrival) :
      Walks disk links place (.enter name :: rest) arrival
  | follow {links : Nat} {place : Place} {name target : String} {rest : List Step}
      {arrival : Arrival} (hplace : disk.find? place = some .directory)
      (hname : name.utf8ByteSize ≤ nameLimit)
      (hentry : disk.find? (name :: place) = some (.link target)) (htarget : target.isEmpty = false)
      (hrest : Walks disk links (origin target place) (Path.allSteps target ++ rest) arrival) :
      Walks disk (links + 1) place (.enter name :: rest) arrival

theorem walks_of_walk {disk : Disk} {links : Nat} {place : Place} {steps : List Step}
    {arrival : Arrival} (h : disk.walk links place steps = .ok arrival) :
    disk.Walks links place steps arrival := by
  fun_induction walk disk links place steps with
  | case1 links place =>
    obtain rfl := Except.ok.inj h
    exact .done links place
  | case2 links place rest hplace ih => exact .stay hplace (ih h)
  | case3 links place rest hplace ih => exact .up hplace (ih h)
  | case8 place rest hplace name hname target hentry links htarget ih =>
    exact .follow hplace (Nat.le_of_not_lt hname) hentry (Bool.eq_false_iff.2 htarget) (ih h)
  | case9 links place rest hplace name hname entry hlink hentry ih =>
    exact .enter hplace (Nat.le_of_not_lt hname) hentry hlink (ih h)
  | case4 | case5 | case6 | case7 | case10 => cases h

theorem Walks.walk_eq {disk : Disk} {links : Nat} {place : Place} {steps : List Step}
    {arrival : Arrival} (h : disk.Walks links place steps arrival) :
    disk.walk links place steps = .ok arrival := by
  induction h with
  | done links place => rw [walk]
  | stay hplace _ ih => rw [walk, hplace]; exact ih
  | up hplace _ ih => rw [walk, hplace]; exact ih
  | enter hplace hname hentry hlink _ ih =>
    rw [walk, hplace]
    dsimp only
    rw [if_neg (Nat.not_lt.2 hname), hentry]
    split
    · rename_i hnone
      cases hnone
    · rename_i target hsome
      exact absurd (Option.some.inj hsome) (hlink target)
    · exact ih
  | follow hplace hname hentry htarget _ ih =>
    rw [walk, hplace]
    dsimp only
    rw [if_neg (Nat.not_lt.2 hname), hentry]
    dsimp only
    rw [if_neg (Bool.eq_false_iff.1 htarget)]
    exact ih

theorem walk_eq_ok_iff {disk : Disk} {links : Nat} {place : Place} {steps : List Step}
    {arrival : Arrival} :
    disk.walk links place steps = .ok arrival ↔ disk.Walks links place steps arrival :=
  ⟨walks_of_walk, Walks.walk_eq⟩

namespace Walks

variable {disk other : Disk} {links : Nat} {place : Place} {steps : List Step} {arrival : Arrival}

/-- A walk in two parts stops in between. -/
theorem split {first second : List Step}
    (h : disk.Walks links place (first ++ second) arrival) :
    ∃ middle, disk.Walks links place first middle ∧
      disk.Walks middle.links middle.place second arrival := by
  rw [← walk_eq_ok_iff, walk_append, bind_eq_ok_iff] at h
  obtain ⟨middle, hfirst, hsecond⟩ := h
  exact ⟨middle, walks_of_walk hfirst, walks_of_walk hsecond⟩

/-- A walk that ends by staying has arrived at a directory. -/
theorem find?_of_stay (h : disk.Walks links place (steps ++ [.stay]) arrival) :
    disk.find? arrival.place = some .directory := by
  obtain ⟨⟨place, links⟩, _, hstay⟩ := h.split
  cases hstay with
  | stay hplace hrest =>
    cases hrest with
    | done => exact hplace

/-- What is there leads the same way on a disk that holds more. -/
theorem mono (hmore : ∀ p entry, disk.find? p = some entry → other.find? p = some entry)
    (h : disk.Walks links place steps arrival) : other.Walks links place steps arrival := by
  induction h with
  | done links place => exact .done links place
  | stay hplace _ ih => exact .stay (hmore _ _ hplace) ih
  | up hplace _ ih => exact .up (hmore _ _ hplace) ih
  | enter hplace hname hentry hlink _ ih =>
    exact .enter (hmore _ _ hplace) hname (hmore _ _ hentry) hlink ih
  | follow hplace hname hentry htarget _ ih =>
    exact .follow (hmore _ _ hplace) hname (hmore _ _ hentry) htarget ih

theorem put_fresh {fresh : Place} (hfresh : disk.find? fresh = none) (entry : Entry)
    (h : disk.Walks links place steps arrival) :
    (disk.put fresh entry).Walks links place steps arrival := by
  have hroot : fresh ≠ [] := by
    rintro rfl
    simp [find?] at hfresh
  refine h.mono fun p found hfound => ?_
  have hne : p ≠ fresh := by
    rintro rfl
    rw [hfresh] at hfound
    cases hfound
  rw [find?_put disk hroot, if_neg hne, hfound]

/-- No walk goes on behind a file, so one that does not end at a new file has not met it. -/
theorem of_put_file {fresh : Place} (hroot : fresh ≠ []) {content : List UInt8}
    (h : (disk.put fresh (.file content)).Walks links place steps arrival)
    (hend : arrival.place ≠ fresh) : disk.Walks links place steps arrival := by
  have hold {p : Place} {entry : Entry}
      (hp : (disk.put fresh (.file content)).find? p = some entry) (hne : p ≠ fresh) :
      disk.find? p = some entry := by
    rwa [find?_put disk hroot, if_neg hne] at hp
  have hdirectory {p : Place} (hp : (disk.put fresh (.file content)).find? p = some .directory) :
      p ≠ fresh := by
    rintro rfl
    rw [find?_put disk hroot, if_pos rfl] at hp
    cases hp
  induction h with
  | done links place => exact .done links place
  | stay hplace _ ih => exact .stay (hold hplace (hdirectory hplace)) (ih hend)
  | up hplace _ ih => exact .up (hold hplace (hdirectory hplace)) (ih hend)
  | @enter links place name entry rest arrival hplace hname hentry hlink hrest ih =>
    have hne : name :: place ≠ fresh := by
      rintro rfl
      -- the new file is no directory, so the walk ends at it
      cases hrest with
      | done => exact hend rfl
      | stay hfile _ => exact hdirectory hfile rfl
      | up hfile _ => exact hdirectory hfile rfl
      | enter hfile _ _ _ _ => exact hdirectory hfile rfl
      | follow hfile _ _ _ _ => exact hdirectory hfile rfl
    exact .enter (hold hplace (hdirectory hplace)) hname (hold hentry hne) hlink (ih hend)
  | @follow links place name target rest arrival hplace hname hentry htarget _ ih =>
    have hne : name :: place ≠ fresh := by
      rintro rfl
      rw [find?_put disk hroot, if_pos rfl] at hentry
      cases hentry
    exact .follow (hold hplace (hdirectory hplace)) hname (hold hentry hne) htarget (ih hend)

end Walks

end Disk

end GlyphStrip
