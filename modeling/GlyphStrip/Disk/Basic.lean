import GlyphStrip.Path.Basic

/-!
# Disks

A disk is a tree of directories, files and links, kept as a list of places and what is there. A
place is a name in front of the place of the directory around it; the root is the empty place.
-/

namespace GlyphStrip

/-- The place of an entry: its name and the names of the directories around it, innermost first. -/
abbrev Place := List String

/-- What is at a place. -/
inductive Entry where
  | file (content : List UInt8)
  | directory
  | link (target : String)
deriving DecidableEq

/-- Why an operation on a disk fails. -/
inductive DiskFault where
  | notFound
  | notADirectory
  | isADirectory
  | alreadyExists
  | resourceBusy
  | invalidFilename
  | invalidInput
  | filesystemLoop
  | storageFull
  | hardware
deriving DecidableEq

/-- A disk, and the directory in which relative paths start. -/
structure Disk where
  entries : List (Place × Entry)
  workplace : Place
deriving DecidableEq

namespace Disk

/-- The place of the working directory of a new disk. -/
def home : Place :=
  ["work-directory"]

/-- A disk with an empty working directory. -/
def empty : Disk :=
  ⟨[(home, .directory)], home⟩

/-- What is at a place. The root is a directory. -/
def find? (disk : Disk) (place : Place) : Option Entry :=
  if place = [] then some .directory else disk.entries.lookup place

/-- Takes away what is at a place. -/
def erase (disk : Disk) (place : Place) : Disk :=
  { disk with entries := disk.entries.filter fun item => item.1 ≠ place }

/-- Puts an entry at a place, whatever was there. -/
def put (disk : Disk) (place : Place) (entry : Entry) : Disk :=
  { disk with entries := (place, entry) :: (disk.erase place).entries }

theorem lookup_filter_ne {entries : List (Place × Entry)} {place other : Place} :
    (entries.filter fun item => item.1 ≠ place).lookup other =
      if other = place then none else entries.lookup other := by
  induction entries with
  | nil => simp
  | cons item rest ih =>
    obtain ⟨p, e⟩ := item
    by_cases hp : p = place
    · subst hp
      by_cases ho : other = p
      · simpa [ho] using ih
      · have hne : (other == p) = false := by simpa using ho
        simpa [List.lookup_cons, hne, ho] using ih
    · by_cases ho : other = p
      · subst ho
        simp [hp]
      · have hne : (other == p) = false := by simpa using ho
        simp only [ne_eq, hp, not_false_eq_true, decide_true, List.filter_cons_of_pos,
          List.lookup_cons, hne]
        simpa using ih

/-- Erasing changes what is at one place only. -/
theorem find?_erase (disk : Disk) {place : Place} (hplace : place ≠ []) (other : Place) :
    (disk.erase place).find? other = if other = place then none else disk.find? other := by
  by_cases h : other = []
  · subst h
    simp [find?, hplace.symm]
  · simp only [find?, h, if_false, erase, lookup_filter_ne]

/-- Putting an entry changes what is at one place only. -/
theorem find?_put (disk : Disk) {place : Place} (hplace : place ≠ []) (entry : Entry)
    (other : Place) :
    (disk.put place entry).find? other =
      if other = place then some entry else disk.find? other := by
  by_cases ho : other = place
  · subst ho
    simp [find?, hplace, put]
  · have hskip : (disk.put place entry).find? other = (disk.erase place).find? other := by
      have hne : (other == place) = false := by simpa using ho
      simp only [find?, put, List.lookup_cons, hne]
    rw [hskip, disk.find?_erase hplace, if_neg ho, if_neg ho]

end Disk

end GlyphStrip
