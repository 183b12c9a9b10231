import GlyphStrip.Proofs.Publishing

/-!
# What an interrupted publication leaves

A publication may be cut short behind any of its operations. Up to then the disk is the old one,
perhaps with a scratch file that holds a part of the font, or it is the old one with the entry
replaced; there is no fourth way (`Attempt.performAll_prefix`). So the entry that the path names is
never a part of a font (`interrupted_publication`).
-/

namespace GlyphStrip

namespace Disk

/-! ## Attempts -/

/-- A place for a scratch file: new, in the directory of the path, and not what the path names. -/
structure IsScratch (disk : Disk) (path : String) (scratch : Place) : Prop where
  inside : ∃ name directory, scratch = name :: directory ∧ Path.fileName? path ≠ some name ∧
    disk.scratchDirectory (Path.directory path) = .ok directory
  fresh : disk.find? scratch = none

/-- The operations of all attempts to publish some pieces, whichever of them fails. -/
inductive Attempt (disk : Disk) (path : String) (pieces : List (List UInt8)) :
    List FileOperation → Prop
  /-- No scratch file can be created. -/
  | refused : Attempt disk path pieces []
  /-- Something fails on the way or the scratch file cannot be moved, so it is removed again. -/
  | abandoned {scratch : Place} {written : List FileOperation}
      (hscratch : disk.IsScratch path scratch) (hwritten : written <+: writing scratch pieces) :
      Attempt disk path pieces (written ++ [.remove scratch])
  /-- The full scratch file is moved over what the path names by then. -/
  | moved {scratch target : Place} (hscratch : disk.IsScratch path scratch)
      (htarget : (disk.performAll (writing scratch pieces)).replaceable path = .ok target) :
      Attempt disk path pieces (writing scratch pieces ++ [.move scratch target])

theorem isScratch_freshName {disk : Disk} {path : String} {place : Place}
    (hplace : disk.scratchDirectory (Path.directory path) = .ok place) :
    disk.IsScratch path (disk.freshName place (Path.fileName? path) :: place) := by
  obtain ⟨hfresh, hname⟩ := disk.freshName_free place (Path.fileName? path)
  exact ⟨⟨_, place, rfl, hname, hplace⟩, hfresh⟩

/-- A publication is one of the attempts, whatever fails on its device. -/
theorem attempt_publicationOn (disk : Disk) (device : Device) (path : String)
    (pieces : List (List UInt8)) :
    disk.Attempt path pieces (disk.publicationOn device path pieces).operations := by
  have hexit := disk.exit_publicationOn device path pieces
  generalize disk.publicationOn device path pieces = publication at hexit
  cases hexit with
  | uncreated => exact .refused
  | unwritten hplace hname =>
    subst hname
    exact .abandoned (isScratch_freshName hplace) (take_prefix_writing _ _ _)
  | unsynced hplace hname =>
    subst hname
    exact .abandoned (isScratch_freshName hplace) (List.prefix_append _ _)
  | unmoved hplace hname =>
    subst hname
    exact .abandoned (isScratch_freshName hplace) (List.prefix_refl _)
  | moved hplace hname _ _ htarget =>
    subst hname
    have hscratch := isScratch_freshName hplace
    refine .moved hscratch ?_
    rw [performAll_writing hscratch.fresh]
    exact (replaceable_put_fresh hscratch.fresh _).2 htarget

/-! ## Prefixes -/

/-- What an attempt that is cut short leaves: the old disk, a scratch file on it, or the whole
content under the path. -/
theorem Attempt.performAll_prefix {disk : Disk} {path : String} {pieces : List (List UInt8)}
    {operations done : List FileOperation} (h : disk.Attempt path pieces operations)
    (hdone : done <+: operations) :
    disk.performAll done = disk ∨
    (∃ scratch written, disk.IsScratch path scratch ∧
      disk.performAll done = disk.put scratch (.file written)) ∨
    ∃ target, disk.replaceable path = .ok target ∧
      disk.performAll done = disk.put target (.file pieces.flatten) := by
  have hunfinished {scratch : Place} (hscratch : disk.IsScratch path scratch)
      (hbefore : done <+: writing scratch pieces) : disk.performAll done = disk ∨
        ∃ scratch written, disk.IsScratch path scratch ∧
          disk.performAll done = disk.put scratch (.file written) := by
    rcases performAll_prefix_writing hscratch.fresh hbefore with hsame | ⟨written, hwritten⟩
    · exact Or.inl hsame
    · exact Or.inr ⟨scratch, written, hscratch, hwritten⟩
  rw [← or_assoc]
  cases h with
  | refused =>
    obtain rfl := List.prefix_nil.1 hdone
    exact Or.inl (Or.inl rfl)
  | @abandoned scratch written hscratch hwritten =>
    refine Or.inl ?_
    rcases List.prefix_concat_iff.1 hdone with rfl | hbefore
    · exact Or.inl (performAll_abandoned hscratch.fresh hwritten)
    · exact hunfinished hscratch (hbefore.trans hwritten)
  | @moved scratch target hscratch htarget =>
    rcases List.prefix_concat_iff.1 hdone with rfl | hbefore
    · rw [performAll_writing hscratch.fresh] at htarget
      exact Or.inr ⟨target, (replaceable_put_fresh hscratch.fresh _).1 htarget,
        performAll_writing_move hscratch.fresh pieces target⟩
    · exact Or.inl (hunfinished hscratch hbefore)

/-! ## What the path names -/

/-- The place of the entry that a path names. -/
def Names (disk : Disk) (path : String) (place : Place) : Prop :=
  ∃ directory name, disk.slot path = .ok (.named directory name) ∧ place = name :: directory

theorem Names.unique {disk : Disk} {path : String} {place other : Place} (h : disk.Names path place)
    (hother : disk.Names path other) : place = other := by
  obtain ⟨directory, name, hslot, rfl⟩ := h
  obtain ⟨directory', name', hslot', rfl⟩ := hother
  obtain ⟨rfl, rfl⟩ := Slot.named.inj (Except.ok.inj (hslot.symm.trans hslot'))
  rfl

/-- Putting an entry where a path says changes that entry only. -/
theorem Names.replaces_put {disk : Disk} {path : String} {place : Place} (h : disk.Names path place)
    (entry : Entry) : disk.Replaces (disk.put place entry) place entry := by
  obtain ⟨directory, name, _, rfl⟩ := h
  exact disk.replaces_put (List.cons_ne_nil name directory) entry

/-- A file is moved to the place that the path names. -/
theorem names_of_replaceable {disk : Disk} {path : String} {target : Place}
    (h : disk.replaceable path = .ok target) : disk.Names path target := by
  obtain ⟨directory, name, hslot, _, _, _, rfl⟩ := replaceable_eq_ok_iff.1 h
  exact ⟨directory, name, hslot, rfl⟩

/-- Nothing is lost and nothing half done: the entry that a path named before is as it was or a file
with the whole content; every other entry is as it was; and at most a scratch file has come. -/
structure Unharmed (before after : Disk) (path : String) (content : List UInt8) : Prop where
  named : ∀ place, before.Names path place →
    after.find? place = before.find? place ∨ after.find? place = some (.file content)
  others : ∀ place, ¬before.Names path place → (before.find? place).isSome →
    after.find? place = before.find? place
  extra : ∃ scratch, ∀ place, ¬before.Names path place → before.find? place = none →
    (after.find? place).isSome → place = scratch ∧ before.IsScratch path scratch
  workplace : after.workplace = before.workplace

section unharmed

variable {disk : Disk} {path : String} {content : List UInt8}

theorem unharmed_refl : disk.Unharmed disk path content where
  named _ _ := Or.inl rfl
  others _ _ _ := rfl
  extra := ⟨[], fun place _ hnone hsome => by rw [hnone] at hsome; cases hsome⟩
  workplace := rfl

/-- A scratch file has another name than the entry. -/
theorem IsScratch.not_names {scratch : Place} (h : disk.IsScratch path scratch) :
    ¬disk.Names path scratch := by
  rintro ⟨directory, name, hslot, heq⟩
  obtain ⟨other, place, rfl, hname, _⟩ := h.inside
  obtain ⟨rfl, -⟩ := List.cons.inj heq
  obtain ⟨_, hlast, _⟩ := slot_eq_named_iff.1 hslot
  exact hname (by rw [Path.fileName?, hlast])

theorem unharmed_put_scratch {scratch : Place} (h : disk.IsScratch path scratch)
    (written : List UInt8) : disk.Unharmed (disk.put scratch (.file written)) path content := by
  have hroot := ne_nil_of_find?_eq_none h.fresh
  have hothers := (disk.replaces_put hroot (.file written)).others
  refine ⟨fun place hplace => ?_, fun place _ hsome => ?_, ⟨scratch, fun place _ hnone hsome => ?_⟩,
    rfl⟩
  · exact Or.inl (hothers place fun heq => h.not_names (heq ▸ hplace))
  · refine hothers place fun heq => ?_
    rw [heq, h.fresh] at hsome
    cases hsome
  · by_cases heq : place = scratch
    · exact ⟨heq, h⟩
    · rw [hothers place heq, hnone] at hsome
      cases hsome

theorem unharmed_put_target {target : Place} (htarget : disk.replaceable path = .ok target) :
    disk.Unharmed (disk.put target (.file content)) path content := by
  have hnames := names_of_replaceable htarget
  have hreplaces := hnames.replaces_put (.file content)
  have hothers (place : Place) (hplace : ¬disk.Names path place) :
      (disk.put target (.file content)).find? place = disk.find? place :=
    hreplaces.others place fun heq => hplace (heq ▸ hnames)
  refine ⟨fun place hplace => ?_, fun place hplace _ => hothers place hplace,
    ⟨[], fun place hplace hnone hsome => ?_⟩, rfl⟩
  · obtain rfl := hplace.unique hnames
    exact Or.inr hreplaces.replaced
  · rw [hothers place hplace, hnone] at hsome
    cases hsome

end unharmed

/-- **A publication can be cut short anywhere.** Whatever the pieces and whatever fails, behind each
operation the entry that the path names is as it was or holds the whole font, the other entries are
as they were, and nothing but the scratch file has come. A publication that succeeds, on whatever
device, ends with the font under the path. -/
theorem interrupted_publication (disk : Disk) (path : String) (font : Font)
    (pieces : List (List UInt8)) (hpieces : pieces.flatten = font.bytes) :
    (∀ device, disk.Attempt path pieces (disk.publicationOn device path pieces).operations) ∧
    (∀ operations done, disk.Attempt path pieces operations → done <+: operations →
      disk.Unharmed (disk.performAll done) path font.bytes) ∧
    (∀ device, (disk.publicationOn device path pieces).result = .ok () →
      ∃ place, disk.Names path place ∧
        (disk.performAll (disk.publicationOn device path pieces).operations).find? place =
          some (.file font.bytes)) ∧
    font.bytes.length = 1792 := by
  refine ⟨fun device => disk.attempt_publicationOn device path pieces,
    fun operations done hattempt hdone => ?_, fun device hresult => ?_, font.length_bytes⟩
  · rcases hattempt.performAll_prefix hdone with hsame | ⟨scratch, written, hscratch, hwritten⟩ |
      ⟨target, htarget, hmoved⟩
    · rw [hsame]
      exact unharmed_refl
    · rw [hwritten]
      exact unharmed_put_scratch hscratch written
    · rw [hmoved, hpieces]
      exact unharmed_put_target htarget
  · have hexit := disk.exit_publicationOn device path pieces
    generalize disk.publicationOn device path pieces = publication at hexit hresult ⊢
    cases hexit with
    | moved hplace hname _ _ htarget =>
      have hnames := names_of_replaceable htarget
      rw [performAll_writing_move (hname ▸ disk.find?_freshName _ _), hpieces]
      exact ⟨_, hnames, (hnames.replaces_put _).replaced⟩
    | _ => cases hresult

/-- A disk with a file of three bytes. -/
def threeBytes : Disk where
  entries := [(["font.bin", "work-directory"], .file [1, 2, 3]), (home, .directory)]
  workplace := home

/-- The bytes of an empty font in two pieces. -/
def twoPieces : List (List UInt8) :=
  [List.replicate 1000 0, List.replicate 792 0]

theorem isName_font : IsName "font.bin" :=
  ⟨toOption_eq_some_iff.1 (by decide +kernel), by decide +kernel, by decide +kernel,
    by decide +kernel, by decide +kernel⟩

/-- The pieces over the file: behind the first one the three bytes are still there, and at the end
the font is. -/
theorem interrupted_threeBytes :
    twoPieces.flatten = List.replicate 1792 0 ∧
    ∃ operations, threeBytes.publication "font.bin" twoPieces = ⟨operations, .ok ()⟩ ∧
      (∀ n, threeBytes.Unharmed (threeBytes.performAll (operations.take n)) "font.bin"
        (List.replicate 1792 0)) ∧
      (threeBytes.performAll (operations.take 2)).find? ["font.bin", "work-directory"] =
        some (.file [1, 2, 3]) ∧
      (threeBytes.performAll operations).find? ["font.bin", "work-directory"] =
        some (.file (List.replicate 1792 0)) := by
  have hpieces : twoPieces.flatten = List.replicate 1792 0 := by
    rw [twoPieces, List.flatten_cons, List.flatten_singleton, List.replicate_append_replicate]
  have hfile : threeBytes.find? ["font.bin", "work-directory"] = some (.file [1, 2, 3]) := rfl
  have hplace : threeBytes.scratchDirectory (Path.directory "font.bin") = .ok home := by
    rw [show Path.directory "font.bin" = "." by decide +kernel]
    exact scratchDirectory_here rfl (toOption_eq_some_iff.1 (by decide +kernel))
  have htarget : threeBytes.replaceable "font.bin" = .ok ["font.bin", "work-directory"] :=
    isName_font.replaceable rfl (by decide +kernel)
  obtain ⟨scratch, hscratch, hplan⟩ := publication_of_replaceable twoPieces hplace htarget
  have hne : ["font.bin", "work-directory"] ≠ scratch := by
    rintro rfl
    rw [hfile] at hscratch
    cases hscratch
  obtain ⟨hattempt, hsafe, hdone, _⟩ := interrupted_publication threeBytes "font.bin"
    ⟨List.replicate 1792 0, List.length_replicate⟩ twoPieces hpieces
  have hattempt := hattempt .sound
  have hdone := hdone .sound
  rw [← publication, hplan] at hattempt hdone
  refine ⟨hpieces, _, hplan, fun n => hsafe _ _ hattempt (List.take_prefix n _), ?_, ?_⟩
  · have hroot := ne_nil_of_find?_eq_none hscratch
    have hhalf : threeBytes.performAll [.create scratch, .append scratch (.replicate 1000 0)] =
        threeBytes.put scratch (.file ([] ++ [List.replicate 1000 0].flatten)) :=
      performAll_appends hroot [] [List.replicate 1000 0]
    show (threeBytes.performAll [.create scratch, .append scratch (.replicate 1000 0)]).find? _ = _
    rw [hhalf, (threeBytes.replaces_put hroot _).others _ hne, hfile]
  · obtain ⟨place, hnames, hfont⟩ := hdone rfl
    obtain rfl := hnames.unique ⟨home, "font.bin", isName_font.slot rfl, rfl⟩
    exact hfont

end Disk

end GlyphStrip
