import GlyphStrip.Proofs.Conversion
import GlyphStrip.Proofs.Disk.Footprint

/-!
# Converting again

A conversion replaces one entry. If neither the input nor the directory of the output is found by
way of that entry, all that a second conversion reads is as it was, and it puts the same file at the
same place (`Disk.convertFile_again`).
-/

namespace GlyphStrip

namespace Disk

theorem load_eq_ok_iff {disk : Disk} {path : String} {image : Image} :
    disk.load path = .ok image ↔ ∃ place content, disk.resolve path = .ok place ∧
      disk.find? place = some (.file content) ∧ decodeFile path content = .ok image := by
  constructor
  · intro h
    rw [load] at h
    split at h
    · cases h
    · rename_i place hplace
      rw [Disk.content] at h
      split at h
      · cases h
      · rename_i content hcontent
        split at hcontent
        · rename_i found hfound
          obtain rfl : found = content := Except.ok.inj hcontent
          exact ⟨place, found, hplace, hfound, h⟩
        · cases hcontent
        · cases hcontent
  · rintro ⟨place, content, hplace, hfound, h⟩
    rw [load, hplace]
    dsimp only
    rw [Disk.content, hfound]
    exact h

/-! ## What the replaced entry leaves as it was -/

section replaces

variable {before after : Disk} {target : Place} {entry : Entry}
  (hreplaces : before.Replaces after target entry) (htarget : before.find? target ≠ some .directory)

include hreplaces htarget

theorem load_of_replaces {path : String} {image : Image} (h : before.load path = .ok image)
    (hunseen : target ∉ before.consulted path) : after.load path = .ok image := by
  obtain ⟨place, content, hplace, hfound, hdecode⟩ := load_eq_ok_iff.1 h
  have hne : place ≠ target := by
    rintro rfl
    exact hunseen (mem_consulted_of_resolve hplace)
  refine load_eq_ok_iff.2 ⟨place, content, ?_, ?_, hdecode⟩
  · exact resolve_of_replaces hreplaces htarget hplace hunseen
  · rw [hreplaces.others place hne, hfound]

theorem scratchDirectory_of_replaces {directory : String} {place : Place}
    (h : before.scratchDirectory directory = .ok place)
    (hunseen : target ∉ before.consulted directory) :
    after.scratchDirectory directory = .ok place := by
  obtain ⟨_, hcheck, hplace⟩ := bind_eq_ok_iff.1 h
  refine bind_eq_ok_iff.2 ⟨(), ?_, resolveDirectory_of_replaces hreplaces htarget hplace hunseen⟩
  have hpath : after.absolute directory = before.absolute directory := by
    rw [absolute, absolute, hreplaces.workplace]
  unfold scratchPath at hcheck ⊢
  rw [hpath]
  exact hcheck

end replaces

/-- What was published can be published again: a file is there now, whatever was there before. -/
theorem replaceable_of_replaces {before after : Disk} {path name : String} {directory : Place}
    {content : List UInt8} (h : before.replaceable path = .ok (name :: directory))
    (hreplaces : before.Replaces after (name :: directory) (.file content))
    (hunseen : name :: directory ∉ before.consulted (Path.directory path)) :
    after.replaceable path = .ok (name :: directory) := by
  obtain ⟨_, _, hslot, hname, hslash, hentry, heq⟩ := replaceable_eq_ok_iff.1 h
  obtain ⟨rfl, rfl⟩ := List.cons.inj heq
  refine replaceable_eq_ok_iff.2 ⟨directory, name, ?_, hname, hslash, ?_, rfl⟩
  · exact slot_of_replaces hreplaces hentry hslot hunseen
  · rw [hreplaces.replaced]
    simp

/-! ## The stages of a successful run -/

section stages

variable {disk : Disk} {input output : String} {font : Font}

theorem convertFile_of_stages {image : Image} {place target : Place}
    (hload : disk.load input = .ok image)
    (hpack : (Source.ofGray image.toGray).pack.result = .ok font)
    (hplace : disk.scratchDirectory (Path.directory output) = .ok place)
    (htarget : disk.replaceable output = .ok target) :
    disk.convertFile input output = ⟨(convertImage input image).1 ++ [.wroteFont input output],
      .ok font, disk.put target (.file font.bytes)⟩ := by
  rw [convertFile_eq_of_pack output hload hpack, publish_of_replaceable font hplace htarget]

theorem stages_of_convertFile (h : (disk.convertFile input output).result = .ok font) :
    ∃ image place target, disk.load input = .ok image ∧
      (Source.ofGray image.toGray).pack.result = .ok font ∧
      disk.scratchDirectory (Path.directory output) = .ok place ∧
      disk.replaceable output = .ok target := by
  rcases convertFile_cases output with ⟨⟨error, hfails⟩, _⟩ |
    ⟨image, packed, target, hload, hpack, htarget, hresult, _⟩
  · rw [hfails] at h
    cases h
  obtain rfl : packed = font := Except.ok.inj (hresult.symm.trans h)
  cases hplace : disk.scratchDirectory (Path.directory output) with
  | ok place => exact ⟨image, place, target, hload, hpack, rfl, htarget⟩
  | error fault =>
    rw [(convertFile_of_pack output hload hpack).1, publish_of_no_directory packed hplace] at h
    cases h

end stages

/-- **Converting again changes nothing.** The entry that the output path names may have been
anything that can be replaced. If it is not consulted on the way to the input or to the directory of
the output, a second conversion finds the same strip and the same directory, and ends as the first
one: with the same events, the same font, and the disk as the first one left it. -/
theorem convertFile_again {disk : Disk} {input output name : String} {directory : Place}
    {font : Font}
    (h : (disk.convertFile input output).result = .ok font)
    (hslot : disk.slot output = .ok (.named directory name))
    (hinput : name :: directory ∉ disk.consulted input)
    (hparent : name :: directory ∉ disk.consulted (Path.directory output)) :
    (disk.convertFile input output).disk.convertFile input output =
      disk.convertFile input output := by
  obtain ⟨image, place, target, hload, hpack, hplace, htarget⟩ := stages_of_convertFile h
  obtain ⟨_, _, hnamed, _, _, hentry, rfl⟩ := replaceable_eq_ok_iff.1 htarget
  obtain ⟨rfl, rfl⟩ := Slot.named.inj (Except.ok.inj (hslot.symm.trans hnamed))
  have hreplaces := disk.replaces_put (List.cons_ne_nil name directory) (.file font.bytes)
  have hfirst := convertFile_of_stages hload hpack hplace htarget
  have hsecond := convertFile_of_stages (load_of_replaces hreplaces hentry hload hinput) hpack
    (scratchDirectory_of_replaces hreplaces hentry hplace hparent)
    (replaceable_of_replaces htarget hreplaces hparent)
  -- the second run puts the same file over the one that the first run has put there
  rw [put_put] at hsecond
  rw [hfirst]
  exact hsecond

/-- Converted twice over a link that leads to it, a strip gives the same font both times; the first
run replaces the link, the second one the font. -/
theorem convertFile_again_linkedStrip :
    ∃ font, (linkedStrip.convertFile "strip.png" "link.png").result = .ok font ∧
      linkedStrip.find? ["link.png", "work-directory"] = some (.link "strip.png") ∧
      ((linkedStrip.convertFile "strip.png" "link.png").disk.convertFile "strip.png"
        "link.png").result = .ok font ∧
      ((linkedStrip.convertFile "strip.png" "link.png").disk.convertFile "strip.png"
        "link.png").disk = (linkedStrip.convertFile "strip.png" "link.png").disk := by
  have hdirectory : Path.directory "link.png" = "." := by decide +kernel
  obtain ⟨font, hfont⟩ := convertFile_linkedStrip_ok (Or.inl rfl) isName_link hdirectory
    (by decide +kernel)
  have hfile : linkedStrip.find? ("strip.png" :: linkedStrip.workplace) =
      some (.file Png.blackStrip) := by
    decide +kernel
  have hinput : "link.png" :: home ∉ linkedStrip.consulted "strip.png" := by
    intro hmem
    have heq := isName_strip.eq_of_mem_consulted rfl hfile hmem
    exact absurd heq (by decide)
  have hparent : "link.png" :: home ∉ linkedStrip.consulted (Path.directory "link.png") := by
    rw [hdirectory]
    intro hmem
    have heq := eq_of_mem_consulted_here rfl hmem
    exact absurd heq (by decide)
  have hagain := convertFile_again hfont (isName_link.slot rfl) hinput hparent
  refine ⟨font, hfont, by decide +kernel, ?_, ?_⟩
  · rw [hagain, hfont]
  · rw [hagain]

end Disk

end GlyphStrip
