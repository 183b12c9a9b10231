import GlyphStrip.ConvertFile
import GlyphStrip.Proofs.Png.Blank
import GlyphStrip.Proofs.Publishing
import GlyphStrip.Proofs.Strip.Packing

/-!
# What a conversion does to the disk

A conversion fails on the disk that was there, or replaces the one entry that its output path names
(`convertFile_cases`). The strip is read before anything is written, so it does not matter how the
two paths are related: they may be equal, and each may be a link to the other.
-/

namespace GlyphStrip

theorem Font.ofBytes?_bytes (font : Font) : ofBytes? font.bytes = .ok font :=
  dif_pos font.length_bytes

namespace Disk

/-! ## The stages of a conversion -/

section stages

variable {disk : Disk} {input : String} {image : Image} (device : Device) (output : String)

theorem convertFileOn_of_load_error {error : LoadError} (hload : disk.load input = .error error) :
    disk.convertFileOn device input output = ⟨[], .error (.load error), disk⟩ := by
  rw [convertFileOn, planOn, hload]
  rfl

theorem convertFileOn_of_pack_error {error : PackError} (hload : disk.load input = .ok image)
    (hpack : (Source.ofGray image.toGray).pack.result = .error error) :
    disk.convertFileOn device input output =
      ⟨(convertImage input image).1, .error (.pack input error), disk⟩ := by
  have hconvert : convertImage input image =
      ((convertImage input image).1, .error (.pack input error)) := by
    rw [convertImage, hpack, Except.mapError]
  rw [convertFileOn, planOn, hload]
  dsimp only
  rw [hconvert]
  simp [Plan.carryOut, Function.comp_def]

/-- Once a strip is packed, its event and those of its glyphs have been told, and one more tells of
the font if it is published. -/
theorem convertFileOn_eq_of_pack {font : Font} (hload : disk.load input = .ok image)
    (hpack : (Source.ofGray image.toGray).pack.result = .ok font) :
    disk.convertFileOn device input output = match disk.publishOn device output font with
      | (.error error, after) => ⟨(convertImage input image).1, .error (.publish error), after⟩
      | (.ok _, after) =>
        ⟨(convertImage input image).1 ++ [.wroteFont input output], .ok font, after⟩ := by
  have hconvert : convertImage input image = ((convertImage input image).1, .ok font) := by
    rw [convertImage, hpack, Except.mapError]
  rw [convertFileOn, planOn, hload, publishOn]
  dsimp only
  rw [hconvert]
  dsimp only
  generalize disk.publicationOn device output (device.cut font.bytes) = publication
  obtain ⟨operations, result⟩ := publication
  cases result <;> simp [Plan.carryOut, Function.comp_def, List.filterMap_cons]

/-- Once a strip is packed, a conversion goes as the publication of the font goes. -/
theorem convertFileOn_of_pack {font : Font} (hload : disk.load input = .ok image)
    (hpack : (Source.ofGray image.toGray).pack.result = .ok font) :
    (disk.convertFileOn device input output).result =
        ((disk.publishOn device output font).1.mapError ConvertError.publish).map (fun _ => font) ∧
      (disk.convertFileOn device input output).disk = (disk.publishOn device output font).2 := by
  rw [convertFileOn_eq_of_pack device output hload hpack]
  obtain ⟨result, after⟩ := disk.publishOn device output font
  cases result <;> exact ⟨rfl, rfl⟩

theorem convertFile_of_load_error {error : LoadError} (hload : disk.load input = .error error) :
    disk.convertFile input output = ⟨[], .error (.load error), disk⟩ :=
  convertFileOn_of_load_error .sound output hload

theorem convertFile_of_pack_error {error : PackError} (hload : disk.load input = .ok image)
    (hpack : (Source.ofGray image.toGray).pack.result = .error error) :
    disk.convertFile input output =
      ⟨(convertImage input image).1, .error (.pack input error), disk⟩ :=
  convertFileOn_of_pack_error .sound output hload hpack

theorem convertFile_eq_of_pack {font : Font} (hload : disk.load input = .ok image)
    (hpack : (Source.ofGray image.toGray).pack.result = .ok font) :
    disk.convertFile input output = match disk.publish output font with
      | (.error error, after) => ⟨(convertImage input image).1, .error (.publish error), after⟩
      | (.ok _, after) =>
        ⟨(convertImage input image).1 ++ [.wroteFont input output], .ok font, after⟩ := by
  rw [convertFile, convertFileOn_eq_of_pack .sound output hload hpack, publish]

theorem convertFile_of_pack {font : Font} (hload : disk.load input = .ok image)
    (hpack : (Source.ofGray image.toGray).pack.result = .ok font) :
    (disk.convertFile input output).result =
        ((disk.publish output font).1.mapError ConvertError.publish).map (fun _ => font) ∧
      (disk.convertFile input output).disk = (disk.publish output font).2 := by
  rw [convertFile, publish]
  exact convertFileOn_of_pack .sound output hload hpack

/-- The stage that ends a conversion decides all that it leaves behind. -/
inductive Course (disk : Disk) (input output : String) : Conversion → Prop where
  | unloaded {error : LoadError} (hload : disk.load input = .error error) :
    Course disk input output ⟨[], .error (.load error), disk⟩
  | unpacked {image : Image} {error : PackError} (hload : disk.load input = .ok image)
      (hpack : (Source.ofGray image.toGray).pack.result = .error error) :
    Course disk input output ⟨(convertImage input image).1, .error (.pack input error), disk⟩
  | unpublished {image : Image} {font : Font} {error : PublishError}
      (hload : disk.load input = .ok image)
      (hpack : (Source.ofGray image.toGray).pack.result = .ok font) :
    Course disk input output ⟨(convertImage input image).1, .error (.publish error), disk⟩
  | published {image : Image} {font : Font} {target : Place} (hload : disk.load input = .ok image)
      (hpack : (Source.ofGray image.toGray).pack.result = .ok font)
      (htarget : disk.replaceable output = .ok target) :
    Course disk input output ⟨(convertImage input image).1 ++ [.wroteFont input output], .ok font,
      disk.put target (.file font.bytes)⟩

theorem course_convertFileOn (disk : Disk) (device : Device) (input output : String) :
    disk.Course input output (disk.convertFileOn device input output) := by
  cases hload : disk.load input with
  | error error =>
    rw [convertFileOn_of_load_error device output hload]
    exact .unloaded hload
  | ok image =>
    cases hpack : (Source.ofGray image.toGray).pack.result with
    | error error =>
      rw [convertFileOn_of_pack_error device output hload hpack]
      exact .unpacked hload hpack
    | ok font =>
      rw [convertFileOn_eq_of_pack device output hload hpack]
      rcases publishOn_cases font device with ⟨error, hpublish⟩ | ⟨target, htarget, hpublish⟩
      · rw [hpublish]
        exact .unpublished hload hpack
      · rw [hpublish]
        exact .published hload hpack htarget

theorem course_convertFile (disk : Disk) (input output : String) :
    disk.Course input output (disk.convertFile input output) :=
  disk.course_convertFileOn .sound input output

/-- A conversion fails and leaves the disk alone, or puts the font that the loaded strip packs into
where its output path says. -/
theorem convertFile_cases :
    (∃ error, (disk.convertFile input output).result = .error error) ∧
      (disk.convertFile input output).disk = disk ∨
    ∃ image font target, disk.load input = .ok image ∧
      (Source.ofGray image.toGray).pack.result = .ok font ∧ disk.replaceable output = .ok target ∧
      (disk.convertFile input output).result = .ok font ∧
      (disk.convertFile input output).disk = disk.put target (.file font.bytes) := by
  have hcourse := disk.course_convertFile input output
  generalize disk.convertFile input output = conversion at hcourse ⊢
  cases hcourse with
  | unloaded hload => exact Or.inl ⟨⟨_, rfl⟩, rfl⟩
  | unpacked hload hpack => exact Or.inl ⟨⟨_, rfl⟩, rfl⟩
  | unpublished hload hpack => exact Or.inl ⟨⟨_, rfl⟩, rfl⟩
  | published hload hpack htarget => exact Or.inr ⟨_, _, _, hload, hpack, htarget, rfl, rfl⟩

end stages

/-! ## The replaced entry -/

/-- On a tree a path never leads to a link; it leads to what the link stands for. -/
theorem ne_of_resolve {disk : Disk} (htree : disk.IsTree) {path name target : String}
    {directory place : Place} (hslot : disk.slot path = .ok (.named directory name))
    (hlink : disk.find? (name :: directory) = some (.link target))
    (hresolve : disk.resolve path = .ok place) : place ≠ name :: directory := by
  obtain ⟨_, hlast, _⟩ := slot_eq_named_iff.1 hslot
  obtain ⟨_, links, hwalks⟩ := resolve_eq_ok_iff.1 hresolve
  have hsteps : Path.allSteps path ≠ [] := by
    have hne : Path.steps path ≠ [] := by
      intro hnil
      rw [hnil] at hlast
      cases hlast
    rw [Path.allSteps]
    split
    · simp
    · exact hne
  intro heq
  rw [← heq] at hlink
  exact hwalks.find?_ne_link htree (fun hnil => absurd hnil hsteps) target hlink

/-- **A conversion replaces the entry that its output path names, and nothing else.** The entry
becomes a file with the bytes of the font; a link there is replaced and not followed. The font is
what the input held before, so the two paths may lead to each other. -/
theorem convertFile_replaces_output {disk : Disk} {input output : String} {font : Font}
    (h : (disk.convertFile input output).result = .ok font) :
    ∃ directory name image, disk.slot output = .ok (.named directory name) ∧
      disk.Replaces (disk.convertFile input output).disk (name :: directory) (.file font.bytes) ∧
      font.bytes.length = 1792 ∧
      (disk.IsTree → (disk.convertFile input output).disk.IsTree ∧
        ∀ target place, disk.find? (name :: directory) = some (.link target) →
          disk.resolve output = .ok place → place ≠ name :: directory ∧
            (disk.convertFile input output).disk.find? place = disk.find? place) ∧
      disk.load input = .ok image ∧ (Source.ofGray image.toGray).pack.result = .ok font ∧
      Font.ofBytes? font.bytes = .ok font ∧
      ∀ (c : UInt8) (row column : Nat), row < 7 → column < 8 → ∃ value,
        image.toGray.get? (.ofNat (8 * c.toNat + column)) (.ofNat row) = some value ∧
          font.pixel? c row column = some (value != 255) := by
  rcases convertFile_cases output with ⟨⟨error, hfails⟩, _⟩ |
    ⟨image, packed, place, hload, hpack, hplace, hresult, hafter⟩
  · rw [hfails] at h
    cases h
  obtain rfl : packed = font := Except.ok.inj (hresult.symm.trans h)
  rw [hafter]
  obtain ⟨directory, name, hslot, _, _, hentry, rfl⟩ := replaceable_eq_ok_iff.1 hplace
  have hreplaces := disk.replaces_put (List.cons_ne_nil name directory) (.file packed.bytes)
  refine ⟨directory, name, image, hslot, hreplaces, packed.length_bytes, fun htree => ⟨?_, ?_⟩,
    hload, hpack, packed.ofBytes?_bytes, fun c row column hrow hcolumn => ?_⟩
  · exact htree.replaces (find?_of_slot hslot) hentry hreplaces
  · intro target place hlink hresolve
    have hne := ne_of_resolve htree hslot hlink hresolve
    exact ⟨hne, hreplaces.others place hne⟩
  · obtain ⟨value, hvalue, hpixel⟩ := (Source.draws_of_pack hpack).pixel c row column hrow hcolumn
    exact ⟨value, Source.luminance_ofGray_eq_ok_iff.1 hvalue, hpixel⟩

/-- A disk with a black strip and a link to it. -/
def linkedStrip : Disk where
  entries := [(["strip.png", "work-directory"], .file Png.blackStrip),
    (["link.png", "work-directory"], .link "strip.png"), (home, .directory)]
  workplace := home

theorem isName_strip : IsName "strip.png" :=
  ⟨toOption_eq_some_iff.1 (by decide +kernel), by decide +kernel, by decide +kernel,
    by decide +kernel, by decide +kernel⟩

theorem isName_link : IsName "link.png" :=
  ⟨toOption_eq_some_iff.1 (by decide +kernel), by decide +kernel, by decide +kernel,
    by decide +kernel, by decide +kernel⟩

theorem load_of_resolve {disk : Disk} {path : String} {place : Place} {content : List UInt8}
    {image : Image} (hresolve : disk.resolve path = .ok place)
    (hfile : disk.find? place = some (.file content)) (hformat : Format.guess path content = .png)
    (hdecode : Png.decode content = .ok image) : disk.load path = .ok image := by
  have hcontent : disk.content place = .ok content := by rw [Disk.content, hfile]
  rw [load, hresolve]
  dsimp only
  rw [hcontent]
  dsimp only
  rw [decodeFile, hformat]
  dsimp only
  rw [hdecode]

/-- Both paths lead to the strip. -/
theorem exists_load_linkedStrip : ∃ image, image.toGray.width = 2048 ∧ image.toGray.height = 7 ∧
    ∀ path, path = "strip.png" ∨ path = "link.png" → linkedStrip.load path = .ok image := by
  obtain ⟨image, hdecode, hwidth, hheight⟩ := Png.decode_blackStrip
  have hfile : linkedStrip.find? ["strip.png", "work-directory"] = some (.file Png.blackStrip) := by
    decide +kernel
  have hlink : linkedStrip.find? ["link.png", "work-directory"] = some (.link "strip.png") := by
    decide +kernel
  have hformat (path : String) : Format.guess path Png.blackStrip = .png := by
    have hsignature : Format.ofSignature? Png.blackStrip = some .png := by decide +kernel
    rw [Format.guess, hsignature]
  refine ⟨image, hwidth, hheight, ?_⟩
  rintro path (rfl | rfl)
  · exact load_of_resolve (isName_strip.resolve_of_file rfl hfile) hfile (hformat _) hdecode
  · exact load_of_resolve (isName_link.resolve_of_link rfl isName_strip hlink hfile) hfile
      (hformat _) hdecode

theorem load_linkedStrip {path : String} (hpath : path = "strip.png" ∨ path = "link.png") :
    ∃ image, linkedStrip.load path = .ok image ∧ image.toGray.width = 2048 ∧
      image.toGray.height = 7 := by
  obtain ⟨image, hwidth, hheight, hload⟩ := exists_load_linkedStrip
  exact ⟨image, hload path hpath, hwidth, hheight⟩

theorem load_missing_linkedStrip :
    linkedStrip.load "none.png" = .error (.opening "none.png" .notFound) := by
  have hname : IsName "none.png" :=
    ⟨toOption_eq_some_iff.1 (by decide +kernel), by decide +kernel, by decide +kernel,
      by decide +kernel, by decide +kernel⟩
  rw [load, hname.resolve_of_missing rfl (by decide +kernel)]

theorem scratchDirectory_linkedStrip {output : String} (hdirectory : Path.directory output = ".") :
    linkedStrip.scratchDirectory (Path.directory output) = .ok home := by
  rw [hdirectory]
  exact scratchDirectory_here rfl (toOption_eq_some_iff.1 (by decide +kernel))

theorem convertFile_linkedStrip_ok {input output : String}
    (hinput : input = "strip.png" ∨ input = "link.png") (houtput : IsName output)
    (hdirectory : Path.directory output = ".")
    (hentry : linkedStrip.find? (output :: home) ≠ some .directory) :
    ∃ font, (linkedStrip.convertFile input output).result = .ok font := by
  obtain ⟨image, hload, hwidth, hheight⟩ := load_linkedStrip hinput
  have hplace := scratchDirectory_linkedStrip hdirectory
  obtain ⟨font, hpack⟩ := Source.exists_pack_ofGray hwidth hheight
  refine ⟨font, ?_⟩
  rw [(convertFile_of_pack output hload hpack).1,
    publish_of_replaceable font hplace (houtput.replaceable rfl hentry)]
  rfl

/-- A link at the output is replaced and the strip behind it stays; the strip can be converted onto
itself, also through the link. -/
theorem convertFile_linkedStrip :
    (∃ font, (linkedStrip.convertFile "strip.png" "link.png").result = .ok font ∧
      (linkedStrip.convertFile "strip.png" "link.png").disk.find? ["link.png", "work-directory"] =
        some (.file font.bytes) ∧
      (linkedStrip.convertFile "strip.png" "link.png").disk.find? ["strip.png", "work-directory"] =
        some (.file Png.blackStrip)) ∧
    ∀ input ∈ ["strip.png", "link.png"], ∃ font,
      (linkedStrip.convertFile input "strip.png").result = .ok font ∧
      (linkedStrip.convertFile input "strip.png").disk.find? ["strip.png", "work-directory"] =
        some (.file font.bytes) ∧
      (linkedStrip.convertFile input "strip.png").disk.find? ["link.png", "work-directory"] =
        some (.link "strip.png") := by
  have hrun {input output : String} (hinput : input = "strip.png" ∨ input = "link.png")
      (houtput : IsName output) (hdirectory : Path.directory output = ".")
      (hentry : linkedStrip.find? (output :: home) ≠ some .directory) :
      ∃ font, (linkedStrip.convertFile input output).result = .ok font ∧
        linkedStrip.Replaces (linkedStrip.convertFile input output).disk (output :: home)
          (.file font.bytes) := by
    obtain ⟨font, hfont⟩ := convertFile_linkedStrip_ok hinput houtput hdirectory hentry
    obtain ⟨directory, name, _, hslot, hreplaces, _⟩ := convertFile_replaces_output hfont
    obtain ⟨rfl, rfl⟩ := Slot.named.inj (Except.ok.inj ((houtput.slot rfl).symm.trans hslot))
    exact ⟨font, hfont, hreplaces⟩
  constructor
  · obtain ⟨font, hfont, hreplaces⟩ := hrun (Or.inl rfl) isName_link (by decide +kernel)
      (by decide +kernel)
    refine ⟨font, hfont, hreplaces.replaced, ?_⟩
    rw [hreplaces.others _ (by decide)]
    rfl
  · intro input hinput
    obtain ⟨font, hfont, hreplaces⟩ := hrun (by simpa using hinput) isName_strip
      (by decide +kernel) (by decide +kernel)
    refine ⟨font, hfont, hreplaces.replaced, ?_⟩
    rw [hreplaces.others _ (by decide)]
    rfl

/-! ## Failures -/

end Disk

/-- A device without room for a font. -/
def Device.full : Device :=
  { Device.sound with writeFault? := fun _ => some DiskFault.storageFull }

/-- A device that takes all bytes and fails to sync them. -/
def Device.unsynced : Device :=
  { Device.sound with syncFault? := some DiskFault.hardware }

namespace Disk

/-- **A failure leaves the disk as it was**, at whatever stage a conversion or a publication fails:
also on a device that fails to write some piece of the font or to sync it. -/
theorem failure_leaves_disk :
    (∀ (device : Device) (disk : Disk) (input output : String) (error : ConvertError),
      (disk.convertFileOn device input output).result = .error error →
        (disk.convertFileOn device input output).disk = disk) ∧
    (∀ (device : Device) (disk : Disk) (path : String) (font : Font) (error : PublishError),
      (disk.publishOn device path font).1 = .error error →
        (disk.publishOn device path font).2 = disk) ∧
    (∀ (disk : Disk) (input output : String) (error : ConvertError),
      (disk.convertFile input output).result = .error error →
        (disk.convertFile input output).disk = disk) ∧
    ∀ (disk : Disk) (path : String) (font : Font) (error : PublishError),
      (disk.publish path font).1 = .error error → (disk.publish path font).2 = disk := by
  have hconvert : ∀ (device : Device) (disk : Disk) (input output : String) (error : ConvertError),
      (disk.convertFileOn device input output).result = .error error →
        (disk.convertFileOn device input output).disk = disk := by
    intro device disk input output error h
    have hcourse := disk.course_convertFileOn device input output
    generalize disk.convertFileOn device input output = conversion at hcourse h ⊢
    cases hcourse with
    | published => cases h
    | _ => rfl
  have hpublish : ∀ (device : Device) (disk : Disk) (path : String) (font : Font)
      (error : PublishError), (disk.publishOn device path font).1 = .error error →
        (disk.publishOn device path font).2 = disk := by
    intro device disk path font error h
    rcases publishOn_cases font device with ⟨error, hfails⟩ | ⟨target, _, hpublish⟩
    · rw [hfails]
    · rw [hpublish] at h
      cases h
  exact ⟨hconvert, hpublish, hconvert .sound, hpublish .sound⟩

theorem replaceable_dot_ne_ok (disk : Disk) (target : Place) :
    disk.replaceable "." ≠ .ok target := by
  intro h
  obtain ⟨directory, name, hslot, _⟩ := replaceable_eq_ok_iff.1 h
  obtain ⟨_, hlast, _⟩ := slot_eq_named_iff.1 hslot
  have hsteps : (Path.steps ".").getLast? = some .stay := by decide +kernel
  rw [hsteps] at hlast
  cases hlast

section devices

variable {disk : Disk} {path : String} {place : Place} (font : Font)
  (hplace : disk.scratchDirectory (Path.directory path) = .ok place)

include hplace

theorem publishOn_full : ∃ scratch,
    (disk.publishOn .full path font).1 = .error (.writing scratch .storageFull) := by
  have hexit := disk.exit_publicationOn .full path (Device.full.cut font.bytes)
  rw [publishOn]
  generalize disk.publicationOn .full path (Device.full.cut font.bytes) = publication at hexit
  cases hexit with
  | uncreated hfault => cases hplace.symm.trans hfault
  | unwritten _ _ _ hfault =>
    cases hfault
    exact ⟨_, rfl⟩
  | unsynced _ _ hwritten | unmoved _ _ hwritten | moved _ _ hwritten =>
    cases hwritten 0 Nat.one_pos

theorem publishOn_unsynced : ∃ scratch,
    (disk.publishOn .unsynced path font).1 = .error (.syncing scratch .hardware) := by
  have hexit := disk.exit_publicationOn .unsynced path (Device.unsynced.cut font.bytes)
  rw [publishOn]
  generalize disk.publicationOn .unsynced path (Device.unsynced.cut font.bytes) = publication
    at hexit
  cases hexit with
  | uncreated hfault => cases hplace.symm.trans hfault
  | unwritten _ _ _ hfault => cases hfault
  | unsynced _ _ _ hfault =>
    cases hfault
    exact ⟨_, rfl⟩
  | unmoved _ _ _ hsynced | moved _ _ _ hsynced => cases hsynced

end devices

/-- Moved over a directory, the scratch file is taken away again and the disk is as it was; so it is
on a device that is full and on one that does not sync. -/
theorem failure_linkedStrip :
    (∃ fault, (linkedStrip.convertFile "strip.png" ".").result =
      .error (.publish (.persisting "." fault))) ∧
    (linkedStrip.convertFile "strip.png" ".").disk = linkedStrip ∧
    (linkedStrip.publish "." ⟨List.replicate 1792 0, List.length_replicate⟩).2 = linkedStrip ∧
    (∃ scratch, (linkedStrip.convertFileOn .full "strip.png" "link.png").result =
      .error (.publish (.writing scratch .storageFull))) ∧
    (linkedStrip.convertFileOn .full "strip.png" "link.png").disk = linkedStrip ∧
    ∃ font scratch,
      (linkedStrip.publishOn .unsynced "link.png" font).1 = .error (.syncing scratch .hardware) ∧
        (linkedStrip.publishOn .unsynced "link.png" font).2 = linkedStrip := by
  obtain ⟨hconvertOn, hpublishOn, hconvert, hpublish⟩ := failure_leaves_disk
  have hdirectory : Path.directory "." = "." := by decide +kernel
  have hplace := scratchDirectory_linkedStrip hdirectory
  have hbeside : linkedStrip.scratchDirectory (Path.directory "link.png") = .ok home :=
    scratchDirectory_linkedStrip (by decide +kernel)
  obtain ⟨image, hload, hwidth, hheight⟩ := load_linkedStrip (Or.inl rfl)
  obtain ⟨font, hpack⟩ := Source.exists_pack_ofGray hwidth hheight
  obtain ⟨fault, hfault⟩ :=
    publish_of_not_replaceable font hplace (replaceable_dot_ne_ok linkedStrip)
  obtain ⟨_, hother⟩ := publish_of_not_replaceable ⟨List.replicate 1792 0, List.length_replicate⟩
    hplace (replaceable_dot_ne_ok linkedStrip)
  have hresult : (linkedStrip.convertFile "strip.png" ".").result =
      .error (.publish (.persisting "." fault)) := by
    rw [(convertFile_of_pack "." hload hpack).1, hfault]
    rfl
  obtain ⟨scratch, hfull⟩ := publishOn_full font hbeside
  have hunwritten : (linkedStrip.convertFileOn .full "strip.png" "link.png").result =
      .error (.publish (.writing scratch .storageFull)) := by
    rw [(convertFileOn_of_pack .full "link.png" hload hpack).1, hfull]
    rfl
  obtain ⟨other, hunsynced⟩ := publishOn_unsynced font hbeside
  exact ⟨⟨fault, hresult⟩, hconvert _ _ _ _ hresult, hpublish _ _ _ _ (by rw [hother]),
    ⟨scratch, hunwritten⟩, hconvertOn _ _ _ _ _ hunwritten, font, other, hunsynced,
    hpublishOn _ _ _ _ _ hunsynced⟩

end Disk

end GlyphStrip
