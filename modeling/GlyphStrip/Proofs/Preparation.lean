import GlyphStrip.Proofs.Conversion

/-!
# What a conversion decides before it writes

The output path plays no part until a font is packed. So either the input fails in one way for all
outputs, or it gives one font for all of them (`Disk.preparation_cases`). A grey picture has all its
pixels, so only its size can be wrong (`Source.pack_ofGray_cases`).
-/

namespace GlyphStrip

/-- The errors in front of the publication: a picture that cannot be loaded, or of the wrong
size. -/
inductive ConvertError.IsEarly : ConvertError → Prop where
  | load (error : LoadError) : IsEarly (.load error)
  | shape (input : String) (error : ShapeError) : IsEarly (.pack input (.shape error))

theorem Source.pack_ofGray_cases (image : GrayImage) :
    (ofGray image).pack.result = .error (.shape ⟨image.width, image.height⟩) ∨
      ∃ font, (ofGray image).pack.result = .ok font := by
  by_cases hsize : image.width = 2048 ∧ image.height = 7
  · exact Or.inr (exists_pack_ofGray hsize.1 hsize.2)
  · have hstrip : ¬(ofGray image).IsStrip := mt isStrip_iff.1 hsize
    rw [pack_of_not_isStrip hstrip]
    exact Or.inl rfl

namespace Disk

variable {disk : Disk} {input : String}

/-- A conversion that has packed a font goes as the publication of the font does, where the scratch
file is created before the output path is looked at. -/
structure Publishes (disk : Disk) (input : String) (events : List Event) (font : Font)
    (output : String) : Prop where
  failed : ∀ error after, disk.publish output font = (.error error, after) →
    disk.convertFile input output = ⟨events, .error (.publish error), after⟩
  succeeded : ∀ after, disk.publish output font = (.ok (), after) →
    disk.convertFile input output = ⟨events ++ [.wroteFont input output], .ok font, after⟩
  creating : ∀ fault, disk.scratchDirectory (Path.directory output) = .error fault →
    disk.publish output font = (.error (.creating (Path.directory output) fault), disk)
  persisting : ∀ place, disk.scratchDirectory (Path.directory output) = .ok place →
    (∀ target, disk.replaceable output ≠ .ok target) →
      ∃ fault, disk.publish output font = (.error (.persisting output fault), disk)
  publishing : ∀ place target, disk.scratchDirectory (Path.directory output) = .ok place →
    disk.replaceable output = .ok target →
      disk.publish output font = (.ok (), disk.put target (.file font.bytes))

theorem publishes_of_pack {image : Image} {font : Font} (hload : disk.load input = .ok image)
    (hpack : (Source.ofGray image.toGray).pack.result = .ok font) (output : String) :
    disk.Publishes input (convertImage input image).1 font output where
  failed error after hpublish := by rw [convertFile_eq_of_pack output hload hpack, hpublish]
  succeeded after hpublish := by rw [convertFile_eq_of_pack output hload hpack, hpublish]
  creating _ hfault := publish_of_no_directory font hfault
  persisting _ hplace htarget := publish_of_not_replaceable font hplace htarget
  publishing _ _ hplace htarget := publish_of_replaceable font hplace htarget

/-- An input fails for all outputs, or is packed for all of them. -/
theorem preparation_cases (disk : Disk) (input : String) :
    (∃ error events, error.IsEarly ∧
      ∀ output, disk.convertFile input output = ⟨events, .error error, disk⟩) ∨
    ∃ events font, ∀ output, disk.Publishes input events font output := by
  cases hload : disk.load input with
  | error error =>
    exact Or.inl ⟨_, _, .load error, fun output => convertFile_of_load_error output hload⟩
  | ok image =>
    rcases Source.pack_ofGray_cases image.toGray with hshape | ⟨font, hpack⟩
    · exact Or.inl
        ⟨_, _, .shape input _, fun output => convertFile_of_pack_error output hload hshape⟩
    · exact Or.inr ⟨_, font, publishes_of_pack hload hpack⟩

/-- A conversion that has packed a font fails in its publication if at all. -/
theorem Publishes.error_eq {events : List Event} {font : Font} {output : String}
    (h : disk.Publishes input events font output) {error : ConvertError}
    (herror : (disk.convertFile input output).result = .error error) :
    ∃ fault, error = .publish fault := by
  cases hpublish : disk.publish output font with
  | mk result after =>
    cases result with
    | error fault =>
      rw [h.failed fault after hpublish] at herror
      exact ⟨fault, (Except.error.inj herror).symm⟩
    | ok _ =>
      rw [h.succeeded after hpublish] at herror
      cases herror

/-- **All that happens before the font is written depends on the input alone.** If it cannot be
loaded or has the wrong size, conversions to any two outputs are the same. Otherwise both
publish the same font, and a scratch file that cannot be created is reported before an output
that cannot be replaced. No pixel of a loaded picture is unreadable, so a picture is refused for
its size or not at all. -/
theorem outputs_share_preparation (disk : Disk) (input first second : String) :
    (∀ error, (disk.convertFile input first).result = .error error → error.IsEarly →
      disk.convertFile input second = disk.convertFile input first) ∧
    ((∀ error, (disk.convertFile input first).result = .error error → ¬ error.IsEarly) →
      ∃ events font, disk.Publishes input events font first ∧
        disk.Publishes input events font second) ∧
    (∀ path error, (disk.convertFile input first).result ≠ .error (.pack path (.sample error))) ∧
    ∀ image : GrayImage,
      (¬(image.width = 2048 ∧ image.height = 7) →
        (Source.ofGray image).pack.result = .error (.shape ⟨image.width, image.height⟩)) ∧
      (image.width = 2048 ∧ image.height = 7 →
        ∃ font, (Source.ofGray image).pack.result = .ok font) := by
  refine ⟨?_, ?_, ?_, fun image => ⟨fun hsize => ?_, fun hsize => ?_⟩⟩
  · intro error herror hearly
    rcases disk.preparation_cases input with ⟨other, events, _, hall⟩ | ⟨events, font, hall⟩
    · rw [hall, hall]
    · obtain ⟨fault, rfl⟩ := (hall first).error_eq herror
      cases hearly
  · intro hlate
    rcases disk.preparation_cases input with ⟨error, events, hearly, hall⟩ | ⟨events, font, hall⟩
    · exact absurd hearly (hlate error (by rw [hall]))
    · exact ⟨events, font, hall first, hall second⟩
  · intro path error herror
    rcases disk.preparation_cases input with ⟨other, events, hearly, hall⟩ | ⟨events, font, hall⟩
    · rw [hall] at herror
      obtain rfl := Except.error.inj herror
      cases hearly
    · obtain ⟨fault, hfault⟩ := (hall first).error_eq herror
      cases hfault
  · rw [Source.pack_of_not_isStrip (mt Source.isStrip_iff.1 hsize)]
    rfl
  · exact Source.exists_pack_ofGray hsize.1 hsize.2

/-- A strip that is missing fails alike for two outputs; one that is there is packed into one font
for a link, which it replaces, and for a directory, which it does not. -/
theorem preparation_linkedStrip :
    (linkedStrip.convertFile "none.png" "link.png").result =
      .error (.load (.opening "none.png" .notFound)) ∧
    linkedStrip.convertFile "none.png" "." = linkedStrip.convertFile "none.png" "link.png" ∧
    ∃ events font, linkedStrip.Publishes "strip.png" events font "link.png" ∧
      linkedStrip.Publishes "strip.png" events font "." := by
  have hmissing : (linkedStrip.convertFile "none.png" "link.png").result =
      .error (.load (.opening "none.png" .notFound)) := by
    rw [convertFile_of_load_error "link.png" load_missing_linkedStrip]
  obtain ⟨font, hfont⟩ := convertFile_linkedStrip_ok (Or.inl rfl) isName_link (by decide +kernel)
    (by decide +kernel)
  obtain ⟨hearly, _⟩ := outputs_share_preparation linkedStrip "none.png" "link.png" "."
  obtain ⟨_, hlate, _⟩ := outputs_share_preparation linkedStrip "strip.png" "link.png" "."
  refine ⟨hmissing, hearly _ hmissing (.load _), hlate fun error herror => ?_⟩
  rw [hfont] at herror
  cases herror

end Disk

end GlyphStrip
