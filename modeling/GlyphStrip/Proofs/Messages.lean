import GlyphStrip.OwnError
import GlyphStrip.Proofs.Conversion
import GlyphStrip.Proofs.Strip.Faults
import GlyphStrip.Proofs.Text.Form

/-!
# Error messages read back

The message of an error is the text of one of five forms with the numbers of the error filled in
(`OwnError.message_eq_fill`), and the front of a form is never the start of another
(`OwnError.Kind.eq_of_front`). So an error is known from its message (`OwnError.read?_message`), and
the messages of a failed conversion tell the size or the pixel that it failed for.
-/

namespace GlyphStrip

/-! ## Forms of messages -/

/-- The form of the messages about data of the wrong size. -/
def SizeMismatch.form : Text.Form where
  front := "packed font is "
  marks := [" bytes but expected " ++ toString fontSize ++ " bytes"]
  ends_number := by decide +kernel

/-- The form of the messages about unreadable pixels. -/
def SampleError.form : Text.Form where
  front := "pixel ("
  marks := [", ", ") could not be read"]

/-- The form of the messages about sources of the wrong size. -/
def ShapeError.form : Text.Form where
  front := "expected " ++ toString stripWidth ++ "x" ++ toString stripHeight ++ " pixels but got "
  marks := ["x", " pixels"]

/-- What stands in front of the message underneath. -/
def PackError.words : PackError → String
  | .shape _ => "invalid image shape: "
  | .sample _ => "invalid image data: "

theorem SizeMismatch.message_eq_fill (mismatch : SizeMismatch) :
    mismatch.message = form.fill [mismatch.actualSize] := by
  unfold SizeMismatch.message form
  rw [Text.Form.fill_one]
  simp only [String.append_assoc]

theorem SampleError.message_eq_fill (error : SampleError) :
    error.message = form.fill [error.x.toNat, error.y.toNat] := by
  unfold SampleError.message form
  rw [Text.Form.fill_two]

theorem ShapeError.message_eq_fill (error : ShapeError) :
    error.message = form.fill [error.width.toNat, error.height.toNat] := by
  unfold ShapeError.message form
  rw [Text.Form.fill_two]

theorem PackError.message_eq_append (error : PackError) :
    error.message = error.words ++ error.cause := by
  cases error <;> rfl

theorem PackError.cause_eq (error : PackError) : error.cause = error.wrapped.message := by
  cases error <;> rfl

namespace OwnError

/-- The kinds of errors. Those of packing differ in what they wrap. -/
inductive Kind where
  | size
  | sample
  | shape
  | packedShape
  | packedSample
deriving DecidableEq

namespace Kind

def all : List Kind :=
  [size, sample, shape, packedShape, packedSample]

theorem mem_all (kind : Kind) : kind ∈ all := by
  cases kind <;> decide

/-- The form of the messages of a kind. -/
def form : Kind → Text.Form
  | size => SizeMismatch.form
  | sample => SampleError.form
  | shape => ShapeError.form
  | packedShape => ShapeError.form.behind "invalid image shape: "
  | packedSample => SampleError.form.behind "invalid image data: "

/-- No front is the start of another. -/
theorem eq_of_front {kind other : Kind}
    (h : kind.form.front.toList <+: other.form.front.toList) : kind = other := by
  revert h
  cases kind <;> cases other <;> decide +kernel

end Kind

/-! ## Errors as kinds and numbers -/

def kind : OwnError → Kind
  | .size _ => .size
  | .sample _ => .sample
  | .shape _ => .shape
  | .pack (.shape _) => .packedShape
  | .pack (.sample _) => .packedSample

def numbers : OwnError → List Nat
  | .size mismatch => [mismatch.actualSize]
  | .sample error | .pack (.sample error) => [error.x.toNat, error.y.toNat]
  | .shape error | .pack (.shape error) => [error.width.toNat, error.height.toNat]

/-- The word of 32 bits with a value. -/
def word? (n : Nat) : Option UInt32 :=
  if n < UInt32.size then some (UInt32.ofNat n) else none

/-- The error of a kind with some numbers. -/
def Kind.error? : Kind → List Nat → Option OwnError
  | size, [n] => some (.size ⟨n⟩)
  | sample, [x, y] => (word? x).bind fun x => (word? y).map fun y => .sample ⟨x, y⟩
  | shape, [w, h] => (word? w).bind fun w => (word? h).map fun h => .shape ⟨w, h⟩
  | packedShape, [w, h] => (word? w).bind fun w => (word? h).map fun h => .pack (.shape ⟨w, h⟩)
  | packedSample, [x, y] => (word? x).bind fun x => (word? y).map fun y => .pack (.sample ⟨x, y⟩)
  | _, _ => none

theorem word?_toNat (n : UInt32) : word? n.toNat = some n := by
  rw [word?, if_pos n.toNat_lt, UInt32.ofNat_toNat]

theorem error?_numbers (error : OwnError) : error.kind.error? error.numbers = some error := by
  rcases error with _ | _ | _ | (_ | _) <;> simp [kind, numbers, Kind.error?, word?_toNat]

theorem length_numbers (error : OwnError) :
    error.numbers.length = error.kind.form.marks.length := by
  rcases error with _ | _ | _ | (_ | _) <;> rfl

theorem message_eq_fill (error : OwnError) :
    error.message = error.kind.form.fill error.numbers := by
  rcases error with mismatch | error | error | (error | error)
  · exact mismatch.message_eq_fill
  · exact error.message_eq_fill
  · exact error.message_eq_fill
  · show "invalid image shape: " ++ error.message =
      (ShapeError.form.behind "invalid image shape: ").fill [error.width.toNat, error.height.toNat]
    rw [Text.Form.fill_behind, error.message_eq_fill]
  · show "invalid image data: " ++ error.message =
      (SampleError.form.behind "invalid image data: ").fill [error.x.toNat, error.y.toNat]
    rw [Text.Form.fill_behind, error.message_eq_fill]

/-! ## Reading messages -/

/-- The error that a message of a kind is about. -/
def Kind.read? (kind : Kind) (text : String) : Option OwnError :=
  (kind.form.read? text).bind kind.error?

/-- The error that a message is about. -/
def read? (text : String) : Option OwnError :=
  Kind.all.findSome? fun kind => kind.read? text

theorem kind_read?_message (error : OwnError) (kind : Kind) :
    kind.read? error.message = if kind = error.kind then some error else none := by
  rw [Kind.read?, message_eq_fill]
  split
  · rename_i hkind
    rw [hkind, Text.Form.read?_fill _ error.length_numbers, Option.bind_some, error?_numbers]
  · rename_i hkind
    have hfront := mt Kind.eq_of_front hkind
    have hother := mt Kind.eq_of_front (Ne.symm hkind)
    rw [Text.Form.read?_fill_other hfront hother, Option.bind_none]

theorem read?_message (error : OwnError) : read? error.message = some error := by
  have hread (kinds : List Kind) (hmem : error.kind ∈ kinds) :
      kinds.findSome? (fun kind => kind.read? error.message) = some error := by
    induction kinds with
    | nil => cases hmem
    | cons first rest ih =>
      rw [List.findSome?_cons, kind_read?_message]
      by_cases hfirst : first = error.kind
      · rw [if_pos hfirst]
      · rw [if_neg hfirst]
        exact ih ((List.mem_cons.1 hmem).resolve_left (Ne.symm hfirst))
  exact hread Kind.all error.kind.mem_all

/-! ## Messages one under the other -/

theorem trail_of_source? {error source : OwnError} (h : error.source? = some source) :
    error.trail = error.message :: source.trail := by
  rw [trail]
  split
  · rename_i hnone
    rw [h] at hnone
    cases hnone
  · rename_i other hother
    rw [h] at hother
    rw [Option.some.inj hother]

theorem trail_of_no_source {error : OwnError} (h : error.source? = none) :
    error.trail = [error.message] := by
  rw [trail]
  split
  · rfl
  · rename_i other hother
    rw [h] at hother
    cases hother

theorem trail_pack (error : PackError) :
    trail (.pack error) = [error.message, error.wrapped.message] := by
  have hlast : error.wrapped.source? = none := by cases error <;> rfl
  have hsource : source? (.pack error) = some error.wrapped := rfl
  rw [trail_of_source? hsource, trail_of_no_source hlast]
  rfl

end OwnError

/-! ## Errors of failed conversions -/

namespace Source

/-- Packing fails for the size of the source or for an unreadable pixel of the strip. -/
theorem pack_error_cases {source : Source} {error : PackError}
    (h : source.pack.result = .error error) :
    (¬(source.width = 2048 ∧ source.height = 7) ∧ error = .shape ⟨source.width, source.height⟩) ∨
      ∃ x y flaw, x < 2048 ∧ y < 7 ∧ source.luminance x y = .error flaw ∧
        error = .sample flaw := by
  by_cases hstrip : source.IsStrip
  · right
    cases hfault : (source.read stripScan).fault with
    | none =>
      obtain ⟨font, hpack, _⟩ := pack_of_no_fault hstrip hfault
      rw [hpack] at h
      cases h
    | some flaw =>
      rw [pack_of_fault hstrip hfault] at h
      obtain ⟨p, hp, hflaw⟩ := sample_of_fault hfault
      obtain ⟨hx, hy⟩ := mem_stripScan_iff.1 (List.mem_of_getElem? hp)
      exact ⟨p.x, p.y, flaw, hx, hy, hflaw, (Except.error.inj h).symm⟩
  · left
    rw [pack_of_not_isStrip hstrip] at h
    exact ⟨mt isStrip_iff.2 hstrip, (Except.error.inj h).symm⟩

/-- Raw samples are refused with the place of the pixel. -/
theorem luminance_raw_error {width height x y : UInt32} {samples : Array UInt8} {flaw : SampleError}
    (h : (raw width height samples).luminance x y = .error flaw) : flaw = ⟨x, y⟩ := by
  unfold raw at h
  dsimp only at h
  split at h
  · split at h
    · cases h
    · exact (Except.error.inj h).symm
  · exact (Except.error.inj h).symm

end Source

/-- A picture that is refused has been loaded, and its size is wrong. -/
theorem Disk.convertFile_pack_error {disk : Disk} {input output path : String} {error : PackError}
    (h : (disk.convertFile input output).result = .error (.pack path error)) :
    path = input ∧ ∃ image, disk.load input = .ok image ∧
      ¬(image.toGray.width = 2048 ∧ image.toGray.height = 7) ∧
      error = .shape ⟨image.toGray.width, image.toGray.height⟩ := by
  have hcourse := disk.course_convertFile input output
  generalize disk.convertFile input output = conversion at hcourse h
  cases hcourse with
  | unloaded hload => cases h
  | unpublished hload hpack => cases h
  | published hload hpack htarget => cases h
  | unpacked hload hpack =>
    rename_i image other
    obtain ⟨rfl, rfl⟩ := ConvertError.pack.inj (Except.error.inj h)
    have hsize : ¬(image.toGray.width = 2048 ∧ image.toGray.height = 7) := by
      rintro ⟨hwidth, hheight⟩
      obtain ⟨font, hfont⟩ := Source.exists_pack_ofGray hwidth hheight
      rw [hpack] at hfont
      cases hfont
    rw [Source.pack_of_not_isStrip (mt Source.isStrip_iff.1 hsize)] at hpack
    exact ⟨rfl, image, hload, hsize, (Except.error.inj hpack).symm⟩

/-- **A message tells which error it is of.** The error is read back from its message, so different
errors have different messages. The message of packing ends with the one underneath, which a
conversion reports behind it. A refused picture is reported with its own size, and a pixel that
could not be read is one of the strip, with the place of the pixel if the samples are raw. -/
theorem messages_identify_errors :
    (∀ error : OwnError, OwnError.read? error.message = some error) ∧
    (∀ error other : OwnError, error ≠ other → error.message ≠ other.message) ∧
    (∀ error : PackError, ∃ source, OwnError.source? (.pack error) = some source ∧
      source = error.wrapped ∧ error.message = error.words ++ source.message ∧
      error.cause = source.message) ∧
    (∀ (input : String) (error : PackError),
      (ConvertError.pack input error).chain =
        ("error converting " ++ input) :: (OwnError.pack error).trail ∧
      (OwnError.pack error).trail = [error.message, error.wrapped.message]) ∧
    (∀ (disk : Disk) (input output path : String) (error : PackError),
      (disk.convertFile input output).result = .error (.pack path error) →
        path = input ∧ ∃ image, disk.load input = .ok image ∧
          ¬(image.toGray.width = 2048 ∧ image.toGray.height = 7) ∧
          error = .shape ⟨image.toGray.width, image.toGray.height⟩) ∧
    (∀ (source : Source) (error : PackError), source.pack.result = .error error →
      (¬(source.width = 2048 ∧ source.height = 7) ∧ error = .shape ⟨source.width, source.height⟩) ∨
        ∃ x y flaw, x < 2048 ∧ y < 7 ∧ source.luminance x y = .error flaw ∧
          error = .sample flaw) ∧
    ∀ (width height : UInt32) (samples : Array UInt8) (error : SampleError),
      (Source.raw width height samples).pack.result = .error (.sample error) →
        error.x < 2048 ∧ error.y < 7 ∧
          (Source.raw width height samples).luminance error.x error.y = .error error := by
  refine ⟨OwnError.read?_message, ?_, ?_, ?_, ?_, ?_, ?_⟩
  · intro error other hne hmessage
    apply hne
    apply Option.some.inj
    rw [← error.read?_message, hmessage, other.read?_message]
  · intro error
    refine ⟨error.wrapped, rfl, rfl, ?_, error.cause_eq⟩
    rw [error.message_eq_append, error.cause_eq]
  · intro input error
    refine ⟨?_, OwnError.trail_pack error⟩
    rw [OwnError.trail_pack, ← error.cause_eq]
    rfl
  · intro disk input output path error h
    exact Disk.convertFile_pack_error h
  · intro source error h
    exact Source.pack_error_cases h
  · intro width height samples error h
    rcases Source.pack_error_cases h with ⟨_, hshape⟩ | ⟨x, y, flaw, hx, hy, hflaw, hsample⟩
    · cases hshape
    · obtain rfl := PackError.sample.inj hsample
      obtain rfl := Source.luminance_raw_error hflaw
      exact ⟨hx, hy, hflaw⟩

/-- A disk with a picture of one pixel. -/
def dotDisk : Disk where
  entries := [(["strip.png", "work-directory"], .file Png.blackDot), (Disk.home, .directory)]
  workplace := Disk.home

theorem load_dotDisk : ∃ image, dotDisk.load "strip.png" = .ok image ∧
    image.toGray.width = 1 ∧ image.toGray.height = 1 := by
  obtain ⟨image, hdecode, hsize⟩ := Png.decode_blackDot
  have hfile : dotDisk.find? ["strip.png", "work-directory"] = some (.file Png.blackDot) := by
    decide +kernel
  have hformat : Format.guess "strip.png" Png.blackDot = .png := by
    have hsignature : Format.ofSignature? Png.blackDot = some .png := by decide +kernel
    rw [Format.guess, hsignature]
  exact ⟨image, Disk.load_of_resolve (Disk.isName_strip.resolve_of_file rfl hfile) hfile hformat
    hdecode, hsize⟩

/-- Digits cannot move from one number to the next. A picture of one pixel is refused with its size,
also on the way up, and of raw samples that are all missing the first is reported. -/
theorem messages_identify_errors_dot :
    SampleError.message ⟨1, 23⟩ ≠ SampleError.message ⟨12, 3⟩ ∧
    (dotDisk.convertFile "strip.png" "font").result =
      .error (.pack "strip.png" (.shape ⟨1, 1⟩)) ∧
    (∃ image, dotDisk.load "strip.png" = .ok image ∧
      PackError.shape ⟨1, 1⟩ = .shape ⟨image.toGray.width, image.toGray.height⟩) ∧
    (ConvertError.pack "strip.png" (.shape ⟨1, 1⟩)).chain = ["error converting strip.png",
      "invalid image shape: expected 2048x7 pixels but got 1x1 pixels",
      "expected 2048x7 pixels but got 1x1 pixels"] ∧
    (Source.raw 2048 7 #[]).pack.result = .error (.sample ⟨0, 0⟩) ∧
    (Source.raw 2048 7 #[]).luminance 0 0 = .error ⟨0, 0⟩ := by
  obtain ⟨_, hdiffer, _, _, hrefused, hfailed, hraw⟩ := messages_identify_errors
  obtain ⟨image, hload, hwidth, hheight⟩ := load_dotDisk
  have hpack : (Source.ofGray image.toGray).pack.result = .error (.shape ⟨1, 1⟩) := by
    have hsize : ¬ (Source.ofGray image.toGray).IsStrip := by
      intro hstrip
      have hwide : image.toGray.width.toNat = stripWidth := hstrip.1
      rw [hwidth] at hwide
      exact absurd hwide (by decide)
    rw [Source.pack_of_not_isStrip hsize, Source.ofGray, hwidth, hheight]
  have hconvert : (dotDisk.convertFile "strip.png" "font").result =
      .error (.pack "strip.png" (.shape ⟨1, 1⟩)) := by
    rw [Disk.convertFile_of_pack_error "font" hload hpack]
  have hmissing : (Source.raw 2048 7 #[]).pack.result = .error (.sample ⟨0, 0⟩) := by
    have hfault : ((Source.raw 2048 7 #[]).read stripScan).fault = some ⟨0, 0⟩ := by decide +kernel
    rw [Source.pack_of_fault ⟨rfl, rfl⟩ hfault]
  obtain ⟨_, picture, hpicture, _, hshape⟩ := hrefused _ _ _ _ _ hconvert
  obtain ⟨_, _, hpixel⟩ := hraw _ _ _ _ hmissing
  exact ⟨hdiffer (.sample ⟨1, 23⟩) (.sample ⟨12, 3⟩) (by decide), hconvert,
    ⟨picture, hpicture, hshape⟩, by decide +kernel, hmissing, hpixel⟩

end GlyphStrip
