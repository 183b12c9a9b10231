import GlyphStrip.Proofs.Preparation
import GlyphStrip.Proofs.Raster.Luminance

/-!
# How a picture is stored

A grey picture can be stored as grey values or as colours, with alpha or without. It is loaded as
the same luminance from all of them (`Image.StoresGray.toGray_eq`), and alpha never matters
(`Image.toGray_withoutAlpha`). So the same font is published, or the same size is refused.
-/

namespace GlyphStrip

/-! ## Grey colours -/

namespace Rgb

/-- A colour without a hue. -/
def gray {α : Type} (value : α) : Rgb α :=
  ⟨value, value, value⟩

theorem luminance8_gray (value : UInt8) : (gray value).luminance8 = value :=
  Luminance.ofColor_eight_gray value

theorem luminance16_gray (value : UInt16) : (gray value).luminance16 = Luminance.ofGray16 value :=
  Luminance.ofColor_sixteen_gray value

end Rgb

namespace Image

/-! ## Kinds of images -/

/-- An image stores grey values: as they are or in all channels, with any alpha or without. -/
inductive StoresGray (gray : GrayImage) : Image → Prop where
  | l8 : StoresGray gray (.l8 gray)
  | la8 {pixels : Grid (UInt8 × UInt8)} (h : pixels.map Prod.fst = gray) :
    StoresGray gray (.la8 pixels)
  | rgb8 : StoresGray gray (.rgb8 (gray.map Rgb.gray))
  | rgba8 {pixels : Grid (Rgb UInt8 × UInt8)} (h : pixels.map Prod.fst = gray.map Rgb.gray) :
    StoresGray gray (.rgba8 pixels)

theorem toGray_rgb8_gray (gray : GrayImage) : (rgb8 (gray.map Rgb.gray)).toGray = gray := by
  rw [toGray, Grid.map_map]
  exact gray.map_of_eq Rgb.luminance8_gray

/-- The image with its alpha left out. -/
def withoutAlpha : Image → Image
  | .la8 pixels => .l8 (pixels.map Prod.fst)
  | .rgba8 pixels => .rgb8 (pixels.map Prod.fst)
  | .la16 pixels => .l16 (pixels.map Prod.fst)
  | .rgba16 pixels => .rgb16 (pixels.map Prod.fst)
  | image => image

theorem toGray_withoutAlpha (image : Image) : image.withoutAlpha.toGray = image.toGray := by
  cases image <;> simp only [withoutAlpha, toGray, Grid.map_map]

theorem StoresGray.toGray_eq {gray : GrayImage} {image : Image} (h : image.StoresGray gray) :
    image.toGray = gray := by
  rw [← toGray_withoutAlpha]
  cases h with
  | l8 => rfl
  | la8 h => exact h
  | rgb8 => exact toGray_rgb8_gray gray
  | rgba8 h =>
    rw [withoutAlpha, h]
    exact toGray_rgb8_gray gray

/-! ## Grey pixels -/

/-- A pixel of an image is an 8-bit grey value or the 16-bit one of the same share, whatever its
alpha is. -/
inductive GrayAt (x y : UInt32) (value : UInt8) : Image → Prop where
  | l8 {pixels : Grid UInt8} (h : pixels.get? x y = some value) : GrayAt x y value (.l8 pixels)
  | la8 {pixels : Grid (UInt8 × UInt8)} (alpha : UInt8)
      (h : pixels.get? x y = some (value, alpha)) : GrayAt x y value (.la8 pixels)
  | rgb8 {pixels : Grid (Rgb UInt8)} (h : pixels.get? x y = some (.gray value)) :
    GrayAt x y value (.rgb8 pixels)
  | rgba8 {pixels : Grid (Rgb UInt8 × UInt8)} (alpha : UInt8)
      (h : pixels.get? x y = some (.gray value, alpha)) : GrayAt x y value (.rgba8 pixels)
  | l16 {pixels : Grid UInt16} (h : pixels.get? x y = some (Luminance.widen value)) :
    GrayAt x y value (.l16 pixels)
  | la16 {pixels : Grid (UInt16 × UInt16)} (alpha : UInt16)
      (h : pixels.get? x y = some (Luminance.widen value, alpha)) : GrayAt x y value (.la16 pixels)
  | rgb16 {pixels : Grid (Rgb UInt16)}
      (h : pixels.get? x y = some (.gray (Luminance.widen value))) :
    GrayAt x y value (.rgb16 pixels)
  | rgba16 {pixels : Grid (Rgb UInt16 × UInt16)} (alpha : UInt16)
      (h : pixels.get? x y = some (.gray (Luminance.widen value), alpha)) :
    GrayAt x y value (.rgba16 pixels)

theorem GrayAt.get?_toGray {x y : UInt32} {value : UInt8} {image : Image}
    (h : image.GrayAt x y value) : image.toGray.get? x y = some value := by
  cases h <;> rename_i h <;>
    simp only [toGray, Grid.get?_map, h, Option.map_some, Rgb.luminance8_gray,
      Rgb.luminance16_gray, Luminance.ofGray16_widen]

end Image

/-- Two images show the same picture: a grey one, or one of any colours, with whatever alpha. -/
inductive Image.Alike (image other : Image) : Prop where
  | gray {picture : GrayImage} (h : image.StoresGray picture) (hother : other.StoresGray picture)
  | alpha (h : image.withoutAlpha = other.withoutAlpha)

theorem Image.Alike.toGray_eq {image other : Image} (h : image.Alike other) :
    image.toGray = other.toGray := by
  cases h with
  | gray h hother => rw [h.toGray_eq, hother.toGray_eq]
  | alpha h => rw [← toGray_withoutAlpha, h, toGray_withoutAlpha]

/-! ## Conversions -/

theorem convertImage_eq_ok {image : Image} {input : String} {font : Font}
    (h : (convertImage input image).2 = .ok font) :
    (Source.ofGray image.toGray).pack.result = .ok font := by
  have hresult : (Source.ofGray image.toGray).pack.result.mapError (ConvertError.pack input) =
      .ok font := h
  cases hpack : (Source.ofGray image.toGray).pack.result with
  | error error =>
    rw [hpack] at hresult
    cases hresult
  | ok packed =>
    rw [hpack] at hresult
    rw [Except.ok.inj hresult]

theorem shows_of_grayAt {image : Image} {input : String} {font : Font}
    (h : (convertImage input image).2 = .ok font) {c : UInt8} {row column : Nat} (hrow : row < 7)
    (hcolumn : column < 8) {value : UInt8}
    (hgray : image.GrayAt (.ofNat (8 * c.toNat + column)) (.ofNat row) value) :
    font.Shows c row column (value != 255) := by
  obtain ⟨shown, hshown, hpixel⟩ :=
    (Source.draws_of_pack (convertImage_eq_ok h)).pixel c row column hrow hcolumn
  obtain rfl : shown = value :=
    Option.some.inj ((Source.luminance_ofGray_eq_ok_iff.1 hshown).symm.trans hgray.get?_toGray)
  exact Font.shows_of_pixel? hpixel

/-- **How a picture is stored does not matter.** A grey picture is loaded as itself from each of its
8-bit images, and images that differ only in their alpha are loaded alike. So files that show the
same picture are converted to the same font, or refused for the same size, wherever they are. A grey
pixel is background if it is white and foreground if it is not, even where it is fully
transparent. -/
theorem storage_does_not_matter :
    (∀ (gray : GrayImage) (image : Image), image.StoresGray gray → image.toGray = gray) ∧
    (∀ image other : Image, image.withoutAlpha = other.withoutAlpha →
      image.toGray = other.toGray) ∧
    (∀ image other : Image, image.Alike other →
      ∀ (disk disk' : Disk) (input input' output output' : String),
        disk.load input = .ok image → disk'.load input' = .ok other →
          (∃ font, disk.Publishes input (convertImage input image).1 font output ∧
            disk'.Publishes input' (convertImage input' other).1 font output') ∨
          (disk.convertFile input output).result = .error (.pack input
              (.shape ⟨image.toGray.width, image.toGray.height⟩)) ∧
            (disk'.convertFile input' output').result = .error (.pack input'
              (.shape ⟨image.toGray.width, image.toGray.height⟩))) ∧
    ∀ (image : Image) (input : String) (font : Font), (convertImage input image).2 = .ok font →
      ∀ (c : UInt8) (row column : Nat), row < 7 → column < 8 → ∀ value : UInt8,
        image.GrayAt (.ofNat (8 * c.toNat + column)) (.ofNat row) value →
          font.Shows c row column (value != 255) := by
  refine ⟨fun gray image h => h.toGray_eq, fun image other h => (Image.Alike.alpha h).toGray_eq,
    ?_, fun image input font h c row column hrow hcolumn value hgray =>
      shows_of_grayAt h hrow hcolumn hgray⟩
  intro image other halike disk disk' input input' output output' hload hload'
  rcases Source.pack_ofGray_cases image.toGray with hshape | ⟨font, hpack⟩
  · have hshape' := hshape
    rw [halike.toGray_eq] at hshape'
    right
    constructor
    · rw [Disk.convertFile_of_pack_error output hload hshape]
    · rw [Disk.convertFile_of_pack_error output' hload' hshape', halike.toGray_eq]
  · have hpack' := hpack
    rw [halike.toGray_eq] at hpack'
    left
    exact ⟨font, Disk.publishes_of_pack hload hpack output,
      Disk.publishes_of_pack hload' hpack' output'⟩

/-- A white strip with one grey pixel, as grey values. -/
def greyDot : GrayImage :=
  .build 2048 7 fun x y => if x = 1600 ∧ y = 6 then 254 else 255

/-- The same strip in colour, where every pixel is fully transparent. -/
def transparentDot : Image :=
  .rgba8 (greyDot.map fun value => (.gray value, 0))

theorem grayAt_transparentDot {x y : UInt32} (hx : x < 2048) (hy : y < 7) :
    transparentDot.GrayAt x y (if x.toNat = 1600 ∧ y.toNat = 6 then 254 else 255) := by
  refine .rgba8 0 ?_
  rw [Grid.get?_map, greyDot, Grid.get?_build _ hx hy, Option.map_some]

/-- The transparent grey pixel is drawn and its neighbour is not; two paths to one strip give one
font. -/
theorem storage_does_not_matter_transparentDot :
    transparentDot.toGray = greyDot ∧
    (∃ font, (convertImage "strip.png" transparentDot).2 = .ok font ∧
      font.Shows 200 6 0 true ∧ font.Shows 200 6 1 false) ∧
    ∃ image font, Disk.linkedStrip.load "strip.png" = .ok image ∧
      Disk.linkedStrip.Publishes "strip.png" (convertImage "strip.png" image).1 font "link.png" ∧
      Disk.linkedStrip.Publishes "link.png" (convertImage "link.png" image).1 font "link.png" := by
  obtain ⟨hgray, _, hfiles, hpixels⟩ := storage_does_not_matter
  have hstores : transparentDot.StoresGray greyDot := by
    refine .rgba8 ?_
    rw [Grid.map_map]
  refine ⟨hgray _ _ hstores, ?_, ?_⟩
  · obtain ⟨font, hpack⟩ : ∃ font, (Source.ofGray transparentDot.toGray).pack.result = .ok font :=
      Source.exists_pack_ofGray rfl rfl
    have hfont : (convertImage "strip.png" transparentDot).2 = .ok font := by
      rw [convertImage, hpack]
      rfl
    have hgrey : transparentDot.GrayAt 1600 6 254 := grayAt_transparentDot (by decide) (by decide)
    have hwhite : transparentDot.GrayAt 1601 6 255 := grayAt_transparentDot (by decide) (by decide)
    exact ⟨font, hfont, hpixels _ _ _ hfont 200 6 0 (by decide) (by decide) 254 hgrey,
      hpixels _ _ _ hfont 200 6 1 (by decide) (by decide) 255 hwhite⟩
  · obtain ⟨image, _, _, hload⟩ := Disk.exists_load_linkedStrip
    rcases hfiles image image (.alpha rfl) _ _ _ _ "link.png" "link.png" (hload _ (Or.inl rfl))
      (hload _ (Or.inr rfl)) with ⟨font, hstrip, hlink⟩ | ⟨hrefused, _⟩
    · exact ⟨image, font, hload _ (Or.inl rfl), hstrip, hlink⟩
    · obtain ⟨font, hfont⟩ := Disk.convertFile_linkedStrip_ok (Or.inl rfl) Disk.isName_link
        (by decide +kernel) (by decide +kernel)
      rw [hrefused] at hfont
      cases hfont

end GlyphStrip
