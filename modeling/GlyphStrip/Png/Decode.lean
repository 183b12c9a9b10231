import GlyphStrip.Deflate.Stream
import GlyphStrip.Png.Contents
import GlyphStrip.Png.Scanlines

/-!
# Decoding a file

The picture is expanded: samples of fewer than eight bits fill eight, a palette is looked up, and
marked transparency becomes alpha.
-/

namespace GlyphStrip.Png

/-- Why a file is not decoded. -/
inductive DecodeFault where
  | tooLarge
  | malformed
deriving DecidableEq

/-- The most bytes that the pixels of an image may take. -/
abbrev sizeLimit : Nat := 512 * 1024 * 1024

/-- The number of bytes that no size may reach. -/
abbrev sizeBound : Nat := Nat.pow 2 63

/-! ## Expansion -/

/-- The factor that makes samples of fewer than eight bits fill eight. -/
def scaleFactor (depth : Nat) : Nat :=
  if depth < 8 then 255 / (Nat.pow 2 depth - 1) else 1

/-- The colour of a palette entry; an entry that is missing is black. -/
def paletteColor (palette : Array UInt8) (index : Nat) : Rgb UInt8 :=
  ⟨palette.getD (3 * index) 0, palette.getD (3 * index + 1) 0, palette.getD (3 * index + 2) 0⟩

/-- The samples of a transparent colour. -/
def markedSamples (depth : Nat) (body : List UInt8) : Nat → Nat := fun channel =>
  bigEndian ((body.drop (2 * channel)).take 2) % Nat.pow 2 depth

/-- The largest sample, which is full alpha. -/
def fullAlpha (depth : Nat) : Nat :=
  if depth = 16 then 65535 else 255

/-- The alpha of a pixel that is transparent exactly if its samples are the marked ones. -/
def markedAlpha (header : Header) (body : List UInt8) (sample : Nat → Nat) : Nat :=
  let marked := markedSamples header.depth body
  if (List.range header.kind.channels).all fun channel => sample channel == marked channel then 0
  else fullAlpha header.depth

/-- Makes the image whose pixels are computed from their samples. -/
def Samples.build {α : Type} (samples : Samples) (pixel : (Nat → Nat) → α) : Grid α :=
  .build samples.header.width samples.header.height fun x y => pixel (samples.get x y)

/-- The colour in three samples. -/
def colorOf {α : Type} (ofNat : Nat → α) (sample : Nat → Nat) : Rgb α :=
  ⟨ofNat (sample 0), ofNat (sample 1), ofNat (sample 2)⟩

/-- The image of a picture with a palette. -/
def Samples.expandIndexed (samples : Samples) (palette : List UInt8) : Option (List UInt8) → Image
  | none => .rgb8 (samples.build fun sample => paletteColor palette.toArray (sample 0))
  | some alphas => .rgba8 (samples.build fun sample =>
      (paletteColor palette.toArray (sample 0), alphas.toArray.getD (sample 0) 255))

/-- The image of a picture without a palette, its samples at most eight bits. -/
def Samples.expand8 (samples : Samples) (transparency : Option (List UInt8)) : Image :=
  let header := samples.header
  let gray (sample : Nat → Nat) : UInt8 := UInt8.ofNat (sample 0 * scaleFactor header.depth)
  let color := colorOf UInt8.ofNat
  match header.kind, transparency with
  | .grayAlpha, _ => .la8 (samples.build fun sample => (gray sample, UInt8.ofNat (sample 1)))
  | .rgba, _ => .rgba8 (samples.build fun sample => (color sample, UInt8.ofNat (sample 3)))
  | .rgb, none => .rgb8 (samples.build color)
  | .rgb, some body => .rgba8 (samples.build fun sample =>
      (color sample, UInt8.ofNat (markedAlpha header body sample)))
  | _, none => .l8 (samples.build gray)
  | _, some body => .la8 (samples.build fun sample =>
      (gray sample, UInt8.ofNat (markedAlpha header body sample)))

/-- The image of a picture with samples of sixteen bits. -/
def Samples.expand16 (samples : Samples) (transparency : Option (List UInt8)) : Image :=
  let header := samples.header
  let gray (sample : Nat → Nat) : UInt16 := UInt16.ofNat (sample 0)
  let color := colorOf UInt16.ofNat
  match header.kind, transparency with
  | .grayAlpha, _ => .la16 (samples.build fun sample => (gray sample, UInt16.ofNat (sample 1)))
  | .rgba, _ => .rgba16 (samples.build fun sample => (color sample, UInt16.ofNat (sample 3)))
  | .rgb, none => .rgb16 (samples.build color)
  | .rgb, some body => .rgba16 (samples.build fun sample =>
      (color sample, UInt16.ofNat (markedAlpha header body sample)))
  | _, none => .l16 (samples.build gray)
  | _, some body => .la16 (samples.build fun sample =>
      (gray sample, UInt16.ofNat (markedAlpha header body sample)))

/-- The image of a picture; one that needs a palette must have it. -/
def Samples.expand? (samples : Samples) (preamble : Preamble) : Option Image :=
  match samples.header.kind with
  | .indexed =>
    preamble.palette.map fun palette => samples.expandIndexed palette preamble.transparency
  | _ =>
    if samples.header.depth = 16 then some (samples.expand16 preamble.transparency)
    else some (samples.expand8 preamble.transparency)

/-! ## Files -/

/-- Reads signature and header, and gives the bytes behind them. -/
def start? (bytes : List UInt8) : Option (Header × List UInt8) :=
  if bytes.take signature.length = signature then do
    let rest := bytes.drop signature.length
    let head ← ChunkHead.read? rest
    let chunk ← Chunk.read? rest
    if chunk.kind = "IHDR" ∧ head.isFitting ∧ chunk.isIntact then
      return (← Header.read? chunk.body, head.skip rest)
    else none
  else none

/-- Whether an image is too large: all its pixels together, or one line of them together with what
is kept of the chunks. -/
def isTooLarge (header : Header) (preamble : Preamble) : Bool :=
  let hasTransparency := preamble.transparency.isSome
  sizeLimit < header.expandedSize hasTransparency ||
    sizeLimit < header.lineSize hasTransparency + preamble.kept

/-- Decodes the image data. -/
def picture? (header : Header) (contents : Contents) : Option Image := do
  let stored ← Deflate.expand? header.storedSize (← contents.data?).toArray
  let samples ← Samples.read? header stored
  samples.expand? contents.preamble

/-- Decodes a file. An image that is too large is refused before its data is looked at, and one
beyond all bounds before anything behind the header is. -/
def decode (bytes : List UInt8) : Except DecodeFault Image :=
  match start? bytes with
  | none => .error .malformed
  | some (header, rest) =>
    if sizeBound ≤ header.expandedSize false then .error .tooLarge
    else
      match Contents.read? header .empty rest with
      | none => .error .malformed
      | some contents =>
        if isTooLarge header contents.preamble then .error .tooLarge
        else
          match picture? header contents with
          | none => .error .malformed
          | some image => .ok image

end GlyphStrip.Png
