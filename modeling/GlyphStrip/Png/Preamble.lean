import GlyphStrip.Png.Header

/-!
# The chunks in front of the image data

They may hold a palette, a mark of transparency, and things that do not change the picture but have
rules of their own. A chunk that does not follow the rules of its kind is skipped, unless the kind
is critical or the chunk tells of a frame.
-/

namespace GlyphStrip.Png

/-- What the chunks in front of the image data say. -/
structure Preamble where
  palette : Option (List UInt8)
  transparency : Option (List UInt8)
  /-- Whether the number of significant bits of each sample has been given. -/
  hasSignificantBits : Bool
  /-- Whether a colour space has been given by its code points. -/
  hasCodePoints : Bool
  /-- The number of frames that have been told of. -/
  frames : Nat
  /-- The number of bytes that are kept of the chunks. -/
  kept : Nat
deriving DecidableEq

namespace Preamble

/-- Nothing has been said. -/
def empty : Preamble where
  palette := none
  transparency := none
  hasSignificantBits := false
  hasCodePoints := false
  frames := 0
  kept := 0

/-- Keeps the body of a chunk. -/
def keep (preamble : Preamble) (body : List UInt8) : Preamble :=
  { preamble with kept := preamble.kept + body.length }

/-! ## Palette and transparency -/

/-- Takes in a palette, of which there may be one. A colour without all its samples does not
count. -/
def addPalette (preamble : Preamble) (body : List UInt8) : Option Preamble :=
  if preamble.palette.isNone then
    some { preamble.keep body with palette := some (body.take (body.length / 3 * 3)) }
  else none

/-- Whether a mark of transparency makes sense: not for pixels that have alpha, for a grey or a
colour with its samples, and for a palette only behind it. -/
def admits (preamble : Preamble) (header : Header) (body : List UInt8) : Bool :=
  match header.kind with
  | .gray => 2 ≤ body.length
  | .rgb => 6 ≤ body.length
  | .indexed => preamble.palette.isSome
  | .grayAlpha | .rgba => false

/-- Takes in a mark of transparency, unless there is one. It is kept even if it makes no sense. -/
def addTransparency (preamble : Preamble) (header : Header) (body : List UInt8) : Preamble :=
  if preamble.transparency.isSome then preamble
  else if preamble.admits header body then
    { preamble.keep body with transparency := some body }
  else preamble.keep body

/-! ## Colour -/

/-- Whether some bytes are numbers of significant bits: one for each sample of a pixel, and none
beyond the size of the sample. A palette has three samples of eight bits. -/
def areSignificantBits (header : Header) (body : List UInt8) : Bool :=
  let (channels, depth) :=
    match header.kind with
    | .indexed => (3, 8)
    | kind => (kind.channels, header.depth)
  body.length == channels && body.all fun bits => 0 < bits.toNat && bits.toNat ≤ depth

/-- Takes in the numbers of significant bits, unless there are some or a palette is in front. They
are kept even if they are none. -/
def addSignificantBits (preamble : Preamble) (header : Header) (body : List UInt8) : Preamble :=
  if preamble.palette.isSome ∨ preamble.hasSignificantBits then preamble
  else { preamble.keep body with hasSignificantBits := areSignificantBits header body }

/-- Takes in a colour space, unless there is one or a palette is in front of it. Its last two bytes
must say that the samples are colours and whether they use their full range. -/
def addCodePoints (preamble : Preamble) (body : List UInt8) : Option Preamble :=
  if preamble.palette.isSome ∨ preamble.hasCodePoints then some preamble
  else
    match body with
    | [_, _, matrix, range] =>
      if matrix = 0 ∧ range ≤ 1 then some { preamble with hasCodePoints := true } else none
    | _ => none

/-- Takes in a background, which for a palette must stand behind it. -/
def addBackground (preamble : Preamble) (header : Header) : Option Preamble :=
  if header.kind = .indexed ∧ preamble.palette.isNone then none else some preamble

/-! ## Frames -/

/-- Takes in what is told of a frame: its number, its size and place, which must be those of the
whole picture, a delay, and how it leaves the picture and enters it. -/
def addFrame (preamble : Preamble) (header : Header) (body : List UInt8) : Option Preamble :=
  let field (place : Nat) : Nat := bigEndian ((body.drop place).take 4)
  match body.drop 24 with
  | [disposal, blending] =>
    if field 0 = preamble.frames ∧ field 4 = header.width.toNat ∧ field 8 = header.height.toNat ∧
        field 12 = 0 ∧ field 16 = 0 ∧ disposal ≤ 2 ∧ blending ≤ 1 then
      some { preamble with frames := preamble.frames + 1 }
    else none
  | _ => none

/-! ## All chunks -/

/-- Takes in an intact chunk whose length its kind admits. -/
def addIntact (preamble : Preamble) (header : Header) (kind : String) (body : List UInt8) :
    Option Preamble :=
  match kind with
  | "PLTE" => preamble.addPalette body
  | "tRNS" => some (preamble.addTransparency header body)
  | "sBIT" => some (preamble.addSignificantBits header body)
  | "cICP" => preamble.addCodePoints body
  | "bKGD" => preamble.addBackground header
  | "fcTL" => preamble.addFrame header body
  | "tEXt" | "zTXt" | "iTXt" => some (preamble.keep body)
  | _ => if isCritical kind then none else some preamble

/-- Takes in a chunk whose length its kind admits. A damaged one is skipped unless it is
critical. -/
def add (preamble : Preamble) (header : Header) (chunk : Chunk) : Option Preamble :=
  if chunk.isIntact then preamble.addIntact header chunk.kind chunk.body
  else if isCritical chunk.kind then none
  else some preamble

end Preamble

end GlyphStrip.Png
