import GlyphStrip.Png.Preamble

/-!
# Contents of a file

The image data is the first run of chunks that hold such data, and reading ends with the head of the
chunk behind that run.
-/

namespace GlyphStrip.Png

/-- The chunks that hold image data: those of the picture, and those of a frame, which are
numbered. -/
inductive DataKind where
  | picture
  | frame
deriving DecidableEq

namespace DataKind

/-- The kind of the chunks. -/
def name : DataKind → String
  | .picture => "IDAT"
  | .frame => "fdAT"

/-- The data in a chunk. One of the picture must be intact, one of a frame must have the right
number. -/
def dataOf? (kind : DataKind) (number : Nat) (chunk : Chunk) : Option (List UInt8) :=
  match kind with
  | .picture => if chunk.isIntact then some chunk.body else none
  | .frame => if bigEndian (chunk.body.take 4) = number then some (chunk.body.drop 4) else none

end DataKind

/-- The data in a run of chunks, the first of which has a number. The head of another chunk has to
follow. -/
def imageData? (kind : DataKind) (number : Nat) (bytes : List UInt8) : Option (List UInt8) :=
  match _h : ChunkHead.read? bytes with
  | none => none
  | some head =>
    if head.kind = kind.name then
      if head.isFitting then do
        let data ← kind.dataOf? number (← Chunk.read? bytes)
        let rest ← imageData? kind (number + 1) (head.skip bytes)
        some (data ++ rest)
      else none
    else some []
termination_by bytes.length
decreasing_by exact ChunkHead.length_skip ‹_›

/-- What is in front of the image data, and where that starts. -/
structure Contents where
  preamble : Preamble
  kind : DataKind
  rest : List UInt8

namespace Contents

/-- The image data. -/
def data? (contents : Contents) : Option (List UInt8) :=
  imageData? contents.kind contents.preamble.frames contents.rest

/-- Reads chunks up to the image data. Data of a frame must have been told of. -/
def read? (header : Header) (preamble : Preamble) (bytes : List UInt8) : Option Contents :=
  match _h : ChunkHead.read? bytes with
  | none => none
  | some head =>
    if head.kind = DataKind.picture.name then some ⟨preamble, .picture, bytes⟩
    else if head.isFitting then
      if head.kind = DataKind.frame.name then
        if 0 < preamble.frames then some ⟨preamble, .frame, bytes⟩ else none
      else
        match (Chunk.read? bytes).bind (preamble.add header) with
        | none => none
        | some preamble => read? header preamble (head.skip bytes)
    else if isVital head.kind then none
    else read? header preamble (head.skip bytes)
termination_by bytes.length
decreasing_by all_goals exact ChunkHead.length_skip ‹_›

end Contents

end GlyphStrip.Png
