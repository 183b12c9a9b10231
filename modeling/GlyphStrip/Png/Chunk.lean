import GlyphStrip.Png.Crc

/-!
# Chunks

A file is a signature followed by chunks. A chunk is the length of its body, the four letters of its
kind, the body, and a check of kind and body.
-/

namespace GlyphStrip.Png

/-- The number written in some bytes, highest byte first. -/
def bigEndian (bytes : List UInt8) : Nat :=
  bytes.foldl (fun n byte => 256 * n + byte.toNat) 0

/-- The bytes that every file starts with. -/
def signature : List UInt8 :=
  [0x89, 0x50, 0x4e, 0x47, 0x0d, 0x0a, 0x1a, 0x0a]

/-- The start of a chunk: the length of the body and the kind. -/
structure ChunkHead where
  length : Nat
  kind : String
deriving DecidableEq

/-- A chunk with its body, and whether its check is right. -/
structure Chunk where
  kind : String
  body : List UInt8
  isIntact : Bool
deriving DecidableEq

/-- The number of bytes in front of the body. -/
abbrev headSize : Nat := 8

/-- The number of bytes around the body. -/
abbrev frameSize : Nat := headSize + 4

/-- The start of the chunk that some bytes start with. -/
def ChunkHead.read? (bytes : List UInt8) : Option ChunkHead :=
  let head := bytes.take headSize
  if head.length = headSize then
    some ⟨bigEndian (head.take 4),
      String.ofList ((head.drop 4).map fun byte => Char.ofNat byte.toNat)⟩
  else none

/-- The chunk that some bytes start with, if they hold all of it. -/
def Chunk.read? (bytes : List UInt8) : Option Chunk := do
  let head ← ChunkHead.read? bytes
  let rest := bytes.drop headSize
  let body := rest.take head.length
  let check := (rest.drop head.length).take 4
  if check.length = 4 then
    return ⟨head.kind, body, (crc ((bytes.drop 4).take (4 + head.length))).toNat == bigEndian check⟩
  else none

/-- The bytes behind a chunk. -/
def ChunkHead.skip (head : ChunkHead) (bytes : List UInt8) : List UInt8 :=
  bytes.drop (frameSize + head.length)

/-- A chunk whose kind starts with an upper-case letter must be understood by every reader. -/
def isCritical (kind : String) : Bool :=
  match kind.toList with
  | [] => true
  | c :: _ => c.toNat / 32 % 2 == 0

/-- The kinds whose bodies have a least and a most number of bytes. -/
def bodySizes : List (String × Nat × Nat) :=
  [("IHDR", 13, 13), ("PLTE", 3, 768), ("IEND", 0, 0), ("fcTL", 26, 26), ("fdAT", 4, Nat.pow 2 32),
    ("acTL", 8, 8), ("bKGD", 1, 6), ("cHRM", 32, 32), ("cICP", 4, 4), ("cLLI", 8, 8),
    ("gAMA", 4, 4), ("mDCV", 24, 24), ("pHYs", 9, 9), ("sBIT", 1, 4), ("sRGB", 1, 1),
    ("tRNS", 1, 256)]

/-- Whether a chunk has a length that its kind admits. -/
def ChunkHead.isFitting (head : ChunkHead) : Bool :=
  match bodySizes.lookup head.kind with
  | some (least, most) => least ≤ head.length && head.length ≤ most
  | none => true

/-- Whether a chunk of some kind must have a length that its kind admits. Others are skipped. -/
def isVital (kind : String) : Bool :=
  isCritical kind || kind == "fcTL" || kind == "fdAT"

theorem ChunkHead.length_skip {head : ChunkHead} {bytes : List UInt8}
    (h : ChunkHead.read? bytes = some head) : (head.skip bytes).length < bytes.length := by
  simp only [ChunkHead.read?] at h
  split at h
  · simp only [skip, List.length_drop]
    simp only [List.length_take, headSize] at *
    simp only [frameSize, headSize]
    omega
  · simp at h

end GlyphStrip.Png
