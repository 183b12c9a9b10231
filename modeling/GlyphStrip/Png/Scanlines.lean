import GlyphStrip.Png.Filter
import GlyphStrip.Png.Header

/-!
# Scanlines

The picture is stored in passes. Each pass holds the pixels of some columns and rows, one scanline
for each of those rows; a picture that is not interlaced has one pass that holds them all.
-/

namespace GlyphStrip.Png

/-- The pixels of a pass: their column is `column` modulo `columnStep`, and likewise their row. -/
structure Pass where
  column : Nat
  columnStep : Nat
  row : Nat
  rowStep : Nat
deriving DecidableEq

namespace Pass

/-- How many of `size` places are `start` modulo `step`. -/
def count (start step size : Nat) : Nat :=
  (size - start + step - 1) / step

/-- The number of columns of the pass. -/
def columns (pass : Pass) (header : Header) : Nat :=
  count pass.column pass.columnStep header.width.toNat

/-- The number of rows of the pass; a pass without columns has no rows. -/
def rows (pass : Pass) (header : Header) : Nat :=
  if pass.columns header = 0 then 0 else count pass.row pass.rowStep header.height.toNat

/-- Whether the pass holds a pixel. -/
def holds (pass : Pass) (x y : Nat) : Bool :=
  x % pass.columnStep == pass.column && y % pass.rowStep == pass.row

end Pass

/-- The passes of a picture. -/
def Header.passes (header : Header) : List Pass :=
  if header.isInterlaced then
    [⟨0, 8, 0, 8⟩, ⟨4, 8, 0, 8⟩, ⟨0, 4, 4, 8⟩, ⟨2, 4, 0, 4⟩, ⟨0, 2, 2, 4⟩, ⟨1, 2, 0, 2⟩,
      ⟨0, 1, 1, 2⟩]
  else [⟨0, 1, 0, 1⟩]

/-- The number of bytes that all scanlines take, with the byte in front of each that names its
filter. -/
def Header.storedSize (header : Header) : Nat :=
  header.passes.foldr (fun pass size =>
    pass.rows header * (header.scanlineSize (pass.columns header) + 1) + size) 0

/-- The samples of a scanline, the highest bits of a byte first. -/
def samples (depth : Nat) (line : Array UInt8) : Array Nat :=
  if depth = 16 then
    Array.ofFn fun i : Fin (line.size / 2) =>
      256 * (line.getD (2 * i.val) 0).toNat + (line.getD (2 * i.val + 1) 0).toNat
  else
    let share := 8 / depth
    Array.ofFn fun i : Fin (line.size * share) =>
      (line.getD (i.val / share) 0).toNat / Nat.pow 2 (8 - depth * (i.val % share + 1)) %
        Nat.pow 2 depth

/-- The scanlines of a pass as samples. -/
structure PassLines where
  pass : Pass
  lines : Array (Array Nat)

/-- Restores `count` scanlines, which start at an offset of the stored bytes. -/
def readLines (header : Header) (size : Nat) (stored : Array UInt8) :
    Nat → Nat → Array UInt8 → Array (Array Nat) → Option (Array (Array Nat))
  | 0, _, _, lines => some lines
  | count + 1, offset, above, lines => do
    let code ← stored[offset]?
    let predict ← Predictor.ofCode? code.toNat
    let differences := stored.extract (offset + 1) (offset + 1 + size)
    let line := unfilter predict header.predictionDistance above differences
    readLines header size stored count (offset + 1 + size) line
      (lines.push (samples header.depth line))

/-- Restores the scanlines of all passes, which start at an offset of the stored bytes. -/
def readPasses (header : Header) (stored : Array UInt8) : Nat → List Pass → Option (List PassLines)
  | _, [] => some []
  | offset, pass :: rest => do
    let size := header.scanlineSize (pass.columns header)
    let rows := pass.rows header
    let lines ← readLines header size stored rows offset #[] #[]
    let others ← readPasses header stored (offset + rows * (size + 1)) rest
    return ⟨pass, lines⟩ :: others

/-- The samples of all pixels. -/
structure Samples where
  header : Header
  passes : List PassLines

/-- Restores the samples from the stored bytes. -/
def Samples.read? (header : Header) (stored : Array UInt8) : Option Samples :=
  (readPasses header stored 0 header.passes).map fun passes => ⟨header, passes⟩

/-- One sample of the pixel in column `x` of row `y`. -/
def Samples.get (samples : Samples) (x y channel : Nat) : Nat :=
  match samples.passes.find? fun lines => lines.pass.holds x y with
  | none => 0
  | some ⟨pass, lines⟩ =>
    (lines.getD (y / pass.rowStep) #[]).getD
      (x / pass.columnStep * samples.header.kind.channels + channel) 0

end GlyphStrip.Png
