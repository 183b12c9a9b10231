import GlyphStrip.Deflate.Piece

/-!
# Compressed streams

A stream is a sequence of blocks. A block holds bytes as they are, or symbols of a fixed code, or
symbols of a code that it describes itself. A stream may be cut off anywhere, as long as enough of
it is there; but what is there must mean something up to its last block.
-/

namespace GlyphStrip.Deflate

/-- How far a stream has been read: the output so far, and the bits to go on with, unless the stream
is cut off there or there is enough output. -/
structure Progress where
  output : Array UInt8
  rest : Option Bits

/-- Appends `n` bytes, each one a copy of the byte `distance` places before it. -/
def copyBack (distance : Nat) : Nat → Array UInt8 → Array UInt8
  | 0, output => output
  | n + 1, output => copyBack distance n (output.push (output.getD (output.size - distance) 0))

/-- What has been read if the next piece is not there. -/
def Halt.progress? (output : Array UInt8) : Halt → Option Progress
  | .short => some ⟨output, none⟩
  | .invalid => none

/-! ## Blocks -/

/-- Reads pieces up to the end of the block, or until there is enough output. Each piece takes a
bit, so as many steps as there are bits are enough. -/
def pieces (codes : Codes) (enough : Nat) : Nat → Bits → Array UInt8 → Option Progress
  | 0, _, output => some ⟨output, none⟩
  | steps + 1, bits, output =>
    if enough ≤ output.size then some ⟨output, none⟩
    else
      match codes.piece bits with
      | .error halt => halt.progress? output
      | .ok (.bytes plain, bits) => pieces codes enough steps bits (plain.foldl Array.push output)
      | .ok (.copy length distance, bits) =>
        if distance ≤ output.size then
          pieces codes enough steps bits (copyBack distance length output)
        else none
      | .ok (.finish, bits) => some ⟨output, some bits⟩

/-- Reads a block of plain bytes: their number, its complement, and the bytes. -/
def stored (enough : Nat) (bits : Bits) (output : Array UInt8) : Option Progress :=
  let lengths := bits.skip bits.padding
  let start := lengths.skip 32
  let length := lengths.number 16
  if bits.left < bits.padding + 32 then some ⟨output, none⟩
  else if length + (lengths.skip 16).number 16 = 65535 then
    let plain := start.bytes length
    let isWhole := plain.size = length ∧ output.size + length ≤ enough
    some ⟨output ++ plain, if isWhole then some (start.skip (8 * length)) else none⟩
  else none

/-- The number of bits that are looked at where a block starts. -/
abbrev startReach : Nat := 10

/-- Reads a block of the given kind. -/
def block (enough kind : Nat) (bits : Bits) (output : Array UInt8) : Option Progress :=
  match kind with
  | 0 => stored enough bits output
  | 1 => pieces .fixed enough (bits.left + 1) bits output
  | 2 =>
    match Codes.read bits with
    | .error halt => halt.progress? output
    | .ok (codes, bits) => pieces codes enough (bits.left + 1) bits output
  | _ => none

/-- Reads blocks up to the last one, or until there is enough output. Each block takes a bit, so as
many steps as there are bits are enough. -/
def blocks (enough : Nat) : Nat → Bits → Array UInt8 → Option (Array UInt8)
  | 0, _, output => some output
  | steps + 1, bits, output =>
    if bits.left < startReach then some output
    else
      match block enough ((bits.skip 1).number 2) (bits.skip 3) output with
      | none => none
      | some ⟨output, none⟩ => some output
      | some ⟨output, some rest⟩ =>
        if bits.next = 1 then some output else blocks enough steps rest output

/-! ## Streams -/

/-- Whether two bytes start a stream: the method and its window size are known, no dictionary is
asked for, and the bytes as one number are a multiple of 31. -/
def isHeader (method flags : UInt8) : Bool :=
  method.toNat % 16 == 8 && method.toNat / 16 ≤ 7 && flags.toNat / 32 % 2 == 0 &&
    (256 * method.toNat + flags.toNat) % 31 == 0

/-- The most bytes between a copy and what it copies. -/
abbrev windowSize : Nat := 32768

/-- The number of bytes of output that are made in one go. -/
abbrev roundSize : Nat := 8192

/-- The output that is enough if `need` bytes of it are used: no later copy can reach them, and the
last round is complete. -/
def enoughFor (need : Nat) : Nat :=
  (need + windowSize + roundSize - 1) / roundSize * roundSize

/-- The first `need` bytes that a stream holds. What follows the last block or enough output is not
looked at; in particular, there need not be a checksum. -/
def expand? (need : Nat) (data : Array UInt8) : Option (Array UInt8) := do
  let method ← data[0]?
  let flags ← data[1]?
  if isHeader method flags then
    let output ← blocks (enoughFor need) (8 * data.size + 1) ⟨data, 16⟩ #[]
    if need ≤ output.size then some (output.extract 0 need) else none
  else none

end GlyphStrip.Deflate
