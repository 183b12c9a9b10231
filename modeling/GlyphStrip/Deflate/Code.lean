import GlyphStrip.Deflate.Bits

/-!
# Canonical codes

A code is given by the length of each symbol's word. Words of one length are consecutive numbers in
the order of the symbols, and longer words come after shorter ones.
-/

namespace GlyphStrip.Deflate

/-- The length of the longest word. -/
abbrev longestWord : Nat := 15

/-- A code: how many words it has of each length from one up, and the symbols in the order of their
words. -/
structure Code where
  counts : List Nat
  symbols : Array Nat

/-- A symbol that some bits start with, and the length of its word. -/
structure Word where
  symbol : Nat
  width : Nat
deriving DecidableEq

namespace Code

/-- The code with the given word lengths; a symbol of length zero has no word. -/
def ofLengths (lengths : List Nat) : Code :=
  let widths := (List.range longestWord).map Nat.succ
  { counts := widths.map fun width => lengths.count width
    symbols := (widths.flatMap fun width =>
      (lengths.zipIdx.filter fun entry => entry.1 == width).map Prod.snd).toArray }

/-- The share of all bit sequences of the longest length that start with a word. -/
def coverage (counts : List Nat) : Nat :=
  counts.foldl (fun covered count => 2 * covered + count) 0

/-- Whether every bit sequence starts with exactly one word. -/
def isComplete (code : Code) : Bool :=
  coverage code.counts == Nat.pow 2 longestWord

/-- Whether the code has no word at all, or a single one of one bit. -/
def isTrivial (code : Code) : Bool :=
  code.symbols.size == 0 || (code.symbols.size == 1 && code.counts.head? == some 1)

/-- Looks for a word, given the number in the bits so far, the first word of their length, and the
numbers of shorter words and of the bits. -/
def walk (symbols : Array Nat) : List Nat → Nat → Nat → Nat → Nat → Bits → Option Word
  | [], _, _, _, _, _ => none
  | count :: counts, number, first, index, width, bits =>
    let number := 2 * number + bits.next
    let first := 2 * first
    if number < first + count then
      symbols[index + (number - first)]?.map fun symbol => ⟨symbol, width + 1⟩
    else walk symbols counts number (first + count) (index + count) (width + 1) (bits.skip 1)

/-- The word that some bits start with. -/
def find? (code : Code) (bits : Bits) : Option Word :=
  walk code.symbols code.counts 0 0 0 0 bits

end Code

end GlyphStrip.Deflate
