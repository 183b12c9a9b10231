import GlyphStrip.Deflate.Stream
import GlyphStrip.Proofs.Results

/-!
# Copies in a stream

A copy of the byte directly in front of it makes a run of that byte longer (`copyBack_replicate`),
and so does a row of such copies (`pieces_copies`). A stream of one block holds what the block holds
(`blocks_last`, `expand?_of_blocks`).
-/

namespace GlyphStrip.Deflate

deriving instance DecidableEq for Bits

theorem copyBack_replicate {size : Nat} (hsize : 0 < size) (length : Nat) (byte : UInt8) :
    copyBack 1 length (Array.replicate size byte) = Array.replicate (size + length) byte := by
  induction length generalizing size with
  | zero => rfl
  | succ length ih =>
    have hlast :
        (Array.replicate size byte).getD ((Array.replicate size byte).size - 1) 0 = byte := by
      rw [Array.size_replicate, Array.getD_eq_getD_getElem?, Array.getElem?_replicate,
        if_pos (Nat.sub_lt hsize Nat.one_pos), Option.getD_some]
    rw [copyBack, hlast, ← Array.replicate_succ, ih (Nat.succ_pos size), Nat.succ_add_eq_add_succ]

section pieces

variable {codes : Codes} {enough : Nat} {bits rest : Bits} {output : Array UInt8}

theorem pieces_bytes {plain : List UInt8} (houtput : output.size < enough)
    (hpiece : codes.piece bits = .ok (.bytes plain, rest)) (steps : Nat) :
    pieces codes enough (steps + 1) bits output =
      pieces codes enough steps rest (plain.foldl Array.push output) := by
  rw [pieces, if_neg (Nat.not_le.2 houtput), hpiece]

theorem pieces_copy {length distance : Nat} (houtput : output.size < enough)
    (hpiece : codes.piece bits = .ok (.copy length distance, rest))
    (hdistance : distance ≤ output.size) (steps : Nat) :
    pieces codes enough (steps + 1) bits output =
      pieces codes enough steps rest (copyBack distance length output) := by
  rw [pieces, if_neg (Nat.not_le.2 houtput), hpiece]
  dsimp only
  rw [if_pos hdistance]

theorem pieces_finish (houtput : output.size < enough)
    (hpiece : codes.piece bits = .ok (.finish, rest)) (steps : Nat) :
    pieces codes enough (steps + 1) bits output = some ⟨output, some rest⟩ := by
  rw [pieces, if_neg (Nat.not_le.2 houtput), hpiece]

/-- Copies of one length, each of the byte in front of it, make a run longer by all their
lengths. -/
theorem pieces_copies {length width size count : Nat} (byte : UInt8) (hsize : 0 < size)
    (hroom : size + length * count < enough)
    (hpiece : ∀ i < count, codes.piece (bits.skip (width * i)) =
      .ok (.copy length 1, bits.skip (width * (i + 1)))) (steps : Nat) :
    pieces codes enough (steps + count) bits (Array.replicate size byte) =
      pieces codes enough steps (bits.skip (width * count))
        (Array.replicate (size + length * count) byte) := by
  induction count generalizing steps with
  | zero => rfl
  | succ count ih =>
    have hmore : length * (count + 1) = length * count + length := Nat.mul_succ length count
    have hlast := hpiece count (Nat.lt_succ_self count)
    rw [← Nat.succ_add_eq_add_succ, ih (by omega) fun i hi => hpiece i (Nat.lt_succ_of_lt hi)]
    have hfull : (Array.replicate (size + length * count) byte).size = size + length * count :=
      Array.size_replicate
    rw [pieces_copy (by omega) hlast (by omega), copyBack_replicate (by omega), Nat.add_assoc,
      hmore]

end pieces

/-- A stream of one block holds what the block holds. -/
theorem blocks_last {enough : Nat} {bits rest : Bits} {output result : Array UInt8}
    (hleft : startReach ≤ bits.left) (hlast : bits.next = 1)
    (hblock : block enough ((bits.skip 1).number 2) (bits.skip 3) output =
      some ⟨result, some rest⟩) (steps : Nat) :
    blocks enough (steps + 1) bits output = some result := by
  rw [blocks, if_neg (Nat.not_lt.2 hleft), hblock]
  exact if_pos hlast

theorem expand?_of_blocks {need : Nat} {data output : Array UInt8} {method flags : UInt8}
    (hmethod : data[0]? = some method) (hflags : data[1]? = some flags)
    (hheader : isHeader method flags = true)
    (hblocks : blocks (enoughFor need) (8 * data.size + 1) ⟨data, 16⟩ #[] = some output)
    (hneed : need ≤ output.size) : expand? need data = some (output.extract 0 need) := by
  rw [expand?, hmethod, hflags]
  simp only [Option.bind_eq_bind, Option.bind_some]
  rw [if_pos hheader, hblocks, Option.bind_some, if_pos hneed]

end GlyphStrip.Deflate
