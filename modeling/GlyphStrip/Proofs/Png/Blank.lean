import GlyphStrip.Png.Decode
import GlyphStrip.Proofs.Deflate.Copies

/-!
# Blank pictures

The image that samples expand to has the size that the header says (`size_expand?`). Zeros are
stored samples of any header (`exists_read?_replicate`), so a file whose data expands to zeros is
decoded (`exists_decode_of_zeros`).
-/

namespace GlyphStrip.Png

/-! ## Sizes -/

theorem Samples.size_expandIndexed (samples : Samples) (palette : List UInt8)
    (transparency : Option (List UInt8)) :
    (samples.expandIndexed palette transparency).toGray.width = samples.header.width ∧
      (samples.expandIndexed palette transparency).toGray.height = samples.header.height := by
  cases transparency <;> exact ⟨rfl, rfl⟩

theorem Samples.size_expand8 (samples : Samples) (transparency : Option (List UInt8)) :
    (samples.expand8 transparency).toGray.width = samples.header.width ∧
      (samples.expand8 transparency).toGray.height = samples.header.height := by
  unfold expand8
  dsimp only
  split <;> exact ⟨rfl, rfl⟩

theorem Samples.size_expand16 (samples : Samples) (transparency : Option (List UInt8)) :
    (samples.expand16 transparency).toGray.width = samples.header.width ∧
      (samples.expand16 transparency).toGray.height = samples.header.height := by
  unfold expand16
  dsimp only
  split <;> exact ⟨rfl, rfl⟩

/-- An image has the size that its header says. -/
theorem Samples.size_expand? {samples : Samples} {preamble : Preamble} {image : Image}
    (h : samples.expand? preamble = some image) :
    image.toGray.width = samples.header.width ∧ image.toGray.height = samples.header.height := by
  rw [expand?] at h
  split at h
  · obtain ⟨palette, _, rfl⟩ := Option.map_eq_some_iff.1 h
    exact samples.size_expandIndexed palette _
  · split at h
    · obtain rfl := Option.some.inj h
      exact samples.size_expand16 _
    · obtain rfl := Option.some.inj h
      exact samples.size_expand8 _

/-! ## Zeros -/

/-- Scanlines are restored if each starts with the code of a filter. -/
theorem exists_readLines (header : Header) (size : Nat) {stored : Array UInt8} {count offset : Nat}
    (hcodes : ∀ i < count, ∃ code predict, stored[offset + i * (size + 1)]? = some code ∧
      Predictor.ofCode? code.toNat = some predict) (above : Array UInt8)
    (lines : Array (Array Nat)) :
    ∃ restored, readLines header size stored count offset above lines = some restored := by
  induction count generalizing offset above lines with
  | zero => exact ⟨lines, rfl⟩
  | succ count ih =>
    obtain ⟨code, predict, hcode, hpredict⟩ := hcodes 0 (Nat.succ_pos count)
    rw [Nat.zero_mul, Nat.add_zero] at hcode
    rw [readLines, hcode]
    simp only [Option.bind_eq_bind, Option.bind_some, hpredict]
    refine ih (fun i hi => ?_) _ _
    obtain ⟨code, predict, hcode, hpredict⟩ := hcodes (i + 1) (Nat.succ_lt_succ hi)
    have hplace : offset + (i + 1) * (size + 1) = offset + 1 + size + i * (size + 1) := by
      rw [Nat.succ_mul]
      omega
    exact ⟨code, predict, hplace ▸ hcode, hpredict⟩

theorem exists_readPasses_replicate (header : Header) {passes : List Pass} {offset total : Nat}
    (htotal : offset + passes.foldr (fun pass size =>
      pass.rows header * (header.scanlineSize (pass.columns header) + 1) + size) 0 ≤ total) :
    ∃ restored, readPasses header (Array.replicate total 0) offset passes = some restored := by
  induction passes generalizing offset with
  | nil => exact ⟨[], rfl⟩
  | cons pass passes ih =>
    rw [List.foldr_cons, ← Nat.add_assoc] at htotal
    have hcodes : ∀ i < pass.rows header, ∃ code predict,
        (Array.replicate total (0 : UInt8))[offset +
          i * (header.scanlineSize (pass.columns header) + 1)]? = some code ∧
        Predictor.ofCode? code.toNat = some predict := by
      intro i hi
      have hbelow : i * (header.scanlineSize (pass.columns header) + 1) <
          pass.rows header * (header.scanlineSize (pass.columns header) + 1) :=
        Nat.mul_lt_mul_of_pos_right hi (Nat.succ_pos _)
      exact ⟨0, _, by rw [Array.getElem?_replicate, if_pos (by omega)], rfl⟩
    obtain ⟨lines, hlines⟩ := exists_readLines header _ hcodes #[] #[]
    obtain ⟨others, hothers⟩ := ih htotal
    refine ⟨⟨pass, lines⟩ :: others, ?_⟩
    rw [readPasses]
    simp only [Option.bind_eq_bind, hlines, hothers, Option.bind_some]
    rfl

/-- Zeros are restored to samples, whatever the header says. -/
theorem exists_read?_replicate (header : Header) :
    ∃ samples, Samples.read? header (Array.replicate header.storedSize 0) = some samples ∧
      samples.header = header := by
  have htotal := Nat.le_of_eq (Nat.zero_add header.storedSize)
  rw [Header.storedSize] at htotal
  obtain ⟨passes, hpasses⟩ := exists_readPasses_replicate header htotal
  exact ⟨⟨header, passes⟩, by rw [Samples.read?, Header.storedSize, hpasses, Option.map_some], rfl⟩

/-! ## Chunks -/

theorem read?_of_data {bytes : List UInt8} {head : ChunkHead} (header : Header)
    (preamble : Preamble) (hhead : ChunkHead.read? bytes = some head) (hkind : head.kind = "IDAT") :
    Contents.read? header preamble bytes = some ⟨preamble, .picture, bytes⟩ := by
  rw [Contents.read?]
  split
  · rename_i hnone
    rw [hhead] at hnone
    cases hnone
  · rename_i found hfound
    obtain rfl := Option.some.inj (hhead.symm.trans hfound)
    exact if_pos hkind

theorem imageData?_of_head {kind : DataKind} {number : Nat} {bytes : List UInt8} {head : ChunkHead}
    (hhead : ChunkHead.read? bytes = some head) :
    imageData? kind number bytes =
      if head.kind = kind.name then
        if head.isFitting then
          (Chunk.read? bytes).bind fun chunk => (kind.dataOf? number chunk).bind fun data =>
            (imageData? kind (number + 1) (head.skip bytes)).bind fun rest => some (data ++ rest)
        else none
      else some [] := by
  rw [imageData?]
  split
  · rename_i hnone
    rw [hhead] at hnone
    cases hnone
  · rename_i found hfound
    obtain rfl := Option.some.inj (hhead.symm.trans hfound)
    rfl

/-- The data of a single chunk, in front of one of another kind. -/
theorem imageData?_single {kind : DataKind} {number : Nat} {bytes data : List UInt8}
    {head next : ChunkHead} {chunk : Chunk} (hhead : ChunkHead.read? bytes = some head)
    (hkind : head.kind = kind.name) (hfits : head.isFitting = true)
    (hchunk : Chunk.read? bytes = some chunk) (hdata : kind.dataOf? number chunk = some data)
    (hnext : ChunkHead.read? (head.skip bytes) = some next) (hother : next.kind ≠ kind.name) :
    imageData? kind number bytes = some data := by
  rw [imageData?_of_head hhead, if_pos hkind, if_pos hfits, hchunk, Option.bind_some, hdata,
    Option.bind_some, imageData?_of_head hnext, if_neg hother, Option.bind_some, List.append_nil]

/-! ## Files -/

/-- A file without a palette whose data expands to zeros is decoded, to an image of its size. -/
theorem exists_decode_of_zeros {bytes rest data : List UInt8} {header : Header}
    {contents : Contents} (hstart : start? bytes = some (header, rest))
    (hkind : header.kind ≠ .indexed) (hcontents : Contents.read? header .empty rest = some contents)
    (hsize : header.expandedSize false < sizeBound)
    (hroom : isTooLarge header contents.preamble = false) (hdata : contents.data? = some data)
    (hzeros : Deflate.expand? header.storedSize data.toArray =
      some (Array.replicate header.storedSize 0)) :
    ∃ image, decode bytes = .ok image ∧ image.toGray.width = header.width ∧
      image.toGray.height = header.height := by
  obtain ⟨samples, hsamples, rfl⟩ := exists_read?_replicate header
  have himage : ∃ image, samples.expand? contents.preamble = some image := by
    rw [Samples.expand?]
    split
    · contradiction
    · split <;> exact ⟨_, rfl⟩
  obtain ⟨image, himage⟩ := himage
  have hpicture : picture? samples.header contents = some image := by
    rw [picture?]
    simp only [Option.bind_eq_bind, hdata, Option.bind_some, hzeros, hsamples, himage]
  refine ⟨image, ?_, Samples.size_expand? himage⟩
  rw [decode, hstart]
  dsimp only
  rw [if_neg (Nat.not_le.2 hsize), hcontents]
  dsimp only
  rw [hroom, hpicture]
  rfl

/-- The data of a black strip: a zero, six copies of 258 bytes and one of 250, in fixed codes. -/
def blackData : List UInt8 :=
  [0x78, 0x01, 0x63, 0x18, 0x05, 0xa3, 0x60, 0x14, 0x8c, 0x82, 0x51, 0x30, 0x0a, 0x46, 0x2e, 0x00,
    0x00, 0x07, 0x07, 0x00, 0x01]

/-- A file of 2048 by 7 black pixels of one bit. -/
def blackStrip : List UInt8 :=
  signature ++
    [0x00, 0x00, 0x00, 0x0d, 0x49, 0x48, 0x44, 0x52, 0x00, 0x00, 0x08, 0x00, 0x00, 0x00, 0x00, 0x07,
      0x01, 0x00, 0x00, 0x00, 0x00, 0xb4, 0x36, 0x90, 0x42] ++
    [0x00, 0x00, 0x00, 0x15, 0x49, 0x44, 0x41, 0x54] ++ blackData ++ [0x6a, 0xc3, 0x95, 0x80] ++
    [0x00, 0x00, 0x00, 0x00, 0x49, 0x45, 0x4e, 0x44, 0xae, 0x42, 0x60, 0x82]

theorem pieces_blackData : Deflate.pieces .fixed (Deflate.enoughFor 1799) 150
    ⟨blackData.toArray, 19⟩ #[] =
      some ⟨Array.replicate 1799 0, some ⟨blackData.toArray, 130⟩⟩ := by
  have hzero : Deflate.Codes.fixed.piece ⟨blackData.toArray, 19⟩ =
      .ok (.bytes [0], ⟨blackData.toArray, 27⟩) :=
    toOption_eq_some_iff.1 (by decide +kernel)
  have hcopies : ∀ i < 6, (Deflate.Codes.fixed.piece
      (Deflate.Bits.skip ⟨blackData.toArray, 27⟩ (13 * i))).toOption =
        some (.copy 258 1, Deflate.Bits.skip ⟨blackData.toArray, 27⟩ (13 * (i + 1))) := by
    decide +kernel
  have hcopy : Deflate.Codes.fixed.piece ⟨blackData.toArray, 105⟩ =
      .ok (.copy 250 1, ⟨blackData.toArray, 123⟩) :=
    toOption_eq_some_iff.1 (by decide +kernel)
  have hfinish : Deflate.Codes.fixed.piece ⟨blackData.toArray, 123⟩ =
      .ok (.finish, ⟨blackData.toArray, 130⟩) :=
    toOption_eq_some_iff.1 (by decide +kernel)
  have hroom : 1 + 258 * 6 < Deflate.enoughFor 1799 := by decide
  have hsize (size : Nat) : (Array.replicate size (0 : UInt8)).size = size := Array.size_replicate
  rw [Deflate.pieces_bytes (by decide) hzero 149]
  refine (Deflate.pieces_copies 0 Nat.one_pos hroom
    (fun i hi => toOption_eq_some_iff.1 (hcopies i hi)) 143).trans ?_
  refine (Deflate.pieces_copy (by rw [hsize]; decide) hcopy (by rw [hsize]; decide) 142).trans ?_
  rw [Deflate.copyBack_replicate (by decide)]
  exact Deflate.pieces_finish (by rw [hsize]; decide) hfinish 141

theorem expand?_blackData :
    Deflate.expand? 1799 blackData.toArray = some (Array.replicate 1799 0) := by
  have hkind : (Deflate.Bits.skip ⟨blackData.toArray, 16⟩ 1).number 2 = 1 := by decide
  have hleft : (Deflate.Bits.skip ⟨blackData.toArray, 16⟩ 3).left + 1 = 150 := rfl
  have hblock : Deflate.block (Deflate.enoughFor 1799)
      ((Deflate.Bits.skip ⟨blackData.toArray, 16⟩ 1).number 2)
      (Deflate.Bits.skip ⟨blackData.toArray, 16⟩ 3) #[] =
        some ⟨Array.replicate 1799 0, some ⟨blackData.toArray, 130⟩⟩ := by
    rw [hkind, Deflate.block, hleft]
    exact pieces_blackData
  have hblocks : Deflate.blocks (Deflate.enoughFor 1799) (168 + 1) ⟨blackData.toArray, 16⟩ #[] =
      some (Array.replicate 1799 0) :=
    Deflate.blocks_last (by decide) (by decide) hblock 168
  have hbits : 8 * blackData.toArray.size = 168 := rfl
  have hsize : (Array.replicate 1799 (0 : UInt8)).size = 1799 := Array.size_replicate
  have hheader : Deflate.isHeader 0x78 0x01 = true := by decide
  rw [Deflate.expand?_of_blocks rfl rfl hheader (by rw [hbits]; exact hblocks)
    (Nat.le_of_eq hsize.symm)]
  simp

/-- The file is decoded to a picture of the size of the strip. -/
theorem decode_blackStrip : ∃ image, decode blackStrip = .ok image ∧
    image.toGray.width = 2048 ∧ image.toGray.height = 7 := by
  have hstart : start? blackStrip = some (⟨2048, 7, 1, .gray, false⟩, blackStrip.drop 33) := by
    decide +kernel
  have hhead : ChunkHead.read? (blackStrip.drop 33) = some ⟨21, "IDAT"⟩ := by decide +kernel
  have hchunk : Chunk.read? (blackStrip.drop 33) = some ⟨"IDAT", blackData, true⟩ := by
    decide +kernel
  have hnext : ChunkHead.read? (ChunkHead.skip ⟨21, "IDAT"⟩ (blackStrip.drop 33)) =
      some ⟨0, "IEND"⟩ := by decide +kernel
  have hdata : imageData? .picture 0 (blackStrip.drop 33) = some blackData :=
    imageData?_single hhead rfl (by decide +kernel) hchunk rfl hnext (by decide)
  have hstored : Header.storedSize ⟨2048, 7, 1, .gray, false⟩ = 1799 := by decide
  exact exists_decode_of_zeros hstart (by decide) (read?_of_data _ _ hhead rfl) (by decide)
    (by decide) hdata (by rw [hstored, expand?_blackData])

/-- The compressed rows of a black picture of one pixel: a stored block of two bytes. -/
def dotData : List UInt8 :=
  [0x78, 0x01, 0x01, 0x02, 0x00, 0xfd, 0xff, 0x00, 0x00, 0x00, 0x02, 0x00, 0x01]

/-- A file that holds a black picture of one pixel. -/
def blackDot : List UInt8 :=
  signature ++
    [0x00, 0x00, 0x00, 0x0d, 0x49, 0x48, 0x44, 0x52, 0x00, 0x00, 0x00, 0x01, 0x00, 0x00, 0x00, 0x01,
      0x01, 0x00, 0x00, 0x00, 0x00, 0x37, 0x6e, 0xf9, 0x24] ++
    [0x00, 0x00, 0x00, 0x0d, 0x49, 0x44, 0x41, 0x54] ++ dotData ++ [0x7e, 0x05, 0x0d, 0xd2] ++
    [0x00, 0x00, 0x00, 0x00, 0x49, 0x45, 0x4e, 0x44, 0xae, 0x42, 0x60, 0x82]

theorem expand?_dotData : Deflate.expand? 2 dotData.toArray = some (Array.replicate 2 0) := by
  decide +kernel

theorem decode_blackDot : ∃ image, decode blackDot = .ok image ∧
    image.toGray.width = 1 ∧ image.toGray.height = 1 := by
  have hstart : start? blackDot = some (⟨1, 1, 1, .gray, false⟩, blackDot.drop 33) := by
    decide +kernel
  have hhead : ChunkHead.read? (blackDot.drop 33) = some ⟨13, "IDAT"⟩ := by decide +kernel
  have hchunk : Chunk.read? (blackDot.drop 33) = some ⟨"IDAT", dotData, true⟩ := by
    decide +kernel
  have hnext : ChunkHead.read? (ChunkHead.skip ⟨13, "IDAT"⟩ (blackDot.drop 33)) =
      some ⟨0, "IEND"⟩ := by decide +kernel
  have hdata : imageData? .picture 0 (blackDot.drop 33) = some dotData :=
    imageData?_single hhead rfl (by decide +kernel) hchunk rfl hnext (by decide)
  have hstored : Header.storedSize ⟨1, 1, 1, .gray, false⟩ = 2 := by decide
  exact exists_decode_of_zeros hstart (by decide) (read?_of_data _ _ hhead rfl) (by decide)
    (by decide) hdata (by rw [hstored, expand?_dotData])

end GlyphStrip.Png
