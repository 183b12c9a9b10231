import GlyphStrip.Proofs.Running

/-!
# Reading a preview back

`readPreview?` and `readPictures?` read text that is made of lines: a header holds the two digits of
a character, a row of eight marks holds a byte. What a preview shows comes back as it was, block by
block (`readBlock?_blockLines`), because every block takes nine lines (`pieces_flatMap`). So the
text alone tells which glyphs were chosen, in which order, and what they look like
(`preview_reads_back`).
-/

namespace GlyphStrip

/-! ## Digits -/

theorem Hex.value?_digit : ∀ {n : Nat}, n < 16 → Hex.value? (Hex.digit n) = some n := by
  decide

theorem Hex.digit_ne_feed : ∀ {n : Nat}, n < 16 → '\n' ≠ Hex.digit n := by
  decide

/-! ## Lines -/

/-- The lines of a text in which every line ends with a line feed. -/
def Text.terminated? (text : List Char) : Option (List (List Char)) :=
  let lines := Text.split '\n' text
  if lines.getLast? = some [] then some lines.dropLast else none

theorem Text.terminated?_flatMap {lines : List (List Char)} (h : ∀ line ∈ lines, '\n' ∉ line) :
    Text.terminated? (lines.flatMap fun line => line ++ ['\n']) = some lines := by
  have hsplit : Text.split '\n' (lines.flatMap fun line => line ++ ['\n']) = lines ++ [[]] := by
    simpa using Text.split_flatMap id lines h
  simp only [Text.terminated?, hsplit, List.getLast?_concat, if_true, List.dropLast_concat]

/-- Pieces of one length that were put together are cut apart again. -/
theorem pieces_flatMap {α β : Type} {n : Nat} {f : α → List β} (hf : ∀ a, (f a).length = n + 1)
    (items : List α) : pieces n (items.flatMap f) = items.map f := by
  induction items with
  | nil => exact pieces_of_short (Nat.zero_le n)
  | cons a items ih => rw [List.flatMap_cons, pieces_append (hf a), ih, List.map_cons]

/-- A list of readable items is read item by item. -/
theorem mapM_map_of_read {α β γ : Type} {write : α → β} {value : α → γ} {read : β → Option γ}
    {items : List α} (h : ∀ a ∈ items, read (write a) = some (value a)) :
    (items.map write).mapM read = some (items.map value) := by
  induction items with
  | nil => rfl
  | cons a items ih =>
    obtain ⟨ha, hitems⟩ := List.forall_mem_cons.1 h
    rw [List.map_cons, List.mapM_cons, ha, ih hitems]
    rfl

/-! ## Rows -/

/-- Reads a mark. -/
def readMark? (mark : Char) : Option Bool :=
  if mark = '#' then some true else if mark = '.' then some false else none

/-- Reads a row of marks, the leftmost one as the highest bit. -/
def readRow? (line : List Char) : Option UInt8 :=
  (line.mapM readMark?).bind fun pixels =>
    if pixels.length = glyphWidth then some (Row.ofPixels pixels).bits else none

theorem readMark?_pixelMark (pixel : Bool) : readMark? (pixelMark pixel) = some pixel := by
  cases pixel <;> decide

theorem readRow?_marks (row : Row) : readRow? row.marks = some row.bits := by
  have hmarks : row.marks.mapM readMark? = some row.pixels := by
    rw [Row.marks, mapM_map_of_read fun pixel _ => readMark?_pixelMark pixel, List.map_id']
  rw [readRow?, hmarks, Option.bind_some, if_pos row.length_pixels, Row.ofPixels_pixels]

theorem Row.feed_notMem_marks (row : Row) : '\n' ∉ row.marks := by
  intro h
  rcases Row.mem_marks h with h | h <;> revert h <;> decide

/-! ## Pictures -/

/-- Reads lines of marks. -/
def readPictures? (text : String) : Option (List UInt8) :=
  (Text.terminated? text.toList).bind fun lines => lines.mapM readRow?

/-- The pictures of all glyphs, one behind the other, hold every byte of the font. -/
theorem readPictures?_glyphs (font : Font) :
    readPictures? (String.join (font.glyphs.map Glyph.picture)) = some font.bytes := by
  have htext : (String.join (font.glyphs.map Glyph.picture)).toList =
      ((font.glyphs.flatMap Glyph.rows).map Row.marks).flatMap fun line => line ++ ['\n'] := by
    simp only [String.toList_join, List.flatMap_map, List.flatMap_assoc, Glyph.picture,
      String.toList_ofList, Glyph.pictureChars]
  have hfeed : ∀ line ∈ (font.glyphs.flatMap Glyph.rows).map Row.marks, '\n' ∉ line := by
    intro line hline
    obtain ⟨row, _, rfl⟩ := List.mem_map.1 hline
    exact row.feed_notMem_marks
  rw [readPictures?, htext, Text.terminated?_flatMap hfeed, Option.bind_some,
    mapM_map_of_read fun row _ => readRow?_marks row, List.map_flatMap]
  exact congrArg some font.flatMap_bytes_glyphs

/-! ## Blocks -/

/-- The words in front of the digits of a header. -/
def headerFront : List Char :=
  ['g', 'l', 'y', 'p', 'h', ' ', '0', 'x']

theorem toList_headerFront : "glyph 0x".toList = headerFront := rfl

/-- Reads the character of a header. -/
def readHeader? (line : List Char) : Option UInt8 :=
  match headerFront.isPrefixOf line, line.drop headerFront.length with
  | true, [high, low, ':'] =>
    (Hex.value? high).bind fun h => (Hex.value? low).map fun l => UInt8.ofNat (16 * h + l)
  | _, _ => none

/-- Reads a block: a header, rows of marks and an empty line. -/
def readBlock? : List (List Char) → Option (UInt8 × List UInt8)
  | [] => none
  | header :: lines =>
    if lines.getLast? = some [] then
      (readHeader? header).bind fun c => (lines.dropLast.mapM readRow?).map fun rows => (c, rows)
    else none

/-- The number of lines in a block. -/
abbrev blockHeight : Nat := glyphHeight + 2

/-- Reads a preview: which glyphs it shows, in order, and the bytes of each. -/
def readPreview? (text : String) : Option (List (UInt8 × List UInt8)) :=
  (Text.terminated? text.toList).bind fun lines =>
    if lines.length % blockHeight = 0 then (pieces (blockHeight - 1) lines).mapM readBlock?
    else none

/-- The lines that show a character: a header with two digits, seven rows of eight marks each, and
an empty line. -/
structure IsBlock (c : UInt8) (lines : List (List Char)) : Prop where
  length : lines.length = 9
  header : lines[0]? = some ("glyph 0x".toList ++ Hex.ofByte c ++ [':'])
  row : ∀ n < 7, ∃ marks, lines[n + 1]? = some marks ∧ marks.length = 8 ∧
    ∀ mark ∈ marks, mark = '#' ∨ mark = '.'
  last : lines[8]? = some []

namespace Font

variable (font : Font)

/-- The lines of the part of a preview that shows one glyph. -/
def blockLines (c : UInt8) : List (List Char) :=
  (headerFront ++ Hex.ofByte c ++ [':']) :: ((font.glyph c).rows.map Row.marks ++ [[]])

theorem length_blockLines (c : UInt8) : (font.blockLines c).length = blockHeight := by
  simp [blockLines, (font.glyph c).length_rows]

theorem isBlock_blockLines (c : UInt8) : IsBlock c (font.blockLines c) := by
  refine ⟨font.length_blockLines c, ?_, fun n hn => ?_, ?_⟩
  · rw [blockLines, List.getElem?_cons_zero, toList_headerFront]
  · obtain ⟨row, hrow⟩ := (font.glyph c).exists_row? hn
    refine ⟨row.marks, ?_, by simp [Row.marks], fun mark hmark => Row.mem_marks hmark⟩
    rw [Glyph.row?] at hrow
    rw [blockLines, List.getElem?_cons_succ,
      List.getElem?_append_left (by rw [List.length_map, (font.glyph c).length_rows]; exact hn),
      List.getElem?_map, hrow, Option.map_some]
  · rw [blockLines, List.getElem?_cons_succ,
      List.getElem?_append_right (by simp [Glyph.length_rows])]
    simp [Glyph.length_rows]

theorem feed_notMem_blockLines {c : UInt8} {line : List Char} (h : line ∈ font.blockLines c) :
    '\n' ∉ line := by
  have hc := c.toNat_lt
  rcases List.mem_cons.1 h with rfl | h
  · have hhigh := Hex.digit_ne_feed (n := c.toNat / 16) (by omega)
    have hlow := Hex.digit_ne_feed (n := c.toNat % 16) (by omega)
    simp [headerFront, Hex.ofByte, hhigh, hlow]
  · rcases List.mem_append.1 h with h | h
    · obtain ⟨row, _, rfl⟩ := List.mem_map.1 h
      exact row.feed_notMem_marks
    · rw [List.mem_singleton.1 h]
      exact List.not_mem_nil

theorem previewBlock_eq (c : UInt8) :
    font.previewBlock c = (font.blockLines c).flatMap fun line => line ++ ['\n'] := by
  have hblock : font.previewBlock c = headerFront ++ Hex.ofByte c ++ [':', '\n'] ++
      (font.glyph c).pictureChars ++ ['\n'] := rfl
  rw [hblock, blockLines, List.flatMap_cons, Glyph.pictureChars, List.flatMap_append,
    List.flatMap_map]
  simp

theorem toList_preview (chosen : List UInt8) :
    (font.preview chosen).toList =
      (chosen.flatMap font.blockLines).flatMap fun line => line ++ ['\n'] := by
  rw [preview, String.toList_ofList, List.flatMap_assoc]
  exact congrArg chosen.flatMap (funext font.previewBlock_eq)

theorem terminated?_preview (chosen : List UInt8) :
    Text.terminated? (font.preview chosen).toList = some (chosen.flatMap font.blockLines) := by
  rw [toList_preview]
  apply Text.terminated?_flatMap
  intro line hline
  obtain ⟨c, _, hmem⟩ := List.mem_flatMap.1 hline
  exact font.feed_notMem_blockLines hmem

theorem readHeader?_header (c : UInt8) :
    readHeader? (headerFront ++ Hex.ofByte c ++ [':']) = some c := by
  have hc := c.toNat_lt
  have hvalue : UInt8.ofNat (16 * (c.toNat / 16) + c.toNat % 16) = c := by
    rw [Nat.div_add_mod, UInt8.ofNat_toNat]
  have hfront : headerFront.isPrefixOf (headerFront ++ (Hex.ofByte c ++ [':'])) = true :=
    List.isPrefixOf_iff_prefix.2 (List.prefix_append _ _)
  have hdigits : Hex.ofByte c ++ [':'] =
      [Hex.digit (c.toNat / 16), Hex.digit (c.toNat % 16), ':'] := rfl
  rw [List.append_assoc, readHeader?, hfront, List.drop_left, hdigits]
  show ((Hex.value? (Hex.digit (c.toNat / 16))).bind fun h =>
    (Hex.value? (Hex.digit (c.toNat % 16))).map fun l => UInt8.ofNat (16 * h + l)) = some c
  rw [Hex.value?_digit (by omega), Hex.value?_digit (by omega), Option.bind_some, Option.map_some,
    hvalue]

/-- A block gives back its character and the seven bytes of the glyph. -/
theorem readBlock?_blockLines (c : UInt8) :
    readBlock? (font.blockLines c) = some (c, font.glyphBytes c.toNat) := by
  rw [blockLines, readBlock?, List.getLast?_concat, if_pos rfl, List.dropLast_concat,
    readHeader?_header, mapM_map_of_read fun row _ => readRow?_marks row]
  exact congrArg (fun rows => some (c, rows)) (font.bytes_glyph c)

theorem length_flatMap_blockLines (chosen : List UInt8) :
    (chosen.flatMap font.blockLines).length = chosen.length * blockHeight := by
  simp [List.length_flatMap, length_blockLines, List.map_const']

theorem readPreview?_preview (chosen : List UInt8) :
    readPreview? (font.preview chosen) =
      some (chosen.map fun c => (c, font.glyphBytes c.toNat)) := by
  rw [readPreview?, terminated?_preview, Option.bind_some,
    if_pos (by rw [length_flatMap_blockLines, Nat.mul_mod_left]),
    pieces_flatMap (n := blockHeight - 1) font.length_blockLines]
  exact mapM_map_of_read fun c _ => font.readBlock?_blockLines c

/-- Equal previews show equal glyphs of the same characters. -/
theorem preview_inj {font other : Font} {chosen others : List UInt8} :
    font.preview chosen = other.preview others ↔
      chosen = others ∧ ∀ c ∈ chosen, font.glyphBytes c.toNat = other.glyphBytes c.toNat := by
  constructor
  · intro h
    have hread := congrArg readPreview? h
    rw [readPreview?_preview, readPreview?_preview, Option.some.injEq] at hread
    have hchosen : chosen = others := by
      simpa [List.map_map, Function.comp_def] using congrArg (List.map Prod.fst) hread
    subst hchosen
    exact ⟨rfl, fun c hc => congrArg Prod.snd (List.map_inj_left.1 hread c hc)⟩
  · rintro ⟨rfl, h⟩
    have hblock : ∀ c ∈ chosen, font.previewBlock c = other.previewBlock c := by
      intro c hc
      have hglyph : font.glyph c = other.glyph c := by simp only [glyph, h c hc]
      rw [previewBlock_eq, previewBlock_eq, blockLines, blockLines, hglyph]
    rw [preview, preview, List.flatMap_congr hblock]

/-- **A preview reads back.** It is made of nine lines for each chosen character: a header, seven
rows of eight marks and an empty line. Its text alone gives the characters in their order, each with
the seven bytes of its glyph, so equal previews show equal glyphs of the same characters. The
pictures of all glyphs give all bytes of the font. This is the text that a successful run prints. -/
theorem preview_reads_back (font : Font) (chosen : List UInt8) :
    (∃ blocks, Text.terminated? (font.preview chosen).toList = some blocks.flatten ∧
      List.Forall₂ IsBlock chosen blocks ∧ blocks.flatten.length = 9 * chosen.length) ∧
    readPreview? (font.preview chosen) =
      some (chosen.map fun c => (c, (font.bytes.drop (7 * c.toNat)).take 7)) ∧
    readPictures? (String.join (font.glyphs.map Glyph.picture)) = some font.bytes ∧
    (∀ (other : Font) others, font.preview chosen = other.preview others → chosen = others ∧
      ∀ c ∈ chosen, font.glyphBytes c.toNat = other.glyphBytes c.toNat) ∧
    ∀ disk arguments environment config,
      CommandLine.parse arguments environment = .ok config → config.preview = chosen →
      (Disk.convertFile disk config.input config.output).result = .ok font →
        (Program.run disk arguments environment).output = font.preview chosen := by
  refine ⟨⟨chosen.map font.blockLines, ?_, ?_, ?_⟩, font.readPreview?_preview chosen,
    readPictures?_glyphs font, fun other others h => preview_inj.1 h, ?_⟩
  · rw [terminated?_preview, List.flatMap_def]
  · exact List.forall₂_map_right_iff.2 (List.forall₂_same.2 fun c _ => font.isBlock_blockLines c)
  · rw [← List.flatMap_def, length_flatMap_blockLines, Nat.mul_comm]
  · intro disk arguments environment config hparse hchosen hfont
    rw [Program.run_of_config disk hparse, Program.outcome_of_ok hfont, hchosen]

/-- A character above and one below sixteen, the first one chosen again at the end. -/
theorem preview_reads_back_linkedStrip :
    ∃ font : Font, (Program.run Disk.linkedStrip
        ["-i", "strip.png", "-o", "link.png", "-p", "65", "-p", "7", "-p65"]
        ⟨none, none⟩).output = font.preview [65, 7, 65] ∧
      readPreview? (font.preview [65, 7, 65]) =
        some [(65, font.glyphBytes 65), (7, font.glyphBytes 7), (65, font.glyphBytes 65)] := by
  obtain ⟨font, hfont⟩ := Disk.convertFile_linkedStrip_ok (Or.inl rfl) Disk.isName_link
    (by decide +kernel) (by decide +kernel)
  have hparse : CommandLine.parse
      ["-i", "strip.png", "-o", "link.png", "-p", "65", "-p", "7", "-p65"] ⟨none, none⟩ =
      .ok ⟨"strip.png", "link.png", [65, 7, 65], .info⟩ := by rfl
  obtain ⟨_, hread, _, _, hrun⟩ := preview_reads_back font [65, 7, 65]
  exact ⟨font, hrun Disk.linkedStrip _ _ _ hparse rfl (by rw [hfont]), hread⟩

end Font

end GlyphStrip
