import GlyphStrip.Proofs.Machine.Words
import GlyphStrip.Proofs.Results
import GlyphStrip.Proofs.Strip.Faults
import GlyphStrip.Strip.Machine
import Mathlib.Data.List.Nodup

/-!
# Which places are read

The loops in machine words ask a source for the places of the scan, one after the other, up to the
first that cannot be read, and tell of the glyphs that are finished on the way
(`Machine.pack_of_isStrip`). What an inquiry asks and tells is put together from its parts
(`Source.Asks.bind`). The scan goes through all pixels in order (`stripOrder_pairwise`), each of
them once (`nodup_stripScan`).
-/

namespace GlyphStrip

/-! ## Readings in two parts -/

namespace Source

variable {source : Source} {points : List Point}

theorem read_append_of_fault {error : SampleError} (h : (source.read points).fault = some error)
    (rest : List Point) : source.read (points ++ rest) = source.read points := by
  induction points with
  | nil => cases h
  | cons p points ih =>
    rw [List.cons_append, read, read]
    cases hp : source.luminance p.x p.y with
    | error other => rfl
    | ok value =>
      simp only [read, hp] at h ⊢
      rw [ih h]

/-- Reading without a fault has asked for everything. -/
theorem asked_of_no_fault (h : (source.read points).fault = none) :
    (source.read points).asked = points := by
  rw [source.read_of_map (source.map_sample_of_fault h)]

/-- The places up to the first that cannot be read, that one included. -/
def upToFailure (source : Source) (points : List Point) : List Point :=
  points.takeWhile (fun p => (source.sample p).isOk) ++
    (points.dropWhile fun p => (source.sample p).isOk).take 1

theorem asked_read (source : Source) (points : List Point) :
    (source.read points).asked = source.upToFailure points := by
  induction points with
  | nil => rfl
  | cons p points ih =>
    have hsample : source.sample p = source.luminance p.x p.y := rfl
    rw [read, upToFailure, List.takeWhile_cons, List.dropWhile_cons, hsample]
    cases source.luminance p.x p.y with
    | error error => rfl
    | ok value =>
      rw [upToFailure] at ih
      simp [ih, Except.isOk, Except.toBool]

theorem upToFailure_prefix (source : Source) (points : List Point) :
    source.upToFailure points <+: points := by
  have hall := List.takeWhile_append_dropWhile (p := fun p => (source.sample p).isOk) (l := points)
  conv_rhs => rw [← hall]
  exact (List.prefix_append_right_inj _).2 (List.take_prefix 1 _)

end Source

/-! ## What an inquiry asks for and tells -/

open Machine

section inquiries

variable {α β σ ι : Type} {source : Source} {points : List Point}

/-- How an inquiry ends that depends on a reading: with its fault, or with a result that fits what
has been read. -/
inductive Reading.Ends (reading : Reading) (post : List UInt8 → α → Prop) :
    Except SampleError α → Prop
  | failed {error : SampleError} (h : reading.fault = some error) : Ends reading post (.error error)
  | finished {a : α} (h : reading.fault = none) (hpost : post reading.values a) :
      Ends reading post (.ok a)

/-- An inquiry asks a source for some places in order, up to the first that cannot be read. Which
glyphs it tells of depends on what it has read, and its result fits that. -/
def Source.Asks (source : Source) (points : List Point)
    (told : List UInt8 → List (BitVec 16 × List UInt8)) (inquiry : Inquiry α)
    (post : List UInt8 → α → Prop) : Prop :=
  ∀ record : Record, ∃ outcome, inquiry.run.run record =
      .ok (outcome, ⟨record.asked ++ (source.read points).asked,
        record.packed ++ told (source.read points).values⟩) ∧
    (source.read points).Ends post outcome

/-- Of an inquiry that tells of no glyph. -/
def silent (_ : List UInt8) : List (BitVec 16 × List UInt8) :=
  []

theorem Machine.run_bind (inquiry : Inquiry α) (next : α → Inquiry β) (record : Record) :
    (inquiry >>= next).run.run record = (inquiry.run.run record).bind fun
      | (.error error, record) => .ok (.error error, record)
      | (.ok a, record) => (next a).run.run record := by
  rw [ExceptT.run_bind, StateT.run_bind]
  cases inquiry.run.run record with
  | error fault => rfl
  | ok ending =>
    obtain ⟨outcome, record⟩ := ending
    cases outcome <;> rfl

namespace Source.Asks

variable {told first : List UInt8 → List (BitVec 16 × List UInt8)}

theorem pure {a : α} {post : List UInt8 → α → Prop} (htold : told [] = []) (h : post [] a) :
    source.Asks [] told (Pure.pure a) post := by
  refine fun record => ⟨.ok a, ?_, .finished rfl h⟩
  rw [read, htold, List.append_nil, List.append_nil]
  rfl

theorem ask (source : Source) (p : Point) :
    source.Asks [p] silent (ask source p.x.toBitVec p.y.toBitVec)
      fun values value => values = [value] := by
  intro record
  have hrun : (Machine.ask source p.x.toBitVec p.y.toBitVec).run.run record =
      .ok (source.luminance p.x p.y, { record with asked := record.asked ++ [p] }) := by
    rw [Machine.ask, run_bind]
    rfl
  refine ⟨source.luminance p.x p.y, ?_, ?_⟩
  · rw [hrun, read, silent, List.append_nil]
    cases source.luminance p.x p.y <;> rfl
  · cases hp : source.luminance p.x p.y with
    | error error => exact .failed (by simp only [read, hp])
    | ok value => exact .finished (by simp only [read, hp]) (by simp only [read, hp])

theorem tell (source : Source) (c : BitVec 16) (rows : List UInt8) :
    source.Asks [] (fun _ => [(c, rows)]) (tell c rows) fun _ _ => True := by
  refine fun record => ⟨.ok (), ?_, .finished rfl trivial⟩
  rw [read, List.append_nil]
  rfl

theorem imp {inquiry : Inquiry α} {post goal : List UInt8 → α → Prop}
    (h : source.Asks points told inquiry post)
    (hgoal : ∀ values a, values.length = points.length → post values a → goal values a) :
    source.Asks points told inquiry goal := by
  intro record
  obtain ⟨outcome, hrun, hends⟩ := h record
  refine ⟨outcome, hrun, ?_⟩
  cases hends with
  | failed hfault => exact .failed hfault
  | finished hfault hpost =>
    exact .finished hfault (hgoal _ _ (source.length_values_read points hfault) hpost)

/-- Of two inquiries in a row the first one tells of its glyphs alone if it cannot read all it asks
for, and otherwise both do. -/
theorem bind {behind : List Point} {inquiry : Inquiry α} {next : α → Inquiry β}
    {post : List UInt8 → α → Prop} {goal : List UInt8 → β → Prop}
    (h : source.Asks points first inquiry post)
    (hcut : ∀ values, values.length < points.length → told values = first values)
    (hnext : ∀ values a, values.length = points.length → post values a →
      ∃ second, (∀ more, more.length ≤ behind.length →
          told (values ++ more) = first values ++ second more) ∧
        source.Asks behind second (next a) fun more b => goal (values ++ more) b) :
    source.Asks (points ++ behind) told (inquiry >>= next) goal := by
  intro record
  obtain ⟨outcome, hrun, hends⟩ := h record
  rw [run_bind, hrun]
  cases hends with
  | failed hfault =>
    -- The rest is never asked for.
    obtain ⟨p, hp, _⟩ := sample_of_fault hfault
    rw [read_append_of_fault hfault, hcut _ (List.getElem?_eq_some_iff.1 hp).1]
    exact ⟨_, rfl, .failed hfault⟩
  | finished hfault hpost =>
    obtain ⟨second, htold, hsecond⟩ :=
      hnext _ _ (source.length_values_read points hfault) hpost
    obtain ⟨outcome, hrun', hends'⟩ := hsecond
      ⟨record.asked ++ (source.read points).asked,
        record.packed ++ first (source.read points).values⟩
    have hread := source.read_append (source.map_sample_of_fault hfault) behind
    rw [asked_of_no_fault hfault] at hrun' ⊢
    rw [hread]
    refine ⟨outcome, ?_, ?_⟩
    · rw [htold _ (source.length_values_read_le behind), ← List.append_assoc, ← List.append_assoc]
      exact hrun'
    · cases hends' with
      | failed hfault' => exact .failed hfault'
      | finished hfault' hpost' => exact .finished hfault' hpost'

theorem bind_silent {behind : List Point} {inquiry : Inquiry α} {next : α → Inquiry β}
    {post : List UInt8 → α → Prop} {goal : List UInt8 → β → Prop}
    (h : source.Asks points silent inquiry post)
    (hnext : ∀ values a, values.length = points.length → post values a →
      source.Asks behind silent (next a) fun more b => goal (values ++ more) b) :
    source.Asks (points ++ behind) silent (inquiry >>= next) goal :=
  h.bind (fun _ _ => rfl) fun values a hlength hpost =>
    ⟨silent, fun _ _ => rfl, hnext values a hlength hpost⟩

/-- A silent loop asks for what its steps ask for, and keeps what each of them keeps. -/
theorem foldlM (inv : List UInt8 → σ → Prop) {places : ι → List Point} {step : σ → ι → Inquiry σ}
    {items : List ι} (hstep : ∀ i ∈ items, ∀ values s, inv values s →
      source.Asks (places i) silent (step s i) fun more t => inv (values ++ more) t)
    (values : List UInt8) (s : σ) (h : inv values s) :
    source.Asks (items.flatMap places) silent (items.foldlM step s)
      fun more t => inv (values ++ more) t := by
  induction items generalizing values s with
  | nil =>
    rw [List.foldlM_nil]
    exact .pure rfl (by rwa [List.append_nil])
  | cons i items ih =>
    rw [List.foldlM_cons, List.flatMap_cons]
    refine (hstep i List.mem_cons_self values s h).bind_silent fun more t _ ht => ?_
    refine (ih (fun j hj => hstep j (List.mem_cons_of_mem i hj)) _ t ht).imp fun rest u _ hu => ?_
    rwa [← List.append_assoc]

/-- Arithmetic that fits its words asks for nothing. -/
theorem of_ok {inquiry : α → Inquiry β} {word : Except Fault α} {a : α}
    {post : List UInt8 → β → Prop}
    (hword : word = .ok a) (h : source.Asks points told (inquiry a) post) :
    source.Asks points told (do inquiry (← word)) post := by
  subst hword
  exact h

end Source.Asks

end inquiries

/-! ## Rows -/

/-- The bits of pixels, given left to right, as a number. -/
def bitsOf (values : List UInt8) : Nat :=
  (values.map isForeground).foldl (fun bits pixel => 2 * bits + pixel.toNat) 0

theorem bitsOf_concat (values : List UInt8) (value : UInt8) :
    bitsOf (values ++ [value]) = 2 * bitsOf values + (isForeground value).toNat := by
  simp [bitsOf]

/-- The rows that some values fill. -/
def rowsOf (values : List UInt8) : List Row :=
  Reading.rows ⟨[], values, none⟩

/-- The bytes of the rows that some values fill. -/
def bytesOf (values : List UInt8) : List UInt8 :=
  (rowsOf values).map Row.bits

theorem rowsOf_append {values : List UInt8} (h : glyphWidth ∣ values.length) (more : List UInt8) :
    rowsOf (values ++ more) = rowsOf values ++ rowsOf more := by
  obtain ⟨count, hcount⟩ := h
  have hpixels : (values.map isForeground).length = (glyphWidth - 1 + 1) * count := by
    rw [List.length_map, hcount]
    rfl
  simp only [rowsOf, Reading.rows, List.map_append, pieces_append_of_full hpixels]

theorem bytesOf_append {values : List UInt8} (h : glyphWidth ∣ values.length) (more : List UInt8) :
    bytesOf (values ++ more) = bytesOf values ++ bytesOf more := by
  rw [bytesOf, rowsOf_append h, List.map_append]
  rfl

theorem bytesOf_nil : bytesOf [] = [] := by
  rw [bytesOf, rowsOf, Reading.rows, List.map_nil, pieces_of_short (Nat.zero_le _)]
  rfl

theorem bytesOf_row {values : List UInt8} (h : values.length = glyphWidth) :
    bytesOf values = [⟨BitVec.ofNat 8 (bitsOf values)⟩] := by
  have hfull : (values.map isForeground).length = glyphWidth - 1 + 1 := by
    rw [List.length_map, h]
    rfl
  have hnone : pieces (glyphWidth - 1) ([] : List Bool) = [] := pieces_of_short (Nat.zero_le _)
  have hpieces := pieces_append hfull []
  rw [List.append_nil, hnone] at hpieces
  rw [bytesOf, rowsOf, Reading.rows, hpieces]
  rfl

namespace Machine

/-- Moving up by a bit and setting the lowest one is doubling and adding, within the word. -/
theorem moved_or (accumulator : BitVec 8) (pixel : Bool) :
    accumulator <<< (1 : BitVec 8) ||| BitVec.ofNat 8 pixel.toNat =
      BitVec.ofNat 8 (2 * accumulator.toNat + pixel.toNat) := by
  revert accumulator pixel
  decide +kernel

/-- A pixel moves in behind the bits of those before. -/
theorem asks_packPixel (source : Source) {c row bit : Nat} (hc : c < glyphCount)
    (hbit : bit < glyphWidth) (values : List UInt8) :
    source.Asks [.ofPixel c row bit] silent
      (packPixel source (BitVec.ofNat 32 (c * glyphWidth)) (BitVec.ofNat 32 row)
        (BitVec.ofNat 8 (bitsOf values)) bit)
      fun more byte => byte = BitVec.ofNat 8 (bitsOf (values ++ more)) := by
  have hx : sum (BitVec.ofNat 32 (c * glyphWidth)) (BitVec.ofNat 32 bit) =
      .ok (BitVec.ofNat 32 (glyphWidth * c + bit)) := by
    simp only [glyphCount, glyphWidth] at hc hbit ⊢
    rw [sum_ofNat (by omega), Nat.mul_comm]
  have hmoved : shiftLeft (BitVec.ofNat 8 (bitsOf values)) 1 =
      .ok (BitVec.ofNat 8 (bitsOf values) <<< (1 : BitVec 8)) := shiftLeft_of_lt (by decide)
  refine .of_ok hx ?_
  -- One place is asked for; what is done with its luminance asks for nothing more.
  show source.Asks ([.ofPixel c row bit] ++ []) _ _ _
  refine (Source.Asks.ask source _).bind_silent fun more value _ hvalue => ?_
  refine .of_ok hmoved (.pure rfl ?_)
  rw [List.append_nil, hvalue, bitsOf_concat, moved_or]
  -- Bits that have left the word on the left are lost on both sides.
  apply BitVec.eq_of_toNat_eq
  simp only [BitVec.toNat_ofNat]
  omega

/-- A row is read left to right, and its byte is that of its pixels. -/
theorem asks_packRow (source : Source) {c row : Nat} (hc : c < glyphCount)
    (hrow : row < glyphHeight) :
    source.Asks (rowScan c row) silent (packRow source (BitVec.ofNat 16 c) (BitVec.ofNat 8 row))
      fun values byte => [⟨byte⟩] = bytesOf values := by
  have hleft : product ((BitVec.ofNat 16 c).setWidth 32) (BitVec.ofNat 32 glyphWidth) =
      .ok (BitVec.ofNat 32 (c * glyphWidth)) := by
    simp only [glyphCount, glyphWidth] at hc ⊢
    rw [setWidth_ofNat (by decide) (by omega), product_ofNat (by omega) (by decide) (by omega)]
  have hy : (BitVec.ofNat 8 row).setWidth 32 = BitVec.ofNat 32 row :=
    setWidth_ofNat (by decide) (by simp only [glyphHeight] at hrow; omega)
  have hloop : source.Asks ((List.range glyphWidth).flatMap fun bit => [.ofPixel c row bit]) silent
      ((List.range glyphWidth).foldlM (packPixel source (BitVec.ofNat 32 (c * glyphWidth))
        (BitVec.ofNat 32 row)) 0) fun values byte => byte = BitVec.ofNat 8 (bitsOf values) := by
    refine .foldlM (fun values byte => byte = BitVec.ofNat 8 (bitsOf values)) ?_ [] 0 rfl
    rintro bit hbit values byte rfl
    exact asks_packPixel source hc (List.mem_range.1 hbit) values
  rw [← List.map_eq_flatMap] at hloop
  rw [packRow, hy]
  refine .of_ok hleft (hloop.imp fun values byte hlength hbyte => ?_)
  have hfull : values.length = glyphWidth := by
    rw [hlength, List.length_map, List.length_range]
  rw [hbyte, bytesOf_row hfull]

/-! ## Glyphs and strips -/

/-- The rows of a glyph are read one after the other. -/
theorem asks_packRows (source : Source) {c : Nat} (hc : c < glyphCount) :
    source.Asks (glyphScan c) silent (packRows source (BitVec.ofNat 16 c))
      fun values rows => rows = bytesOf values := by
  have hloop : source.Asks (glyphScan c) silent (packRows source (BitVec.ofNat 16 c))
      fun values rows => glyphWidth ∣ values.length ∧ rows = bytesOf values := by
    refine .foldlM (fun values rows => glyphWidth ∣ values.length ∧ rows = bytesOf values) ?_ [] []
      ⟨Nat.dvd_zero _, bytesOf_nil.symm⟩
    rintro row hrow values rows ⟨hfull, rfl⟩
    rw [← List.append_nil (rowScan c row)]
    refine (asks_packRow source hc (List.mem_range.1 hrow)).bind_silent
      fun more byte hlength hbyte => .pure rfl ?_
    rw [length_rowScan] at hlength
    rw [List.append_nil, hbyte, bytesOf_append hfull, List.length_append, hlength]
    exact ⟨Nat.dvd_add hfull (Nat.dvd_refl _), rfl⟩
  exact hloop.imp fun _ _ _ h => h.2

/-- The glyphs that some values fill, numbered from the first one on. -/
def parcels (c : Nat) (values : List UInt8) : List (BitVec 16 × List UInt8) :=
  ((pieces (glyphHeight - 1) (rowsOf values)).zipIdx c).map fun (rows, n) =>
    (BitVec.ofNat 16 n, rows.map Row.bits)

theorem parcels_of_short (c : Nat) {values : List UInt8}
    (h : values.length < glyphHeight * glyphWidth) : parcels c values = [] := by
  have hrows : (rowsOf values).length ≤ glyphHeight - 1 := by
    rw [rowsOf, Reading.length_rows]
    simp only [glyphHeight, glyphWidth] at h ⊢
    omega
  rw [parcels, pieces_of_short hrows]
  rfl

theorem parcels_append (c : Nat) {values : List UInt8}
    (h : values.length = glyphHeight * glyphWidth) (more : List UInt8) :
    parcels c (values ++ more) = (BitVec.ofNat 16 c, bytesOf values) :: parcels (c + 1) more := by
  have hrows : (rowsOf values).length = glyphHeight - 1 + 1 := by
    rw [rowsOf, Reading.length_rows, h]
    rfl
  rw [parcels, rowsOf_append ⟨glyphHeight, by rw [h, Nat.mul_comm]⟩, pieces_append hrows]
  rfl

/-- A glyph is told of behind its last row, and its bytes follow those of the glyphs before. -/
theorem asks_packGlyph (source : Source) {c : Nat} (hc : c < glyphCount) (bytes : List UInt8) :
    source.Asks (glyphScan c) (parcels c) (packGlyph source bytes c)
      fun values after => after = bytes ++ bytesOf values := by
  rw [← List.append_nil (glyphScan c), packGlyph]
  refine (asks_packRows source hc).bind (fun values hshort => ?_) fun values rows hfull hrows => ?_
  · rw [length_glyphScan] at hshort
    exact parcels_of_short c hshort
  · subst hrows
    rw [length_glyphScan] at hfull
    refine ⟨fun _ => [(BitVec.ofNat 16 c, bytesOf values)], fun more hmore => ?_, ?_⟩
    · obtain rfl : more = [] := List.eq_nil_of_length_eq_zero (Nat.le_zero.1 hmore)
      rw [parcels_append c hfull, parcels_of_short (c + 1) (by decide)]
      rfl
    · show source.Asks ([] ++ []) _ _ _
      refine (Source.Asks.tell source _ _).bind (fun _ _ => rfl) fun values' _ hnone _ =>
        ⟨silent, fun _ _ => rfl, .pure rfl ?_⟩
      obtain rfl : values' = [] := List.eq_nil_of_length_eq_zero hnone
      rw [List.append_nil, List.append_nil]

/-- The glyphs are read and told of one after the other. -/
theorem asks_glyphs (source : Source) {c count : Nat} (h : c + count ≤ glyphCount)
    (bytes : List UInt8) :
    source.Asks ((List.range' c count).flatMap glyphScan) (parcels c)
      ((List.range' c count).foldlM (packGlyph source) bytes)
      fun values after => after = bytes ++ bytesOf values := by
  induction count generalizing c bytes with
  | zero =>
    refine .pure (parcels_of_short c (by decide)) ?_
    rw [bytesOf_nil, List.append_nil]
  | succ count ih =>
    rw [List.range'_succ, List.flatMap_cons, List.foldlM_cons]
    refine (asks_packGlyph source (by omega) bytes).bind (fun _ _ => rfl)
      fun values after hfull hafter => ⟨parcels (c + 1), fun more _ => ?_, ?_⟩
    · rw [length_glyphScan] at hfull
      have hglyph := parcels_append c hfull []
      rw [List.append_nil, parcels_of_short (c + 1) (by decide)] at hglyph
      rw [parcels_append c hfull, hglyph, List.singleton_append]
    · rw [length_glyphScan] at hfull
      refine (ih (by omega) after).imp fun more last _ hlast => ?_
      rw [hlast, hafter, bytesOf_append ⟨glyphHeight, by rw [hfull, Nat.mul_comm]⟩,
        List.append_assoc]

theorem asks_stripScan (source : Source) :
    source.Asks stripScan (parcels 0) ((List.range glyphCount).foldlM (packGlyph source) [])
      fun values bytes => bytes = bytesOf values := by
  rw [stripScan, List.range_eq_range']
  exact asks_glyphs source (Nat.le_refl _) []

/-- The number of a finished glyph fits a byte. -/
theorem parcels_zero (reading : Reading) (h : reading.values.length ≤ fontSize * glyphWidth) :
    parcels 0 reading.values = reading.glyphs.map fun glyph =>
      (glyph.index.toBitVec.setWidth 16, glyph.bytes) := by
  have hcount : (pieces (glyphHeight - 1) reading.rows).attach.length ≤ glyphCount := by
    rw [List.length_attach, length_pieces, reading.length_rows]
    simp only [fontSize, glyphCount, glyphHeight, glyphWidth] at h ⊢
    omega
  rw [parcels, show rowsOf reading.values = reading.rows from rfl,
    ← List.attach_map_subtype_val (pieces (glyphHeight - 1) reading.rows), List.zipIdx_map,
    List.map_map, Reading.glyphs, List.map_map]
  refine List.map_congr_left ?_
  rintro ⟨piece, n⟩ hpiece
  have hn : n < 2 ^ 8 := by
    have hlt := List.snd_lt_of_mem_zipIdx hpiece
    simp only [glyphCount] at hcount
    omega
  exact congrArg (·, piece.val.map Row.bits) (setWidth_ofNat (by decide) hn).symm

theorem pack_of_not_isStrip {source : Source} (h : ¬ source.IsStrip) :
    Machine.pack source = .ok (.error (.shape ⟨source.width, source.height⟩), ⟨[], []⟩) := by
  rw [Source.isStrip_iff, not_and_or] at h
  exact if_pos h

/-- The loops end as packing does and tell of the glyphs that it finishes, and nothing overflows. -/
theorem pack_of_isStrip {source : Source} (h : source.IsStrip) : Machine.pack source =
    .ok (source.pack.result.map Font.bytes, ⟨source.upToFailure stripScan,
      source.pack.finished.map fun glyph => (glyph.index.toBitVec.setWidth 16, glyph.bytes)⟩) := by
  have hshape : ¬(source.width ≠ UInt32.ofNat stripWidth ∨
      source.height ≠ UInt32.ofNat stripHeight) := by
    rw [not_or, not_ne_iff, not_ne_iff]
    exact Source.isStrip_iff.1 h
  have htold : parcels 0 (source.read stripScan).values =
      (source.read stripScan).glyphs.map fun glyph =>
        (glyph.index.toBitVec.setWidth 16, glyph.bytes) :=
    parcels_zero _ (length_stripScan ▸ source.length_values_read_le stripScan)
  obtain ⟨outcome, hrun, hends⟩ := asks_stripScan source ⟨[], []⟩
  rw [Machine.pack, if_neg hshape, hrun, source.asked_read, List.nil_append, List.nil_append, htold]
  cases hends with
  | failed hfault =>
    rw [Source.pack_of_fault h hfault]
    rfl
  | finished hfault hbytes =>
    obtain ⟨font, hpack, hfont⟩ := Source.exists_pack_of_no_fault h hfault
    rw [hpack, hbytes, bytesOf, rowsOf]
    show _ = Except.ok (Except.ok font.bytes, _)
    rw [hfont]
    rfl

end Machine

/-! ## The order of the scan -/

/-- All pixels of a strip: glyph, row and column. -/
def stripOrder : List (Nat × Nat × Nat) :=
  (List.range glyphCount).flatMap fun c =>
    (List.range glyphHeight).flatMap fun row =>
      (List.range glyphWidth).map fun column => (c, row, column)

/-- The place of a pixel. -/
def placeOf (pixel : Nat × Nat × Nat) : Point :=
  ⟨.ofNat (8 * pixel.1 + pixel.2.2), .ofNat pixel.2.1⟩

theorem map_placeOf_stripOrder : stripOrder.map placeOf = stripScan := by
  simp only [stripOrder, List.map_flatMap, List.map_map]
  rfl

theorem mem_stripOrder {pixel : Nat × Nat × Nat} :
    pixel ∈ stripOrder ↔ pixel.1 < 256 ∧ pixel.2.1 < 7 ∧ pixel.2.2 < 8 := by
  obtain ⟨c, row, column⟩ := pixel
  simp only [stripOrder, List.mem_flatMap, List.mem_map, List.mem_range, Prod.mk.injEq]
  constructor
  · rintro ⟨_, hc, _, hrow, _, hcolumn, rfl, rfl, rfl⟩
    exact ⟨hc, hrow, hcolumn⟩
  · rintro ⟨hc, hrow, hcolumn⟩
    exact ⟨c, hc, row, hrow, column, hcolumn, rfl, rfl, rfl⟩

/-- Whether a pixel is read before another. -/
def Before (pixel other : Nat × Nat × Nat) : Prop :=
  Source.Precedes pixel.1 pixel.2.1 pixel.2.2 other.1 other.2.1 other.2.2

theorem stripOrder_pairwise : stripOrder.Pairwise Before := by
  have hrow (c row : Nat) :
      ((List.range glyphWidth).map fun column => (c, row, column)).Pairwise Before :=
    List.pairwise_map.2 (List.pairwise_lt_range.imp fun h => Or.inr ⟨rfl, Or.inr ⟨rfl, h⟩⟩)
  have hglyph (c : Nat) : ((List.range glyphHeight).flatMap fun row =>
      (List.range glyphWidth).map fun column => (c, row, column)).Pairwise Before := by
    refine List.pairwise_flatMap.2 ⟨fun row _ => hrow c row, List.pairwise_lt_range.imp ?_⟩
    intro row row' hlt pixel hpixel other hother
    obtain ⟨column, _, rfl⟩ := List.mem_map.1 hpixel
    obtain ⟨column', _, rfl⟩ := List.mem_map.1 hother
    exact Or.inr ⟨rfl, Or.inl hlt⟩
  refine List.pairwise_flatMap.2 ⟨fun c _ => hglyph c, List.pairwise_lt_range.imp ?_⟩
  intro c c' hlt pixel hpixel other hother
  simp only [List.mem_flatMap, List.mem_map] at hpixel hother
  obtain ⟨row, _, column, _, rfl⟩ := hpixel
  obtain ⟨row', _, column', _, rfl⟩ := hother
  exact Or.inl hlt

theorem placeOf_inj {pixel other : Nat × Nat × Nat} (hpixel : pixel ∈ stripOrder)
    (hother : other ∈ stripOrder) (h : placeOf pixel = placeOf other) : pixel = other := by
  obtain ⟨c, row, column⟩ := pixel
  obtain ⟨c', row', column'⟩ := other
  rw [mem_stripOrder] at hpixel hother
  simp only [placeOf, Point.mk.injEq, UInt32.ofNat_eq_iff_mod_eq_toNat, UInt32.toNat_ofNat'] at h
  dsimp only at hpixel hother
  have hc : c = c' := by omega
  have hrow : row = row' := by omega
  have hcolumn : column = column' := by omega
  rw [hc, hrow, hcolumn]

theorem nodup_stripScan : stripScan.Nodup := by
  rw [← map_placeOf_stripOrder]
  refine List.Nodup.map_on (fun pixel hpixel other hother h => placeOf_inj hpixel hother h) ?_
  refine stripOrder_pairwise.imp fun {pixel other} h => ?_
  rintro rfl
  simp only [Before, Source.Precedes] at h
  omega

/-! ## The places asked for -/

namespace Source

variable {source : Source}

theorem inside_of_mem_upToFailure {p : Point} (h : p ∈ source.upToFailure stripScan) :
    p.x < 2048 ∧ p.y < 7 :=
  mem_stripScan_iff.1 ((source.upToFailure_prefix stripScan).subset h)

/-- A strip that is packed has been read to the end, each place once. -/
theorem count_upToFailure {font : Font} (h : source.pack.result = .ok font) {x y : UInt32}
    (hx : x < 2048) (hy : y < 7) : (source.upToFailure stripScan).count ⟨x, y⟩ = 1 := by
  have hread := isReadable_iff.1 (exists_pack_iff.1 ⟨font, h⟩).2
  obtain ⟨values, hvalues⟩ := source.exists_values hread
  have hasked : source.upToFailure stripScan = stripScan := by
    rw [← source.asked_read, source.read_of_map hvalues]
  rw [hasked]
  exact List.count_eq_one_of_mem nodup_stripScan (mem_stripScan_iff.2 ⟨hx, hy⟩)

/-- Only the size of a source and the pixels of the strip matter to the loops. -/
theorem machine_pack_congr {other : Source} (hwidth : other.width = source.width)
    (hheight : other.height = source.height)
    (h : ∀ p ∈ stripScan, other.sample p = source.sample p) :
    Machine.pack other = Machine.pack source := by
  by_cases hstrip : source.IsStrip
  · have hstrip' : other.IsStrip := by rwa [IsStrip, hwidth, hheight]
    rw [Machine.pack_of_isStrip hstrip, Machine.pack_of_isStrip hstrip',
      pack_congr hwidth hheight h, ← asked_read, ← asked_read, read_congr h]
  · have hstrip' : ¬ other.IsStrip := by rwa [IsStrip, hwidth, hheight]
    rw [Machine.pack_of_not_isStrip hstrip, Machine.pack_of_not_isStrip hstrip', hwidth, hheight]

end Source

/-- **A strip is read in one order, each place once.** Whatever can be read, the loops in machine
words end as packing does, without overflow, and tell of the glyphs that it finishes. The places
asked for are those of all pixels by glyph, row and column, cut behind the first that cannot be
read; they are inside the strip, and if packing succeeds each place of the strip is asked for
exactly once. A source of another size is asked for none. So two sources of one size that agree on
the strip end alike, whatever they answer elsewhere. -/
theorem pack_asks_in_order (source : Source) :
    ∃ asked, Machine.pack source = .ok (source.pack.result.map Font.bytes, ⟨asked,
        source.pack.finished.map fun glyph => (glyph.index.toBitVec.setWidth 16, glyph.bytes)⟩) ∧
      (¬(source.width = 2048 ∧ source.height = 7) → asked = []) ∧
      (source.width = 2048 ∧ source.height = 7 → ∃ order : List (Nat × Nat × Nat),
        order.Pairwise Before ∧ (∀ pixel, pixel ∈ order ↔
          pixel.1 < 256 ∧ pixel.2.1 < 7 ∧ pixel.2.2 < 8) ∧
        asked = source.upToFailure (order.map placeOf)) ∧
      (∀ p ∈ asked, p.x < 2048 ∧ p.y < 7) ∧
      (∀ font, source.pack.result = .ok font →
        ∀ x y : UInt32, x < 2048 → y < 7 → asked.count ⟨x, y⟩ = 1) ∧
      ∀ other : Source, other.width = source.width → other.height = source.height →
        (∀ x y : UInt32, x < 2048 → y < 7 → other.luminance x y = source.luminance x y) →
          other.pack.result = source.pack.result ∧ Machine.pack other = Machine.pack source := by
  have hagree (other : Source) (hwidth : other.width = source.width)
      (hheight : other.height = source.height) (h : ∀ x y : UInt32, x < 2048 → y < 7 →
        other.luminance x y = source.luminance x y) :
      other.pack.result = source.pack.result ∧ Machine.pack other = Machine.pack source := by
    have hsample : ∀ p ∈ stripScan, other.sample p = source.sample p := by
      intro p hp
      obtain ⟨hx, hy⟩ := mem_stripScan_iff.1 hp
      exact h p.x p.y hx hy
    rw [Source.pack_congr hwidth hheight hsample]
    exact ⟨rfl, Source.machine_pack_congr hwidth hheight hsample⟩
  by_cases hstrip : source.IsStrip
  · refine ⟨_, Machine.pack_of_isStrip hstrip, fun h => absurd (Source.isStrip_iff.1 hstrip) h,
      fun _ => ?_, fun p hp => Source.inside_of_mem_upToFailure hp,
      fun font hfont x y hx hy => Source.count_upToFailure hfont hx hy, hagree⟩
    exact ⟨stripOrder, stripOrder_pairwise, fun _ => mem_stripOrder, by rw [map_placeOf_stripOrder]⟩
  · refine ⟨[], ?_, fun _ => rfl, fun h => absurd (Source.isStrip_iff.2 h) hstrip,
      fun p hp => absurd hp List.not_mem_nil, fun font hfont => ?_, hagree⟩
    · rw [Machine.pack_of_not_isStrip hstrip, Source.pack_of_not_isStrip hstrip]
      rfl
    · rw [Source.pack_of_not_isStrip hstrip] at hfont
      cases hfont

/-- The strip with a grey point, which refuses to answer outside. -/
def Source.greyIsland : Source :=
  ⟨2048, 7, fun x y =>
    if x < 2048 ∧ y < 7 then Source.greyPoint.luminance x y else .error ⟨x, y⟩⟩

/-- The strip with a grey point is read to its last corner and nowhere else, so it may as well
refuse to answer there, and all its glyphs are told of. A single pixel is not read at all. -/
theorem pack_asks_in_order_greyPoint :
    (∃ font record, Machine.pack Source.greyPoint = .ok (.ok font, record) ∧
        record.asked.count ⟨2047, 6⟩ = 1 ∧ ⟨2048, 6⟩ ∉ record.asked ∧ record.packed.length = 256) ∧
      Machine.pack Source.greyIsland = Machine.pack Source.greyPoint ∧
      Machine.pack ⟨1, 1, fun _ _ => .ok 0⟩ = .ok (.error (.shape ⟨1, 1⟩), ⟨[], []⟩) := by
  obtain ⟨asked, hpack, _, _, hinside, honce, hagree⟩ := pack_asks_in_order Source.greyPoint
  have hread : Source.greyPoint.IsReadable := fun x y _ _ => ⟨_, rfl⟩
  obtain ⟨font, hfont⟩ := Source.exists_pack_iff.2 ⟨Source.isStrip_iff.2 ⟨rfl, rfl⟩, hread⟩
  rw [hfont] at hpack
  refine ⟨⟨font.bytes, _, hpack, honce font hfont 2047 6 (by decide) (by decide), ?_, ?_⟩, ?_, ?_⟩
  · intro houtside
    exact absurd (hinside _ houtside).1 (by decide)
  · obtain ⟨hfinished, _⟩ := Source.finished_of_pack hfont
    rw [List.length_map, hfinished, font.length_glyphs]
  · exact (hagree Source.greyIsland rfl rfl fun x y hx hy => if_pos ⟨hx, hy⟩).2
  · obtain ⟨asked, hpack, hnone, _⟩ := pack_asks_in_order ⟨1, 1, fun _ _ => .ok 0⟩
    rw [hpack, hnone (by decide)]
    rfl

end GlyphStrip
