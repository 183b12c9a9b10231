import GlyphStrip.Proofs.Font.Machine

/-!
# Where a session stands

All that a session remembers of its moves is how far each cursor has come, which is a `Standing`. A
move takes the session and its machine form from one standing to the next (`Standing.move_session`,
`Standing.move_machine`), so a run of them follows the standings (`Session.run_follows_standing`).
-/

namespace GlyphStrip

/-- How far each cursor of a session has come, and on which glyph and which byte the two of rows and
pixels were started. -/
structure Standing where
  glyph : Nat
  saved : Nat
  drawn : UInt8
  row : Nat
  bits : UInt8
  column : Nat
deriving DecidableEq

namespace Standing

variable (font : Font)

def start : Standing :=
  ⟨0, 0, 0, 0, 0, 0⟩

/-- A cursor at the end shows nothing and stays there. -/
def move (s : Standing) : Move → View × Standing
  | .restart => (.nothing, { s with glyph := 0 })
  | .next => (.glyph font.glyphs[s.glyph]?, { s with glyph := min (s.glyph + 1) glyphCount })
  | .nth k =>
    (.glyph font.glyphs[s.glyph + k]?, { s with glyph := min (s.glyph + k + 1) glyphCount })
  | .take k =>
    (.glyphs ((font.glyphs.drop s.glyph).take k), { s with glyph := min (s.glyph + k) glyphCount })
  | .rest => (.glyphs (font.glyphs.drop s.glyph), { s with glyph := glyphCount })
  | .left => (.count (glyphCount - s.glyph), s)
  | .save => (.nothing, { s with saved := s.glyph })
  | .restore => (.nothing, { s with glyph := s.saved })
  | .compareSaved => (.order (compare s.glyph s.saved), s)
  | .rowsOf c => (.nothing, { s with drawn := c, row := 0 })
  | .nextRow =>
    (.row ((font.glyph s.drawn).row? s.row), { s with row := min (s.row + 1) glyphHeight })
  | .pixelsOf bits => (.nothing, { s with bits, column := 0 })
  | .nextPixel =>
    (.pixel ((Row.mk s.bits).pixel? s.column), { s with column := min (s.column + 1) glyphWidth })

def run (s : Standing) : List Move → List View × Standing
  | [] => ([], s)
  | move :: moves =>
    let (view, next) := s.move font move
    let (views, last) := next.run moves
    (view :: views, last)

/-- No cursor is behind its end. -/
structure Inside (s : Standing) : Prop where
  glyph : s.glyph ≤ glyphCount
  saved : s.saved ≤ glyphCount
  row : s.row ≤ glyphHeight
  column : s.column ≤ glyphWidth

variable {font} {s : Standing}

theorem inside_start : start.Inside :=
  ⟨Nat.zero_le _, Nat.zero_le _, Nat.zero_le _, Nat.zero_le _⟩

theorem Inside.move (h : s.Inside) (move : Move) : (s.move font move).2.Inside := by
  obtain ⟨hglyph, hsaved, hrow, hcolumn⟩ := h
  cases move with
  | restart => exact ⟨Nat.zero_le _, hsaved, hrow, hcolumn⟩
  | next | nth | take => exact ⟨Nat.min_le_right _ _, hsaved, hrow, hcolumn⟩
  | rest => exact ⟨Nat.le_refl _, hsaved, hrow, hcolumn⟩
  | left | compareSaved => exact ⟨hglyph, hsaved, hrow, hcolumn⟩
  | save => exact ⟨hglyph, hglyph, hrow, hcolumn⟩
  | restore => exact ⟨hsaved, hsaved, hrow, hcolumn⟩
  | rowsOf => exact ⟨hglyph, hsaved, Nat.zero_le _, hcolumn⟩
  | nextRow => exact ⟨hglyph, hsaved, Nat.min_le_right _ _, hcolumn⟩
  | pixelsOf => exact ⟨hglyph, hsaved, hrow, Nat.zero_le _⟩
  | nextPixel => exact ⟨hglyph, hsaved, hrow, Nat.min_le_right _ _⟩

end Standing

/-! ## Cursors in the list of glyphs -/

theorem GlyphCursor.peek?_eq (cursor : GlyphCursor) :
    cursor.peek? = cursor.font.glyphs[cursor.position]? := by
  rw [peek?]
  split
  · rename_i hlt
    rw [Font.getElem?_glyphs _ hlt]
  · rename_i hend
    rw [List.getElem?_eq_none (by rw [Font.length_glyphs]; omega)]

theorem GlyphCursor.nth_eq (cursor : GlyphCursor) (k : Nat) :
    cursor.nth k = (cursor.font.glyphs[cursor.position + k]?, cursor.advance (k + 1)) := by
  have hplace : min (min (cursor.position + k) glyphCount + 1) glyphCount =
      min (cursor.position + (k + 1)) glyphCount := by omega
  simp only [nth, next, peek?_eq, advance, hplace, Prod.mk.injEq, and_true]
  rcases Nat.le_total (cursor.position + k) glyphCount with hle | hge
  · rw [Nat.min_eq_left hle]
  · rw [Nat.min_eq_right hge, List.getElem?_eq_none (by simp), List.getElem?_eq_none (by simpa)]

theorem GlyphCursor.compare_eq {cursor other : GlyphCursor} (h : cursor.font = other.font) :
    compare cursor other = compare cursor.position other.position := by
  show (compare cursor.font other.font).then (compare cursor.position other.position) = _
  rw [h, Font.compare_self, Ordering.eq_then]

theorem RowCursor.next_drop (glyph : Glyph) {r : Nat} (hr : r ≤ glyphHeight) :
    RowCursor.next ⟨glyph.rows.drop r⟩ =
      (glyph.row? r, ⟨glyph.rows.drop (min (r + 1) glyphHeight)⟩) := by
  rw [RowCursor.next, List.head?_drop, List.tail_drop, Glyph.row?]
  rcases Nat.lt_or_eq_of_le hr with hlt | rfl
  · rw [Nat.min_eq_left hlt]
  · -- behind the last row there is nothing to drop
    have hlength := glyph.length_rows
    rw [List.drop_eq_nil_of_le (by omega), List.drop_eq_nil_of_le (by omega)]

namespace Standing

variable {font : Font} {s : Standing}

/-! ## Sessions at a standing -/

variable (font s)

def session (h : s.Inside) : Session where
  font
  glyphs := ⟨font, s.glyph, h.glyph⟩
  saved := ⟨font, s.saved, h.saved⟩
  rows := ⟨(font.glyph s.drawn).rows.drop s.row⟩
  pixels := ⟨⟨s.bits⟩, s.column, h.column⟩

def machine : Machine.Session where
  font
  glyphs := .before font s.glyph
  saved := .before font s.saved
  rows := ⟨(font.glyph s.drawn).rows.drop s.row⟩
  pixels := .before ⟨s.bits⟩ s.column

variable {font s}

theorem move_session (h : s.Inside) (move : Move) :
    (s.session font h).move move =
      ((s.move font move).1, (s.move font move).2.session font (h.move move)) := by
  cases move with
  | restart | save | restore | rowsOf | pixelsOf | nextPixel => rfl
  | next =>
    simp only [Session.move, session, GlyphCursor.next, GlyphCursor.peek?_eq]
    rfl
  | nth k =>
    simp only [Session.move, session, GlyphCursor.nth_eq]
    rfl
  | take k => rfl
  | rest =>
    have hend : min (s.glyph + glyphCount) glyphCount = glyphCount :=
      Nat.min_eq_right (Nat.le_add_left ..)
    simp only [Session.move, session, GlyphCursor.rest, GlyphCursor.advance, hend]
    rfl
  | left =>
    simp only [Session.move, session, GlyphCursor.left, GlyphCursor.remaining, List.length_drop,
      Font.length_glyphs]
    rfl
  | compareSaved =>
    -- the two cursors are over one font, which compares as equal to itself
    simp only [Session.move, session, GlyphCursor.compare_eq]
    rfl
  | nextRow =>
    simp only [Session.move, session, RowCursor.next_drop _ h.row]
    rfl

theorem move_machine (h : s.Inside) (move : Move) :
    (s.machine font).move move =
      .ok ((s.move font move).1, (s.move font move).2.machine font) := by
  cases move with
  | restart | save | restore | pixelsOf => rfl
  | next =>
    simp only [Machine.Session.move, machine, Machine.GlyphCursor.next_eq font h.glyph, ok_bind]
    rfl
  | nth k =>
    simp only [Machine.Session.move, machine, Machine.GlyphCursor.nth_before font k h.glyph,
      ok_bind]
    rfl
  | take k =>
    simp only [Machine.Session.move, machine, Machine.GlyphCursor.take_before font k h.glyph,
      ok_bind]
    rfl
  | rest =>
    simp only [Machine.Session.move, machine, Machine.GlyphCursor.rest_before font h.glyph, ok_bind]
    rfl
  | left =>
    simp only [Machine.Session.move, machine, Machine.GlyphCursor.rest_before font h.glyph,
      ok_bind, List.length_drop, Font.length_glyphs]
    rfl
  | compareSaved =>
    simp only [Machine.Session.move, machine,
      Machine.GlyphCursor.compare_before font h.glyph h.saved]
    rfl
  | rowsOf c =>
    simp only [Machine.Session.move, machine, Machine.glyph_eq, ok_bind]
    rfl
  | nextRow =>
    simp only [Machine.Session.move, machine, RowCursor.next_drop _ h.row]
    rfl
  | nextPixel =>
    simp only [Machine.Session.move, machine, Machine.PixelCursor.next_before _ h.column, ok_bind]
    rfl

theorem run_session (h : s.Inside) (moves : List Move) :
    ∃ h', (s.session font h).run moves =
      ((s.run font moves).1, (s.run font moves).2.session font h') := by
  induction moves generalizing s with
  | nil => exact ⟨h, rfl⟩
  | cons move moves ih =>
    obtain ⟨h', hrun⟩ := ih (h.move move)
    refine ⟨h', ?_⟩
    rw [Session.run, move_session h move]
    simp only [hrun]
    rfl

theorem run_machine (h : s.Inside) (moves : List Move) :
    (s.machine font).run moves =
      .ok ((s.run font moves).1, (s.run font moves).2.machine font) := by
  induction moves generalizing s with
  | nil => rfl
  | cons move moves ih =>
    rw [Machine.Session.run, move_machine h move]
    simp only [ok_bind, ih (h.move move)]
    rfl

theorem start_machine (font : Font) :
    Machine.Session.start font = .ok (start.machine font) := by
  rw [Machine.Session.start, Machine.glyph_eq]
  rfl

/-! ## What a standing shows -/

theorem run_replicate {move : Move} {view : View} (h : s.move font move = (view, s)) (n : Nat) :
    s.run font (List.replicate n move) = (List.replicate n view, s) := by
  induction n with
  | zero => rfl
  | succ n ih =>
    rw [List.replicate_succ, run, h]
    simp only [ih]
    rfl

/-- Each cursor gives the item at its place and steps on, and at the end gives nothing ever
again. -/
structure Steps (font : Font) (s : Standing) : Prop where
  next : s.glyph < glyphCount → ∃ glyph,
    s.move font .next = (.glyph (some glyph), { s with glyph := s.glyph + 1 }) ∧
      glyph.index.toNat = s.glyph ∧ glyph.bytes = (font.bytes.drop (7 * s.glyph)).take 7
  next_end : s.glyph = glyphCount → ∀ n,
    s.run font (List.replicate n .next) = (List.replicate n (.glyph none), s)
  nextRow : s.row < glyphHeight → ∃ byte,
    s.move font .nextRow = (.row (some ⟨byte⟩), { s with row := s.row + 1 }) ∧
      font.bytes[7 * s.drawn.toNat + s.row]? = some byte
  nextRow_end : s.row = glyphHeight → ∀ n,
    s.run font (List.replicate n .nextRow) = (List.replicate n (.row none), s)
  nextPixel : s.column < glyphWidth →
    s.move font .nextPixel =
      (.pixel (some (s.bits.toNat.testBit (7 - s.column))), { s with column := s.column + 1 })
  nextPixel_end : s.column = glyphWidth → ∀ n,
    s.run font (List.replicate n .nextPixel) = (List.replicate n (.pixel none), s)
  /-- From a fresh start all bytes of the font come by, each once and in its place. -/
  traversal : ∃ glyphs,
    s.run font [.restart, .rest] =
        ([.nothing, .glyphs glyphs], { s with glyph := glyphCount }) ∧
      glyphs.flatMap Glyph.bytes = font.bytes

theorem steps (font : Font) (s : Standing) : s.Steps font where
  next hlt := by
    refine ⟨font.glyph (UInt8.ofNat s.glyph), ?_, UInt8.toNat_ofNat_of_lt' hlt, ?_⟩
    · rw [move, font.getElem?_glyphs hlt, Nat.min_eq_left hlt]
    · rw [font.bytes_glyph, UInt8.toNat_ofNat_of_lt' hlt]
      rfl
  next_end hend n := by
    apply run_replicate
    obtain ⟨glyph, saved, drawn, row, bits, column⟩ := s
    obtain rfl : glyph = glyphCount := hend
    rw [move, List.getElem?_eq_none (by simp)]
    rfl
  nextRow hlt := by
    have hc := s.drawn.toNat_lt
    have hplace : glyphHeight * s.drawn.toNat + s.row < font.bytes.length := by
      rw [font.length_bytes]
      simp only [fontSize, glyphCount, glyphHeight] at hlt ⊢
      omega
    refine ⟨_, ?_, List.getElem?_eq_getElem hplace⟩
    rw [move, font.row?_glyph s.drawn hlt, List.getElem?_eq_getElem hplace, Nat.min_eq_left hlt]
    rfl
  nextRow_end hend n := by
    apply run_replicate
    obtain ⟨glyph, saved, drawn, row, bits, column⟩ := s
    obtain rfl : row = glyphHeight := hend
    rw [move, Glyph.row?_eq_none _ (Nat.lt_irrefl _)]
    rfl
  nextPixel hlt := by
    rw [move, Row.pixel?, if_pos hlt, Nat.min_eq_left hlt]
    rfl
  nextPixel_end hend n := by
    apply run_replicate
    obtain ⟨glyph, saved, drawn, row, bits, column⟩ := s
    obtain rfl : column = glyphWidth := hend
    rfl
  traversal := ⟨font.glyphs, rfl, font.flatMap_bytes_glyphs⟩

end Standing

/-- After any moves a session stands where the plain cursors say and has shown what they show, no
machine step among them has been at fault, and the cursors are inside of the font. -/
theorem Session.run_follows_standing (font : Font) (moves : List Move) :
    ∃ (views : List View) (s : Standing) (h : s.Inside),
      Standing.start.run font moves = (views, s) ∧
      (Session.start font).run moves = (views, s.session font h) ∧
      ((Machine.Session.start font).bind fun start => start.run moves) =
        .ok (views, s.machine font) ∧
      s.Steps font := by
  obtain ⟨h, hsession⟩ := Standing.run_session Standing.inside_start moves
  refine ⟨_, _, h, rfl, hsession, ?_, Standing.steps font _⟩
  rw [Standing.start_machine]
  exact Standing.run_machine Standing.inside_start moves

end GlyphStrip
