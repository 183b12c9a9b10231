import GlyphStrip.Font.Buffer
import GlyphStrip.Font.Dump

/-!
# Dumped fonts read back

A sink takes what it is offered in pieces, and no piece changes what it will hold in the end
(`Sink.fill_accept`). So however it cuts the bytes up, it ends up with as many of them as fit, and
all are accepted exactly if all fit (`Sink.acceptAll_eq`). A font has no header, but its size gives
away a dump that was cut short or written on.
-/

namespace GlyphStrip

namespace Sink

/-- The sink with as many of the bytes as fit. -/
def fill (sink : Sink) (bytes : List UInt8) : Sink :=
  { sink with
    room := sink.room - bytes.length
    received := sink.received ++ bytes.take sink.room }

theorem accepts_le_room (sink : Sink) (n : Nat) : sink.accepts n ≤ sink.room :=
  Nat.le_trans (Nat.min_le_left _ _) (Nat.min_le_left _ _)

theorem accepts_le (sink : Sink) (n : Nat) : sink.accepts n ≤ n :=
  Nat.le_trans (Nat.min_le_left _ _) (Nat.min_le_right _ _)

/-- A piece that is accepted is missing from the offer and from the room alike. -/
theorem fill_accept (sink : Sink) (bytes : List UInt8) :
    (sink.accept bytes).fill (bytes.drop (sink.accepts bytes.length)) = sink.fill bytes := by
  have hroom := sink.accepts_le_room bytes.length
  have hbytes := sink.accepts_le bytes.length
  simp only [fill, accept, List.length_drop]
  generalize sink.accepts bytes.length = n at hroom hbytes
  have htake : bytes.take n ++ (bytes.drop n).take (sink.room - n) = bytes.take sink.room := by
    rw [← List.take_add, Nat.add_sub_cancel' hroom]
  rw [List.append_assoc, htake]
  congr 1
  omega

/-- Offering bytes until none is accepted fills the sink. -/
theorem acceptAll_eq (sink : Sink) (bytes : List UInt8) :
    sink.acceptAll bytes = (decide (bytes.length ≤ sink.room), sink.fill bytes) := by
  fun_induction acceptAll sink bytes with
  | case1 sink => simp [fill]
  | case2 sink bytes hbytes hroom =>
    have hfull : sink.fill bytes = sink := by
      rw [fill, hroom, Nat.zero_sub, List.take_zero, List.append_nil, ← hroom]
    simp [hfull, hroom, hbytes]
  | case3 sink bytes hbytes hroom ih =>
    have hle := sink.accepts_le_room bytes.length
    have hfits : bytes.length - sink.accepts bytes.length ≤ sink.room - sink.accepts bytes.length ↔
        bytes.length ≤ sink.room := by omega
    rw [ih, fill_accept, List.length_drop]
    show (decide (_ ≤ sink.room - sink.accepts bytes.length), _) = _
    rw [decide_eq_decide.2 hfits]

end Sink

namespace Font

theorem ofBytes?_of_length {bytes : List UInt8} (h : bytes.length = fontSize) :
    ofBytes? bytes = .ok ⟨bytes, h⟩ :=
  dif_pos h

theorem ofBytes?_of_length_ne {bytes : List UInt8} (h : bytes.length ≠ fontSize) :
    ofBytes? bytes = .error ⟨bytes.length⟩ :=
  dif_neg h

theorem ofBytes?_eq_ok_iff {bytes : List UInt8} {font : Font} :
    ofBytes? bytes = .ok font ↔ font.bytes = bytes := by
  constructor
  · intro h
    by_cases hlength : bytes.length = fontSize
    · rw [ofBytes?_of_length hlength] at h
      rw [← Except.ok.inj h]
    · rw [ofBytes?_of_length_ne hlength] at h
      cases h
  · rintro rfl
    exact ofBytes?_of_length font.length_bytes

theorem ofBytes?_eq_error_iff {bytes : List UInt8} {mismatch : SizeMismatch} :
    ofBytes? bytes = .error mismatch ↔
      bytes.length ≠ fontSize ∧ mismatch.actualSize = bytes.length := by
  by_cases hlength : bytes.length = fontSize
  · simp [ofBytes?_of_length hlength, hlength]
  · rw [ofBytes?_of_length_ne hlength]
    obtain ⟨size⟩ := mismatch
    simp [hlength, eq_comm]

theorem exists_ofBytes?_iff {bytes : List UInt8} :
    (∃ font, ofBytes? bytes = .ok font) ↔ bytes.length = fontSize := by
  constructor
  · rintro ⟨font, hfont⟩
    rw [← ofBytes?_eq_ok_iff.1 hfont, font.length_bytes]
  · intro hlength
    exact ⟨_, ofBytes?_of_length hlength⟩

theorem dump_eq (font : Font) (sink : Sink) :
    font.dump sink = (decide (fontSize ≤ sink.room), sink.fill font.bytes) := by
  rw [dump, Sink.acceptAll_eq, font.length_bytes]

theorem received_dump (font : Font) (sink : Sink) :
    (font.dump sink).2.received = sink.received ++ font.bytes.take (min sink.room fontSize) := by
  have htake := List.take_eq_take_min (l := font.bytes) (i := sink.room)
  rw [font.length_bytes] at htake
  rw [← htake, dump_eq, Sink.fill]

theorem ofBytes?_take (font : Font) {n : Nat} (hn : n < fontSize) :
    ofBytes? (font.bytes.take n) = .error ⟨n⟩ := by
  have hlength : (font.bytes.take n).length = n := by
    rw [List.length_take, font.length_bytes, Nat.min_eq_left (Nat.le_of_lt hn)]
  rw [ofBytes?_of_length_ne (by rw [hlength]; exact Nat.ne_of_lt hn), hlength]

theorem ofBytes?_append (font : Font) {extra : List UInt8} (hextra : extra ≠ []) :
    ofBytes? (font.bytes ++ extra) = .error ⟨fontSize + extra.length⟩ := by
  have hpos := List.length_pos_iff.2 hextra
  have hlength : (font.bytes ++ extra).length = fontSize + extra.length := by
    rw [List.length_append, font.length_bytes]
  rw [ofBytes?_of_length_ne (by omega), hlength]

/-- What an empty sink has received is read as the font if the dump was accepted, and otherwise
refused for the size of the sink. -/
theorem ofBytes?_received_dump (font : Font) {sink : Sink} (hempty : sink.received = []) :
    ofBytes? (font.dump sink).2.received =
      if (font.dump sink).1 then .ok font else .error ⟨sink.room⟩ := by
  rw [received_dump, hempty, List.nil_append, dump_eq]
  by_cases hfits : fontSize ≤ sink.room
  · rw [Nat.min_eq_right hfits, ← font.length_bytes, List.take_length, ofBytes?_eq_ok_iff.2 rfl,
      if_pos (by simpa [font.length_bytes] using hfits)]
  · have hroom := Nat.lt_of_not_le hfits
    rw [Nat.min_eq_left (Nat.le_of_lt hroom), font.ofBytes?_take hroom,
      if_neg (by simpa using hroom)]

/-- **A font comes back from its bytes, and from nothing else.** Data is read as a font if and only
if it has 1792 bytes, and these are the font; else the error tells its size. However a sink cuts up
a dump, it receives the bytes of the font in order, as many as it has room for, and what an empty
sink has received is read as a font exactly if the whole dump was accepted, and then as that font. A
dump that was cut short or written on is refused, and a copy of a font has its bytes. -/
theorem dump_reads_back :
    (∀ bytes : List UInt8,
      ((∃ font, ofBytes? bytes = .ok font) ↔ bytes.length = 1792) ∧
      (∀ font, ofBytes? bytes = .ok font → font.bytes = bytes) ∧
      ∀ mismatch, ofBytes? bytes = .error mismatch → mismatch.actualSize = bytes.length) ∧
    (∀ (font : Font) (sink : Sink),
      ((font.dump sink).1 = true ↔ 1792 ≤ sink.room) ∧
      (font.dump sink).2.received = sink.received ++ font.bytes.take (min sink.room 1792) ∧
      (sink.received = [] →
        ((∃ other, ofBytes? (font.dump sink).2.received = .ok other) ↔
          (font.dump sink).1 = true) ∧
        ∀ other, ofBytes? (font.dump sink).2.received = .ok other → other = font)) ∧
    (∀ font : Font,
      (∀ n < 1792, ofBytes? (font.bytes.take n) = .error ⟨n⟩) ∧
      ∀ extra ≠ [], ofBytes? (font.bytes ++ extra) = .error ⟨1792 + extra.length⟩) ∧
    ∀ font : Font, (FontBuffer.ofFont font).font = font ∧
      (FontBuffer.ofFont font).toBytes = font.bytes := by
  refine ⟨fun bytes => ⟨exists_ofBytes?_iff, ?_, ?_⟩, fun font sink => ⟨?_, ?_, ?_⟩,
    fun font =>
      ⟨fun n hn => font.ofBytes?_take hn, fun extra hextra => font.ofBytes?_append hextra⟩,
    fun font => ⟨FontBuffer.font_ofFont font, FontBuffer.toBytes_ofFont font⟩⟩
  · intro font hfont
    exact ofBytes?_eq_ok_iff.1 hfont
  · intro mismatch hmismatch
    exact (ofBytes?_eq_error_iff.1 hmismatch).2
  · rw [dump_eq]
    exact decide_eq_true_iff
  · exact font.received_dump sink
  · intro hempty
    rw [font.ofBytes?_received_dump hempty]
    cases (font.dump sink).1 <;> simp [eq_comm]

/-- A font without a set pixel. -/
def blank : Font :=
  ⟨List.replicate 1792 0, List.length_replicate⟩

/-- A sink that takes up to five bytes at a time and has room for one byte less than a font. -/
def shortSink : Sink :=
  ⟨1791, fun _ => 4, []⟩

/-- One byte is missing from the dump, which is noticed, as one byte too many is. -/
theorem dump_reads_back_blank :
    (blank.dump shortSink).1 ≠ true ∧
    (blank.dump shortSink).2.received = List.replicate 1791 0 ∧
    (¬∃ other, ofBytes? (blank.dump shortSink).2.received = .ok other) ∧
    ofBytes? (List.replicate 1791 0) = .error ⟨1791⟩ ∧
    ofBytes? (blank.bytes ++ [0]) = .error ⟨1793⟩ := by
  obtain ⟨_, hdump, hsize, _⟩ := dump_reads_back
  obtain ⟨hdone, hreceived, hreads⟩ := hdump blank shortSink
  have hshort : (blank.dump shortSink).1 ≠ true := mt hdone.1 (by decide)
  have hcut : blank.bytes.take 1791 = List.replicate 1791 0 := List.take_replicate
  refine ⟨hshort, hreceived.trans hcut, mt (hreads rfl).1.1 hshort, ?_, ?_⟩
  · rw [← hcut]
    exact (hsize blank).1 1791 (by decide)
  · exact (hsize blank).2 [0] (List.cons_ne_nil _ _)

end Font

end GlyphStrip
