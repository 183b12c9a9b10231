import GlyphStrip.Log.Event
import Mathlib.Tactic.SplitIfs
import Std.Data.String.ToNat

/-!
# Events of one line

A path is the only part of an event that may hold a line feed, and only where it is not quoted
(`Event.isLine_text`). An event without one takes a single line of the log.
-/

namespace GlyphStrip

/-- A text without a line feed. -/
def IsLine (text : String) : Prop :=
  '\n' ∉ text.toList

theorem isLine_append {text other : String} :
    IsLine (text ++ other) ↔ IsLine text ∧ IsLine other := by
  simp only [IsLine, String.toList_append, List.mem_append, not_or]

theorem feed_notMem_toDigits {base : Nat} (hbase : 1 < base) (hle : base ≤ 16) (n : Nat) :
    '\n' ∉ Nat.toDigits base n := by
  have hdigit : ∀ d < 16, '\n' ≠ Nat.digitChar d := by decide
  induction n using Nat.strongRecOn with
  | ind n ih =>
    rw [Nat.toDigits_eq_if hbase]
    split
    · rename_i hlt
      have hsmall : n < 16 := Nat.lt_of_lt_of_le hlt hle
      simp [hdigit n hsmall]
    · have hsmaller : n / base < n := Nat.div_lt_self (by omega) hbase
      have hlast : n % base < 16 := Nat.lt_of_lt_of_le (Nat.mod_lt n (by omega)) hle
      simp only [List.mem_append, List.mem_singleton, not_or]
      exact ⟨ih _ hsmaller, hdigit _ hlast⟩

theorem isLine_toString (n : Nat) : IsLine (toString n) := by
  rw [IsLine, Nat.toString_eq_ofList_toDigits, String.toList_ofList]
  exact feed_notMem_toDigits (by decide) (by decide) n

/-- A line feed is escaped in quotes. -/
theorem isLine_quote (text : String) : IsLine (Quoted.quote text) := by
  have hescape (c : Char) : '\n' ∉ Quoted.escape c := by
    have hcode := feed_notMem_toDigits (by decide : 1 < 16) (Nat.le_refl 16) c.toNat
    unfold Quoted.escape
    split_ifs with hquote hfeed
    · rcases hquote with rfl | rfl <;> decide
    · decide
    · decide
    · decide
    · decide
    · simpa using Ne.symm hfeed
    · simp [hcode]
  simp [IsLine, Quoted.quote, hescape]

theorem isLine_intercalate {separator : String} (hseparator : IsLine separator)
    {texts : List String} (h : ∀ text ∈ texts, IsLine text) :
    IsLine (separator.intercalate texts) := by
  induction texts with
  | nil => simp [IsLine]
  | cons text rest ih =>
    obtain ⟨htext, hrest⟩ := List.forall_mem_cons.1 h
    cases rest with
    | nil => rwa [String.intercalate_singleton]
    | cons next rest =>
      rw [String.intercalate_cons_cons]
      simp only [isLine_append]
      exact ⟨⟨htext, hseparator⟩, ih hrest⟩

theorem isLine_bracketed (numbers : List UInt8) : IsLine (bracketed numbers) := by
  have hnumbers : ∀ text ∈ numbers.map (fun n => toString n.toNat), IsLine text := by
    intro text htext
    obtain ⟨n, _, rfl⟩ := List.mem_map.1 htext
    exact isLine_toString n.toNat
  have hlist : IsLine (String.intercalate ", " (numbers.map fun n => toString n.toNat)) :=
    isLine_intercalate (by simp [IsLine]) hnumbers
  simpa [bracketed, isLine_append, IsLine] using hlist

theorem isLine_describe (config : Config) : IsLine config.describe := by
  have hinput : IsLine "Config \x7b input: " := by simp [IsLine]
  have houtput : IsLine ", output: " := by simp [IsLine]
  have hpreview : IsLine ", preview: " := by simp [IsLine]
  have hlevel : IsLine ", log_level: Level(" := by simp [IsLine]
  have hend : IsLine ") \x7d" := by simp [IsLine]
  have hname : IsLine config.level.shortName := by
    cases config.level <;> simp [IsLine, Level.shortName]
  unfold Config.describe
  simp only [isLine_append]
  simp only [isLine_quote, isLine_bracketed, hinput, houtput, hpreview, hlevel, hend, hname,
    and_self]

namespace Event

/-- The paths that an event shows as they are. -/
def paths : Event → List String
  | parsedArguments _ => []
  | decodedImage path _ _ _ => [path]
  | packedGlyph _ => []
  | wroteFont input output => [input, output]

theorem isLine_message {event : Event} (h : ∀ path ∈ event.paths, IsLine path) :
    IsLine event.message := by
  cases event with
  | parsedArguments config =>
    have hstart : IsLine "parsed arguments config=" := by simp [IsLine]
    unfold message
    simp only [isLine_append]
    simp only [isLine_describe, hstart, and_self]
  | decodedImage path width height color =>
    have hstart : IsLine "decoded source image path=" := by simp [IsLine]
    have hwidth : IsLine " width=" := by simp [IsLine]
    have hheight : IsLine " height=" := by simp [IsLine]
    have hcolor : IsLine " color=" := by simp [IsLine]
    have hname : IsLine color.name := by cases color <;> simp [IsLine, ColorType.name]
    have hpath : IsLine path := h path (by simp [paths])
    unfold message
    simp only [isLine_append]
    simp only [isLine_toString, hstart, hwidth, hheight, hcolor, hname, hpath, and_self]
  | packedGlyph glyph =>
    have hstart : IsLine "packed glyph glyph=" := by simp [IsLine]
    have hrows : IsLine " rows=" := by simp [IsLine]
    unfold message
    simp only [isLine_append]
    simp only [isLine_toString, isLine_bracketed, hstart, hrows, and_self]
  | wroteFont input output =>
    have hstart : IsLine "wrote packed font input=" := by simp [IsLine]
    have hmiddle : IsLine " output=" := by simp [IsLine]
    have hinput : IsLine input := h input (by simp [paths])
    have houtput : IsLine output := h output (by simp [paths])
    unfold message
    simp only [isLine_append]
    simp only [hstart, hmiddle, hinput, houtput, and_self]

theorem isLine_text {event : Event} (h : ∀ path ∈ event.paths, IsLine path) :
    IsLine event.text := by
  have hlevel : IsLine event.level.name := by cases event <;> simp [IsLine, level, Level.name]
  have htarget : IsLine event.target := by cases event <;> simp [IsLine, target]
  have hblank : IsLine " " := by simp [IsLine]
  have hcolon : IsLine ": " := by simp [IsLine]
  unfold text
  simp only [isLine_append]
  simp only [isLine_message h, hlevel, htarget, hblank, hcolon, and_self]

theorem tail_lines {event : Event} (h : IsLine event.text) : event.lines.tail = [] := by
  rw [lines, Text.lines, Text.split_of_notMem h]
  rfl

end Event

end GlyphStrip
