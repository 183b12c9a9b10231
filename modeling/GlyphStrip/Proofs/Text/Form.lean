import Mathlib.Data.List.Infix

/-!
# Texts with numbers in them

A form is a fixed text with gaps for numbers. What is filled in can be read back, because what
follows a gap never starts with a digit (`Form.read?_fill`). A text belongs to one of two forms only
if the front of one of them is the start of the other's (`Form.read?_fill_other`).
-/

namespace GlyphStrip.Text

/-! ## Numbers -/

/-- Reads a number, which takes all the digits in front. -/
def readNumber? (text : List Char) : Option (Nat × List Char) :=
  match text.takeWhile Char.isDigit with
  | [] => none
  | digits => some (Nat.ofDigitChars 10 digits 0, text.dropWhile Char.isDigit)

theorem readNumber?_append (n : Nat) {rest : List Char} (hrest : ∀ c ∈ rest.head?, ¬c.isDigit) :
    readNumber? (Nat.toDigits 10 n ++ rest) = some (n, rest) := by
  have hdigits : ∀ c ∈ Nat.toDigits 10 n, c.isDigit :=
    fun c hc => Nat.isDigit_of_mem_toDigits (by decide) (by decide) hc
  have htake : (Nat.toDigits 10 n ++ rest).takeWhile Char.isDigit = Nat.toDigits 10 n := by
    rw [List.takeWhile_append_of_pos hdigits]
    cases rest with
    | nil => simp
    | cons c rest => simp [hrest c rfl]
  have hdrop : (Nat.toDigits 10 n ++ rest).dropWhile Char.isDigit = rest := by
    rw [List.dropWhile_append_of_pos hdigits]
    cases rest with
    | nil => rfl
    | cons c rest => simp [hrest c rfl]
  rw [readNumber?, htake, hdrop]
  split
  · rename_i hnil
    exact absurd hnil Nat.toDigits_ne_nil
  · rw [Nat.ofDigitChars_ten_toDigits]

/-! ## Forms -/

/-- Whether a number ends in front of a text. -/
def endsNumber (mark : String) : Bool :=
  mark.toList.head?.any fun c => !c.isDigit

/-- A text with gaps: what stands in front of the first, and what follows each. -/
structure Form where
  front : String
  marks : List String
  ends_number : ∀ mark ∈ marks, endsNumber mark := by decide

/-- Numbers, each with its mark behind it. -/
def gaps : List Nat → List String → List Char
  | n :: numbers, mark :: marks => Nat.toDigits 10 n ++ (mark.toList ++ gaps numbers marks)
  | _, _ => []

/-- Reads numbers with their marks, up to the end of the text. -/
def readGaps? : List String → List Char → Option (List Nat)
  | [], text => if text = [] then some [] else none
  | mark :: marks, text =>
    (readNumber? text).bind fun (n, text) =>
      (mark.toList.isPrefixOf? text).bind fun text => (readGaps? marks text).map (n :: ·)

theorem readGaps?_gaps {marks : List String} (hmarks : ∀ mark ∈ marks, endsNumber mark)
    {numbers : List Nat} (hlength : numbers.length = marks.length) :
    readGaps? marks (gaps numbers marks) = some numbers := by
  induction marks generalizing numbers with
  | nil =>
    obtain rfl := List.length_eq_zero_iff.1 hlength
    rfl
  | cons mark marks ih =>
    obtain ⟨hmark, hmarks⟩ := List.forall_mem_cons.1 hmarks
    cases numbers with
    | nil => cases hlength
    | cons n numbers =>
      have hrest : ∀ c ∈ (mark.toList ++ gaps numbers marks).head?, ¬c.isDigit := by
        intro c hc
        rw [endsNumber] at hmark
        cases hlist : mark.toList with
        | nil => simp [hlist] at hmark
        | cons first others => simp_all
      rw [gaps, readGaps?, readNumber?_append n hrest, Option.bind_some]
      dsimp only
      rw [List.isPrefixOf?_eq_some_iff_append_eq.2 rfl, Option.bind_some,
        ih hmarks (Nat.succ.inj hlength), Option.map_some]

namespace Form

/-- The text with numbers in the gaps. -/
def fill (form : Form) (numbers : List Nat) : String :=
  String.ofList (form.front.toList ++ gaps numbers form.marks)

/-- Reads the numbers back. -/
def read? (form : Form) (text : String) : Option (List Nat) :=
  (form.front.toList.isPrefixOf? text.toList).bind (readGaps? form.marks)

/-- The form with some words in front. -/
def behind (form : Form) (words : String) : Form :=
  { form with front := words ++ form.front }

theorem fill_behind (form : Form) (words : String) (numbers : List Nat) :
    (form.behind words).fill numbers = words ++ form.fill numbers := by
  apply String.toList_inj.1
  simp only [fill, behind, String.toList_ofList, String.toList_append, List.append_assoc]

theorem fill_one {front mark : String} (h : ∀ m ∈ [mark], endsNumber m) (n : Nat) :
    (Form.mk front [mark] h).fill [n] = front ++ toString n ++ mark := by
  apply String.toList_inj.1
  simp only [fill, gaps, String.toList_ofList, String.toList_append, Nat.toString_eq_repr,
    Nat.toList_repr, List.append_assoc, List.append_nil]

theorem fill_two {front first second : String} (h : ∀ m ∈ [first, second], endsNumber m)
    (m n : Nat) : (Form.mk front [first, second] h).fill [m, n] =
      front ++ toString m ++ first ++ toString n ++ second := by
  apply String.toList_inj.1
  simp only [fill, gaps, String.toList_ofList, String.toList_append, Nat.toString_eq_repr,
    Nat.toList_repr, List.append_assoc, List.append_nil]

theorem read?_fill (form : Form) {numbers : List Nat}
    (hlength : numbers.length = form.marks.length) :
    form.read? (form.fill numbers) = some numbers := by
  rw [read?, fill, String.toList_ofList, List.isPrefixOf?_eq_some_iff_append_eq.2 rfl,
    Option.bind_some, readGaps?_gaps form.ends_number hlength]

/-- Nothing is read from the text of another form, unless one of the fronts starts with the
other. -/
theorem read?_fill_other {form other : Form}
    (h : ¬ form.front.toList <+: other.front.toList)
    (hother : ¬ other.front.toList <+: form.front.toList) (numbers : List Nat) :
    form.read? (other.fill numbers) = none := by
  have hnone : form.front.toList.isPrefixOf? (other.front.toList ++ gaps numbers other.marks) =
      none := by
    by_contra hsome
    obtain ⟨rest, hrest⟩ := Option.ne_none_iff_exists'.1 hsome
    have hfront : form.front.toList <+: other.front.toList ++ gaps numbers other.marks :=
      ⟨rest, List.isPrefixOf?_eq_some_iff_append_eq.1 hrest⟩
    rcases List.prefix_or_prefix_of_prefix hfront (List.prefix_append _ _) with hle | hle
    · exact h hle
    · exact hother hle
  rw [read?, fill, String.toList_ofList, hnone, Option.bind_none]

end Form

end GlyphStrip.Text
