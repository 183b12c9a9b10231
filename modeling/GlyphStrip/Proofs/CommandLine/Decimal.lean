import GlyphStrip.CommandLine.GlyphIndex
import GlyphStrip.Proofs.Results

/-!
# Glyph indices in decimal digits

A text of decimal digits is read as its value, which is checked against the limit digit by digit
(`readDigits_of_le`). So the decimal spellings of 0 to 255 name the glyphs, with any number of zeros
in front (`readIndex_of_digits`). With a sign or without, no other text names one
(`readIndex_eq_ok_iff`).
-/

namespace GlyphStrip.CommandLine

theorem digit?_of_isDigit {c : Char} (h : c.isDigit) : digit? c = some (c.toNat - '0'.toNat) := by
  rw [Char.isDigit, Bool.and_eq_true, decide_eq_true_iff, decide_eq_true_iff] at h
  rw [digit?, if_pos]
  exact h

theorem le_ofDigitChars (digits : List Char) (value : Nat) :
    value ≤ Nat.ofDigitChars 10 digits value := by
  induction digits generalizing value with
  | nil => exact Nat.le_refl value
  | cons c rest ih =>
    rw [Nat.ofDigitChars_cons]
    have hrest := ih (10 * value + (c.toNat - '0'.toNat))
    omega

theorem readDigits_of_le {limit : Nat} (beyond : IndexFault) {digits : List Char}
    (hdigits : ∀ c ∈ digits, c.isDigit) {value : Nat}
    (hle : Nat.ofDigitChars 10 digits value ≤ limit) :
    readDigits limit beyond value digits = .ok (Nat.ofDigitChars 10 digits value) := by
  induction digits generalizing value with
  | nil => rfl
  | cons c rest ih =>
    obtain ⟨hc, hrest⟩ := List.forall_mem_cons.1 hdigits
    rw [Nat.ofDigitChars_cons] at hle ⊢
    have hnow := le_ofDigitChars rest (10 * value + (c.toNat - '0'.toNat))
    rw [readDigits, digit?_of_isDigit hc]
    dsimp only
    rw [if_pos (Nat.le_trans hnow hle)]
    exact ih hrest hle

theorem readInteger_of_digits {digits : List Char} (hne : digits ≠ [])
    (hdigits : ∀ c ∈ digits, c.isDigit) (hle : Nat.ofDigitChars 10 digits 0 ≤ Nat.pow 2 63 - 1) :
    readInteger digits = .ok (Nat.ofDigitChars 10 digits 0 : Nat) := by
  have hminus : ∀ rest, digits ≠ '-' :: rest := by
    rintro rest rfl
    exact absurd (hdigits '-' List.mem_cons_self) (by decide)
  have hplus : ∀ rest, digits ≠ '+' :: rest := by
    rintro rest rfl
    exact absurd (hdigits '+' List.mem_cons_self) (by decide)
  have hread := readDigits_of_le .tooLarge hdigits hle
  cases digits with
  | nil => exact absurd rfl hne
  | cons c rest =>
    rw [readInteger]
    · rw [readMagnitude, hread]
      · rfl
      · exact List.cons_ne_nil c rest
    · exact hne
    · exact hminus
    · exact hplus

theorem readIndex_of_digits {text : String} (hne : text ≠ "")
    (hdigits : ∀ c ∈ text.toList, c.isDigit) (hle : Nat.ofDigitChars 10 text.toList 0 ≤ 255) :
    readIndex text = .ok (UInt8.ofNat (Nat.ofDigitChars 10 text.toList 0)) := by
  have hread := readInteger_of_digits (mt String.toList_eq_nil_iff.1 hne) hdigits
    (Nat.le_trans hle (by decide))
  rw [readIndex, hread]
  dsimp only
  rw [if_pos (by omega), Int.toNat_natCast]

example : readIndex "065" = .ok 65 := rfl

/-! ## Accepted texts -/

/-- A text spells a whole number: decimal digits, perhaps behind a sign. -/
inductive Spells : List Char → Int → Prop where
  | unsigned {digits : List Char} (hne : digits ≠ []) (hdigits : ∀ c ∈ digits, c.isDigit) :
    Spells digits (Nat.ofDigitChars 10 digits 0 : Nat)
  | plus {digits : List Char} (hne : digits ≠ []) (hdigits : ∀ c ∈ digits, c.isDigit) :
    Spells ('+' :: digits) (Nat.ofDigitChars 10 digits 0 : Nat)
  | minus {digits : List Char} (hne : digits ≠ []) (hdigits : ∀ c ∈ digits, c.isDigit) :
    Spells ('-' :: digits) (-(Nat.ofDigitChars 10 digits 0 : Nat))

theorem isDigit_of_digit? {c : Char} {d : Nat} (h : digit? c = some d) :
    c.isDigit ∧ d = c.toNat - '0'.toNat := by
  unfold digit? at h
  split at h
  · rename_i hrange
    rw [Char.isDigit, Bool.and_eq_true, decide_eq_true_iff, decide_eq_true_iff]
    exact ⟨hrange, (Option.some.inj h).symm⟩
  · cases h

theorem readDigits_eq_ok {limit value n : Nat} {beyond : IndexFault} {text : List Char}
    (h : readDigits limit beyond value text = .ok n) :
    (∀ c ∈ text, c.isDigit) ∧ n = Nat.ofDigitChars 10 text value ∧ (value ≤ limit → n ≤ limit) := by
  induction text generalizing value with
  | nil =>
    obtain rfl := Except.ok.inj h
    exact ⟨fun c hc => absurd hc List.not_mem_nil, rfl, id⟩
  | cons c rest ih =>
    unfold readDigits at h
    split at h
    · cases h
    · rename_i d hd
      obtain ⟨hc, rfl⟩ := isDigit_of_digit? hd
      split at h
      · rename_i hle
        obtain ⟨hrest, hn, hlimit⟩ := ih h
        rw [Nat.ofDigitChars_cons]
        exact ⟨List.forall_mem_cons.2 ⟨hc, hrest⟩, hn, fun _ => hlimit hle⟩
      · cases h

theorem readMagnitude_eq_ok_iff {limit n : Nat} {beyond : IndexFault} {text : List Char} :
    readMagnitude limit beyond text = .ok n ↔ text ≠ [] ∧ (∀ c ∈ text, c.isDigit) ∧
      Nat.ofDigitChars 10 text 0 = n ∧ n ≤ limit := by
  cases text with
  | nil => simp [readMagnitude]
  | cons c rest =>
    rw [readMagnitude]
    · constructor
      · intro h
        obtain ⟨hdigits, hn, hlimit⟩ := readDigits_eq_ok h
        exact ⟨List.cons_ne_nil c rest, hdigits, hn.symm, hlimit (Nat.zero_le limit)⟩
      · rintro ⟨_, hdigits, rfl, hle⟩
        exact readDigits_of_le beyond hdigits hle
    · exact List.cons_ne_nil c rest

/-- The sign is put in front of the number behind it. -/
theorem signed_eq_ok_iff {ε : Type} {magnitude : Except ε Nat} {sign : Int → Int} {value : Int} :
    (magnitude >>= fun n => pure (n : Int)).map sign = .ok value ↔
      ∃ n : Nat, magnitude = .ok n ∧ sign n = value := by
  constructor
  · intro h
    cases magnitude with
    | error fault => cases h
    | ok n => exact ⟨n, rfl, Except.ok.inj h⟩
  · rintro ⟨n, rfl, rfl⟩
    rfl

theorem readInteger_eq_ok_iff {text : List Char} {value : Int} :
    readInteger text = .ok value ↔ Spells text value ∧
      -9223372036854775808 ≤ value ∧ value ≤ 9223372036854775807 := by
  have hbound : Nat.pow 2 63 = 9223372036854775808 := rfl
  constructor
  · intro h
    unfold readInteger at h
    split at h
    · cases h
    all_goals
      obtain ⟨n, hread, rfl⟩ := signed_eq_ok_iff.1 h
      obtain ⟨hne, hdigits, rfl, hle⟩ := readMagnitude_eq_ok_iff.1 hread
      rw [hbound] at hle
    · exact ⟨.minus hne hdigits, by omega, by omega⟩
    · exact ⟨.plus hne hdigits, by omega, by omega⟩
    · exact ⟨.unsigned hne hdigits, by omega, by omega⟩
  · rintro ⟨hspells, hlow, hhigh⟩
    cases hspells with
    | unsigned hne hdigits => exact readInteger_of_digits hne hdigits (by omega)
    | plus hne hdigits =>
      exact signed_eq_ok_iff.2
        ⟨_, readMagnitude_eq_ok_iff.2 ⟨hne, hdigits, rfl, by omega⟩, rfl⟩
    | minus hne hdigits =>
      exact signed_eq_ok_iff.2
        ⟨_, readMagnitude_eq_ok_iff.2 ⟨hne, hdigits, rfl, by omega⟩, rfl⟩

/-- A text names a glyph if and only if it spells a number from 0 to 255, and then the glyph of this
number. -/
theorem readIndex_eq_ok_iff {text : String} {c : UInt8} :
    readIndex text = .ok c ↔ ∃ value, Spells text.toList value ∧ 0 ≤ value ∧ value ≤ 255 ∧
      UInt8.ofNat value.toNat = c := by
  unfold readIndex
  constructor
  · intro h
    split at h
    · cases h
    · rename_i value hvalue
      split at h
      · rename_i hrange
        exact ⟨value, (readInteger_eq_ok_iff.1 hvalue).1, hrange.1, hrange.2, Except.ok.inj h⟩
      · cases h
  · rintro ⟨value, hspells, hlow, hhigh, rfl⟩
    rw [readInteger_eq_ok_iff.2 ⟨hspells, by omega, by omega⟩]
    dsimp only
    rw [if_pos ⟨hlow, hhigh⟩]

end GlyphStrip.CommandLine
