import GlyphStrip.Text.Unmarked

/-!
# Quoted text

A text is quoted between double quotes. A quote, a backslash and every character that shows no mark
of its own are escaped.
-/

namespace GlyphStrip.Quoted

/-- A character as it stands between the quotes. -/
def escape (c : Char) : List Char :=
  if c = '"' ∨ c = '\\' then ['\\', c]
  else if c = '\n' then ['\\', 'n']
  else if c = '\r' then ['\\', 'r']
  else if c = '\t' then ['\\', 't']
  else if c = '\x00' then ['\\', '0']
  else if Text.isMarked c then [c]
  else ['\\', 'u', '\x7b'] ++ Nat.toDigits 16 c.toNat ++ ['\x7d']

/-- The quoted text. -/
def quote (text : String) : String :=
  String.ofList (['"'] ++ text.toList.flatMap escape ++ ['"'])

end GlyphStrip.Quoted
