/-!
# Hanging text

Text whose further lines are set in by some blanks.
-/

namespace GlyphStrip

/-- Some blanks. -/
def blanks (n : Nat) : List Char :=
  List.replicate n ' '

/-- A text whose lines but the first are set in. -/
def hang (margin : Nat) (text : String) : String :=
  String.ofList (text.toList.flatMap fun c => if c = '\n' then c :: blanks margin else [c])

end GlyphStrip
