/-!
# Text for a terminal

A terminal does not show all of a text: an escape character starts a sequence that controls the
terminal, and so do some other characters on their own. Parts of a text are set off by such
sequences; where there is no terminal, everything that one would not show is taken out, whoever has
put it there.
-/

namespace GlyphStrip.Terminal

/-- What the next character belongs to. -/
inductive State where
  /-- The text itself. -/
  | ground
  /-- A sequence that has just started. -/
  | escape
  /-- A sequence with characters between its start and its end. -/
  | intermediate
  /-- A control sequence, which has parameters. -/
  | control
  /-- A command, which a bell ends too. -/
  | command
  /-- A string that the terminal takes in as a whole. -/
  | string
deriving DecidableEq

/-- The characters that start a sequence or break one off. -/
def breakOff? (c : Char) : Option State :=
  if c = '\x1b' then some .escape
  else if c = '\x18' ∨ c = '\x1a' then some .ground
  else none

/-- The state behind the character that follows an escape character. -/
def escaped (c : Char) : State :=
  if c = '[' then .control
  else if c = ']' then .command
  else if c = 'P' ∨ c = 'X' ∨ c = '^' ∨ c = '_' then .string
  else if c.toNat < 0x30 then .intermediate
  else .ground

/-- The state behind a character that neither starts nor breaks off a sequence. What is no character
of a sequence is passed over there. -/
def advance (state : State) (c : Char) : State :=
  match state with
  | .ground => .ground
  | .command => if c = '\x07' then .ground else .command
  | .string => .string
  | state =>
    if 0x20 ≤ c.toNat ∧ c.toNat < 0x7f then
      match state with
      | .escape => escaped c
      | .intermediate => if c.toNat < 0x30 then .intermediate else .ground
      | _ => if c.toNat < 0x40 then .control else .ground
    else state

/-- The control characters that space a text. They show also inside a sequence that is no string,
and end it. -/
def isSpacing (c : Char) : Bool :=
  c == '\t' || c == '\n' || c == '\x0c' || c == '\x0d'

/-- Whether a character shows in a state. -/
def isShown (state : State) (c : Char) : Bool :=
  match state with
  | .ground => isSpacing c || (0x20 ≤ c.toNat && c != '\x7f')
  | .command | .string => false
  | _ => isSpacing c

/-- The characters that show, from a state on. -/
def shownFrom : State → List Char → List Char
  | _, [] => []
  | state, c :: rest =>
    if isShown state c then c :: shownFrom .ground rest
    else shownFrom ((breakOff? c).getD (advance state c)) rest

/-- The part of a text that a terminal shows. -/
def shown (text : String) : String :=
  String.ofList (shownFrom .ground text.toList)

/-- A text set off from what is around it. -/
def setOff (text : String) : String :=
  "\x1b[1m" ++ text ++ "\x1b[0m"

end GlyphStrip.Terminal
