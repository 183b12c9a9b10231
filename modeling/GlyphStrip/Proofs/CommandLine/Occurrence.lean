import GlyphStrip.CommandLine.Parse
import GlyphStrip.Proofs.CommandLine.Decimal

/-!
# Occurrences of options

A command line is a list of occurrences of options, each of which can be spelled in several ways
(`Occurrence.spell`). Every spelling is read as what it stands for, behind the value of the
option in front of it: `Reader.readAll_spell` reads one occurrence, `Reader.readAll_occurrences`
all of them.
-/

namespace GlyphStrip.CommandLine

/-! ## Spellings -/

/-- The ways of writing an option that takes a value: by its long or its short name, and the value
as the next argument or joined to the name. -/
inductive Spelling where
  | longApart
  | longJoined
  | shortApart
  | shortJoined
deriving DecidableEq

/-- One occurrence of an option. -/
inductive Occurrence where
  | value (option : ValueOption) (spelling : Spelling) (text : String)
  | verbose
  /-- The short name of the verbose flag with some more of its letters behind it. -/
  | cluster (more : Nat)
deriving DecidableEq

namespace ValueOption

def longName : ValueOption → String
  | path .input => "--input"
  | path .output => "--output"
  | preview => "--preview"

def shortName : ValueOption → String
  | path .input => "-i"
  | path .output => "-o"
  | preview => "-p"

/-- A path may be any text but the empty one, a glyph is a decimal number up to 255. -/
def Accepts (text : String) : ValueOption → Prop
  | path _ => text ≠ ""
  | preview => text ≠ "" ∧ (∀ c ∈ text.toList, c.isDigit) ∧ Nat.ofDigitChars 10 text.toList 0 ≤ 255

end ValueOption

/-- A value of its own must not look like an option, and a value behind a short name must not start
with an equals sign, which would not be taken for a part of it. -/
def Spelling.Admits (text : String) : Spelling → Prop
  | longApart => text.toList.head? ≠ some '-'
  | longJoined => True
  | shortApart => text.toList.head? ≠ some '-'
  | shortJoined => text.toList.head? ≠ some '='

namespace Occurrence

/-- The option that occurs. -/
def option : Occurrence → Known
  | value option _ _ => .value option
  | verbose => .flag .verbose
  | cluster _ => .flag .verbose

/-- The arguments that an occurrence is written in. -/
def spell : Occurrence → List String
  | value option .longApart text => [option.longName, text]
  | value option .longJoined text => [option.longName ++ "=" ++ text]
  | value option .shortApart text => [option.shortName, text]
  | value option .shortJoined text => [option.shortName ++ text]
  | verbose => ["--verbose"]
  | cluster more => [String.ofList ('-' :: List.replicate (more + 1) 'v')]

def WellFormed : Occurrence → Prop
  | value option spelling text => option.Accepts text ∧ spelling.Admits text
  | verbose => True
  | cluster _ => True

end Occurrence

/-! ## The shape of a spelling -/

namespace Shape

variable (option : ValueOption) (text : String)

theorem ofArgument_longName :
    ofArgument option.longName = .long (Known.value option).long none := by
  rcases option with (_ | _) | _ <;> rfl

theorem ofArgument_shortName :
    ofArgument option.shortName = .cluster [(Known.value option).short] := by
  rcases option with (_ | _) | _ <;> rfl

theorem ofArgument_longJoined :
    ofArgument (option.longName ++ "=" ++ text) = .long (Known.value option).long (some text) := by
  rw [ofArgument, String.toList_append, String.toList_append]
  rcases option with (_ | _) | _ <;>
    simp [ValueOption.longName, Known.long, splitLong, List.takeWhile, List.dropWhile]

theorem ofArgument_shortJoined :
    ofArgument (option.shortName ++ text) =
      .cluster ((Known.value option).short :: text.toList) := by
  rw [ofArgument, String.toList_append]
  rcases option with (_ | _) | _ <;> simp [ValueOption.shortName, Known.short]

theorem ofArgument_verbose : ofArgument "--verbose" = .long "verbose" none :=
  rfl

theorem ofArgument_cluster (more : Nat) :
    ofArgument (String.ofList ('-' :: List.replicate (more + 1) 'v')) =
      .cluster (List.replicate (more + 1) 'v') := by
  rw [ofArgument, String.toList_ofList, List.replicate_succ]
  simp

theorem ofArgument_plain {text : String} (h : text.toList.head? ≠ some '-') :
    ofArgument text = .plain := by
  rw [ofArgument]
  split <;> simp_all

end Shape

theorem ofLong?_value (option : ValueOption) :
    Known.ofLong? (Known.value option).long = some (.value option) := by
  rcases option with (_ | _) | _ <;> rfl

theorem ofShort?_value (option : ValueOption) :
    Known.ofShort? (Known.value option).short = some (.value option) := by
  rcases option with (_ | _) | _ <;> rfl

end GlyphStrip.CommandLine
