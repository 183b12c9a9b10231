/-!
# Levels of detail

An event has a level, and a run shows the events up to a chosen level.
-/

namespace GlyphStrip

/-- How detailed an event is, the least detailed first. -/
inductive Level where
  | info
  | debug
  | trace
deriving DecidableEq

namespace Level

/-- The name at the start of an event's line. -/
def name : Level → String
  | .info => "INFO"
  | .debug => "DEBUG"
  | .trace => "TRACE"

/-- The name inside the description of a configuration. -/
def shortName : Level → String
  | .info => "Info"
  | .debug => "Debug"
  | .trace => "Trace"

/-- The place of a level in the order of detail. -/
def rank : Level → Nat
  | .info => 0
  | .debug => 1
  | .trace => 2

/-- Whether a run with this level shows events of another one. -/
def admits (chosen event : Level) : Bool :=
  event.rank ≤ chosen.rank

end Level

end GlyphStrip
