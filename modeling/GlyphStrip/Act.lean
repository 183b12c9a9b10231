import GlyphStrip.Log.Event
import GlyphStrip.Publish

/-!
# Acts

What a run does to the world outside is a list of acts. What it tells, prints and leaves on the disk
is read off that list.
-/

namespace GlyphStrip

/-- One thing that a run does to the world outside. -/
inductive Act where
  /-- Emits an event, which is shown if the level admits it. -/
  | tell (event : Event)
  | perform (operation : FileOperation)
  /-- Writes to standard output. -/
  | print (text : String)
  /-- Writes a message to standard error. -/
  | report (message : String)
deriving DecidableEq

namespace Act

@[simp]
def event? : Act → Option Event
  | tell event => some event
  | _ => none

@[simp]
def operation? : Act → Option FileOperation
  | perform operation => some operation
  | _ => none

@[simp]
def text? : Act → Option String
  | print text => some text
  | _ => none

@[simp]
def message? : Act → Option String
  | report message => some message
  | _ => none

end Act

end GlyphStrip
