import GlyphStrip.Strip.Pack

/-!
# The program's own errors

The errors that the program raises itself, in one type. An error of packing wraps another one, which
is its cause; the others have none.
-/

namespace GlyphStrip

/-- An error of the program's own. -/
inductive OwnError where
  | size (error : SizeMismatch)
  | sample (error : SampleError)
  | shape (error : ShapeError)
  | pack (error : PackError)
deriving DecidableEq

/-- The error that an error of packing wraps. -/
def PackError.wrapped : PackError → OwnError
  | .shape error => .shape error
  | .sample error => .sample error

namespace OwnError

/-- What a user is told. -/
def message : OwnError → String
  | .size error => error.message
  | .sample error => error.message
  | .shape error => error.message
  | .pack error => error.message

/-- The error underneath, if there is one. -/
def source? : OwnError → Option OwnError
  | .pack error => some error.wrapped
  | _ => none

/-- How many errors are underneath. -/
def depth : OwnError → Nat
  | .pack _ => 1
  | _ => 0

theorem depth_of_source? {error source : OwnError} (h : error.source? = some source) :
    source.depth < error.depth := by
  cases error with
  | pack error =>
    obtain rfl := Option.some.inj h
    cases error <;> exact Nat.one_pos
  | _ => cases h

/-- The messages of an error and of those underneath it, outermost first. -/
def trail (error : OwnError) : List String :=
  error.message :: match h : error.source? with
    | none => []
    | some source =>
      have := depth_of_source? h
      source.trail
termination_by error.depth

end OwnError

end GlyphStrip
