import Mathlib.Algebra.Group.Nat.Defs

/-!
# Machine words

Arithmetic on words that faults instead of wrapping round: a sum or a product that does not fit its
word, a difference below zero, and a shift by the width of the word or more.
-/

namespace GlyphStrip.Machine

/-- What a machine refuses to do. -/
inductive Fault where
  | overflow
  | shift
  | outOfRange
  /-- A loop was still given glyphs after as many steps as there are glyphs. -/
  | endless
deriving DecidableEq

section words

variable {w : Nat}

def increment (n : BitVec w) : Except Fault (BitVec w) :=
  if n.uaddOverflow 1 then .error .overflow else .ok (n + 1)

def sum (n m : BitVec w) : Except Fault (BitVec w) :=
  if n.uaddOverflow m then .error .overflow else .ok (n + m)

def difference (n m : BitVec w) : Except Fault (BitVec w) :=
  if n.usubOverflow m then .error .overflow else .ok (n - m)

def product (n m : BitVec w) : Except Fault (BitVec w) :=
  if n.umulOverflow m then .error .overflow else .ok (n * m)

def shiftRight (n amount : BitVec w) : Except Fault (BitVec w) :=
  if amount.toNat < w then .ok (n >>> amount) else .error .shift

def shiftLeft (n amount : BitVec w) : Except Fault (BitVec w) :=
  if amount.toNat < w then .ok (n <<< amount) else .error .shift

/-- The same number in a word of `v` bits, if it fits. -/
def narrow? (v : Nat) (n : BitVec w) : Option (BitVec v) :=
  if n.toNat < 2 ^ v then some (n.setWidth v) else none

end words

end GlyphStrip.Machine
