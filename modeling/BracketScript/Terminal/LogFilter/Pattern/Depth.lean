/-!
# The depth of a pattern

A pattern is made of parts in parts. Each group, repetition and class is a level of its own, and so
is each row of parts, of alternatives or of members that has more than one.
-/

namespace BracketScript.Pattern

def depthLimit : Nat := 250

structure Row where
  count : Nat
  deepest : Nat
  deriving DecidableEq, Repr

namespace Row

def none : Row := ⟨0, 0⟩

def add (row : Row) (depth : Nat) : Row := ⟨row.count + 1, max row.deepest depth⟩

/-- The depth of a row. A part that stands alone needs no row. -/
def depth (row : Row) : Nat :=
  if row.count ≤ 1 then row.deepest else row.deepest + 1

end Row

structure Part where
  depth : Nat
  /-- It can be repeated. -/
  isRepeatable : Bool
  deriving DecidableEq, Repr

structure Sequence where
  before : Row
  last : Option Part
  deriving DecidableEq, Repr

namespace Sequence

def none : Sequence := ⟨.none, .none⟩

def row (sequence : Sequence) : Row :=
  match sequence.last with
  | some part => sequence.before.add part.depth
  | .none => sequence.before

def add (sequence : Sequence) (part : Part) : Sequence := ⟨sequence.row, some part⟩

def repeated? (sequence : Sequence) : Option Sequence :=
  match sequence.last with
  | some part =>
    if part.isRepeatable then some { sequence with last := some ⟨part.depth + 1, true⟩ } else .none
  | .none => .none

end Sequence

end BracketScript.Pattern
