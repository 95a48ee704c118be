import BracketScript.Host

/-!
# The package `math`

Procedures on integers, as a host can provide them.
-/

namespace BracketScript.Package

def square : Native where
  name := "square"
  run eval call scope := do
    match call.operands with
    | [operand] =>
      let value ← .settle (eval operand scope)
      match value.value.integer? with
      | some n => .newCell (.integer (n * n))
      | none => call.fail (.reported "square expects an integer")
    | _ => call.failArity (.exactly 1)

/-- Half of an integer, rounded down. A second operand is not looked at. -/
def halve : Native where
  name := "halve"
  run eval call scope := do
    match call.operands with
    | [operand] | [operand, _] =>
      let value ← .settle (eval operand scope)
      match value.value.integer? with
      | some n => .newCell (.integer (n >>> 1))
      | none => call.failAt operand (.reported "halve expects an integer")
    | _ => call.failArity (.between 1 2)

def math : Package :=
  ⟨"math", [("square", square), ("half", halve)]⟩

end BracketScript.Package
