import BracketScript.Form
import BracketScript.Number

/-!
# Forms on numbers
-/

namespace BracketScript.Form

def numbers (call : Call) : (operands values : List Cell) → Eval (List Number)
  | operand :: operands, value :: values =>
    match Number.ofValue? value.value with
    | some n => do
      let ns ← numbers call operands values
      return n :: ns
    | none => call.failAt operand (.numberExpected call.name value.value.kind)
  | _, _ => pure []

def integers (call : Call) : (operands values : List Cell) → Eval (List Int64)
  | operand :: operands, value :: values =>
    match value.value.integer? with
    | some n => do
      let ns ← integers call operands values
      return n :: ns
    | none => call.failAt operand (.integerExpected call.name)
  | _, _ => pure []

/-- Evaluate at least two operands to numbers: the first and the others. -/
def numberOperands (ev : Evaluator) (call : Call) (scope : ScopeId) :
    Eval (Number × List Number) := do
  match call.operands with
  | _ :: _ :: _ =>
    let values ← ev.evalAll scope call.operands
    match ← numbers call call.operands values with
    | n :: ns => return (n, ns)
    | [] => call.failArity (.atLeast 2)
  | _ => call.failArity (.atLeast 2)

def arithmetic (op : ArithmeticOp) : Form := fun ev call scope => do
  let (n, ns) ← numberOperands ev call scope
  .newCell (op.apply n ns)

def comparison (op : ComparisonOp) : Form := fun ev call scope => do
  let (n, ns) ← numberOperands ev call scope
  .newBool (op.holdsAlong (n :: ns))

/-- Combine the truth of numbers from left to right; those above zero are true. -/
def logic (op : LogicOp) : Form := fun ev call scope => do
  let (n, ns) ← numberOperands ev call scope
  .newBool (ns.foldl (fun acc n => op.apply acc n.isPositive) n.isPositive)

def negation : Form := fun ev call scope => do
  match call.operands with
  | [operand] =>
    let value ← ev.eval operand scope
    .newBool !(← .read fun s => s.isTruthy value)
  | _ => call.failArity (.exactly 1)

def bitwise (op : BitOp) : Form := fun ev call scope => do
  match call.operands with
  | _ :: _ :: _ =>
    let values ← ev.evalAll scope call.operands
    match ← integers call call.operands values with
    | n :: ns => .newCell (.integer (ns.foldl op.apply n))
    | [] => call.failArity (.atLeast 2)
  | _ => call.failArity (.atLeast 2)

def shift (op : ShiftOp) : Form := fun ev call scope => do
  match call.operands with
  | [_, _] =>
    let values ← ev.evalAll scope call.operands
    match ← integers call call.operands values with
    | [value, by'] =>
      match ShiftOp.amount? by' with
      | some amount => .newCell (.integer (op.apply value amount))
      | none => call.fail (.shiftOutOfRange call.name by'.toInt)
    | _ => call.failArity (.exactly 2)
  | _ => call.failArity (.exactly 2)

def bitNot : Form := fun ev call scope => do
  match call.operands with
  | [operand] =>
    let value ← ev.eval operand scope
    match value.value.integer? with
    | some n => .newCell (.integer (~~~n))
    | none => call.failAt operand (.integerExpected call.name)
  | _ => call.failArity (.exactly 1)

end BracketScript.Form
