import BracketScript.Form
import BracketScript.Numeral
import BracketScript.Text.Blank

/-!
# Forms that make, inspect and convert values
-/

namespace BracketScript.Form

def constant (value : Value) : Form := fun _ call _ =>
  match call.operands with
  | [] => .newCell value
  | _ => call.failArity (.exactly 0)

def onlyOperand (ev : Evaluator) (call : Call) (scope : ScopeId) : Eval Cell :=
  match call.operands with
  | [operand] => ev.eval operand scope
  | _ => call.failArity (.exactly 1)

def isNil : Form := fun ev call scope => do
  let value ← onlyOperand ev call scope
  .newBool value.value.isNil

def typeOf : Form := fun ev call scope => do
  let value ← onlyOperand ev call scope
  .newCell (.string value.value.kind.name)

/-- The integer that a text stands for: an integer, or a real without its fraction. -/
def integerOfText? (text : String) : Option Int64 :=
  let word := Text.trim text.toList
  Numeral.readInteger? word <|> (Decimal.read? word).map Decimal.toInteger

def toInteger? : Value → Option Int64
  | .integer value => some value
  | .real value => some (Decimal.toInteger value)
  | .string text => integerOfText? text
  | _ => none

def toReal? : Value → Option Float
  | .integer value => some (Decimal.ofInt value.toInt)
  | .real value => some value
  | .string text => Decimal.read? (Text.trim text.toList)
  | _ => none

def asInteger : Form := fun ev call scope => do
  let value ← onlyOperand ev call scope
  match toInteger? value.value with
  | some n => .newCell (.integer n)
  | none => call.fail (.notInteger value.value.kind)

def asReal : Form := fun ev call scope => do
  let value ← onlyOperand ev call scope
  match toReal? value.value with
  | some x => .newCell (.real x)
  | none => call.fail (.notReal value.value.kind)

def asString : Form := fun ev call scope => do
  let value ← onlyOperand ev call scope
  let text ← .stringify scope value
  .newCell (.string text)

/-- Whether two values have the same printed text, or have not. -/
def textComparison (same : Bool) : Form := fun ev call scope => do
  match call.operands with
  | [first, second] =>
    let left ← .stringify scope (← ev.eval first scope)
    let right ← .stringify scope (← ev.eval second scope)
    .newBool ((left == right) == same)
  | _ => call.failArity (.exactly 2)

/-- Print the texts of the values of the operands, followed by `ending`. -/
def output (ending : String) : Form := fun ev call scope => do
  let values ← ev.evalAll scope call.operands
  let texts ← .stringifyAll scope values
  .modify fun s => s.write (String.join texts ++ ending)
  .newBool true

end BracketScript.Form
