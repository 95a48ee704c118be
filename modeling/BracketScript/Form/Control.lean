import BracketScript.Form

/-!
# Forms that steer the evaluation
-/

namespace BracketScript.Form

def block : Form := fun ev call scope => do
  match ← ev.evalLast? scope call.operands with
  | some value => pure value
  | none => .newNil

/-- Evaluate one of two operands, by the truth of the first; the second of the two may be
missing. -/
def ifElse : Form := fun ev call scope => do
  match call.operands with
  | [condition, consequent] =>
    let value ← ev.eval condition scope
    if ← .read fun s => s.isTruthy value then ev.eval consequent scope else .newBool true
  | [condition, consequent, alternative] =>
    let value ← ev.eval condition scope
    if ← .read fun s => s.isTruthy value then ev.eval consequent scope
    else ev.eval alternative scope
  | _ => call.failArity (.between 2 3)

def leave {σ : Type} : Eval (Round σ Cell) := do
  let result ← .newNil
  return .finish result

/-- Go on with a loop after a part of it, which may leave the loop or the lambda around it. -/
def unlessLeft {σ : Type} (flow : Flow) (next : Eval (Round σ Cell)) : Eval (Round σ Cell) :=
  match flow with
  | .breakOut => leave
  | .yieldUp c => .stop (.yieldUp c)
  | .value _ => next

/-- A round of a loop, in a scope of its own inside the scope of the loop. It counts as work, so
that a loop can wait for other tasks. -/
def loopRound (ev : Evaluator) (condition post body : Cell) (outer : ScopeId) (_ : Unit) :
    Eval (Round Unit Cell) := do
  let scope ← .childScope outer
  let value ← ev.eval condition scope
  if ← .read fun s => s.isTruthy value then
    unlessLeft (← (ev.eval body scope).flow) do
      unlessLeft (← (ev.eval post scope).flow) do
        .work 1
        return .again ()
  else leave

/-- Evaluate the last operand as long as the condition holds. -/
def loop : Form := fun ev call scope => do
  match call.operands with
  | [pre, condition, post, body] =>
    let outer ← .childScope scope
    let _ ← ev.eval pre outer
    .loop (loopRound ev condition post body outer) ev.rounds ()
  | _ => call.failArity (.exactly 4)

/-- Put what the name of the current item is bound to back into the list. Other tasks may go on
after it was checked. -/
def writeBack (call : Call) (name : String) (source : Cell) (index : Nat) (scope : ScopeId) :
    Eval Unit := do
  match ← .read fun s => (s.scope scope).get? name with
  | some current =>
    call.rejectCycle source current
    .lookThrough [current]
    .modify fun s => s.modifyRow source.id fun row => row.setIfInBounds index current
  | none => pure ()

/-- Visit the item of a list at an index. The list is read anew for each item, since the body may
change it. It counts as work, as the body may also make the list longer for ever. -/
def visit (ev : Evaluator) (call : Call) (name : String) (source body : Cell) (scope : ScopeId)
    (index : Nat) : Eval (Round Nat Cell) := do
  match ← .read fun s => (s.row source.id)[index]? with
  | none => leave
  | some item =>
    let inner ← .childScope scope
    .define inner name item
    let flow ← (ev.eval body inner).flow
    writeBack call name source index inner
    unlessLeft flow do
      .work 1
      return .again (index + 1)

/-- Evaluate the last operand for each item of a list, which takes over what the body assigns to
the name of the item. -/
def iterate : Form := fun ev call scope => do
  match call.operands with
  | [target, expression, body] =>
    let name ← call.bindingName target
    let source ← ev.eval expression scope
    if source.value.isList then .loop (visit ev call name source body scope) ev.rounds 0
    else call.failAt expression .notIterable
  | _ => call.failArity (.exactly 3)

def breakOut : Form := fun _ call _ =>
  match call.operands with
  | [] => .stop .breakOut
  | _ => call.failArity (.exactly 0)

def yieldUp : Form := fun ev call scope => do
  match call.operands with
  | [expression] =>
    let value ← ev.eval expression scope
    .stop (.yieldUp value)
  | _ => call.failArity (.exactly 1)

/-- The name under which a handler sees the text of the fault. -/
def faultName : String := "$"

/-- Evaluate the first operand and, if it has a fault, the second. -/
def tryOr : Form := fun ev call scope => do
  match call.operands with
  | [body, handler] =>
    match ← (ev.eval body scope).attempt with
    | .ok value => pure value
    | .error fault =>
      let inner ← .childScope scope
      let text ← .newCell (.string fault.message)
      .define inner faultName text
      ev.eval handler inner
  | _ => call.failArity (.exactly 2)

def raise : Form := fun ev call scope => do
  match call.operands with
  | [expression] =>
    let value ← ev.eval expression scope
    let text ← .stringify scope value
    call.fail (.reported text)
  | _ => call.failArity (.exactly 1)

def holds? (value : Value) : Option Bool :=
  match value with
  | .string text => some !text.isEmpty
  | .integer value => some (decide (1 ≤ value))
  | .real value => some (decide (0.0 < value))
  | _ => none

def assertEach (ev : Evaluator) (call : Call) (label : String) (scope : ScopeId) :
    List Cell → Eval Unit
  | [] => pure ()
  | condition :: conditions => do
    let value ← ev.eval condition scope
    match holds? value.value with
    | some true => assertEach ev call label scope conditions
    | some false => .fail (.assertion label (call.placeOf condition))
    | none => call.failAt condition (.conditionKind value.value.kind)

def assertAll : Form := fun ev call scope => do
  match call.operands with
  | label :: condition :: conditions =>
    match label.value.string? with
    | some text =>
      assertEach ev call text scope (condition :: conditions)
      .newBool true
    | none => call.failAt label .labelNotString
  | _ => call.failArity (.atLeast 2)

def exitProcess : Form := fun ev call scope => do
  match call.operands with
  | [expression] =>
    let value ← ev.eval expression scope
    match value.value.integer? with
    | some status => .stop (.exit status)
    | none => call.fail .statusNotInteger
  | _ => call.failArity (.exactly 1)

end BracketScript.Form
