import BracketScript.Form

/-!
# Forms on lists and strings
-/

namespace BracketScript.Form

/-- Fail unless the value of an operand is a list. -/
def expectList (call : Call) (operand value : Cell) : Eval Unit :=
  if value.value.isList then pure ()
  else call.failAt operand (.listExpected call.name value.value.kind)

def indexOf (call : Call) (operand value : Cell) : Eval Nat :=
  match value.value.integer? with
  | none => call.failAt operand (.indexNotInteger call.name)
  | some index =>
    if 0 ≤ index then pure index.toInt.toNat
    else call.failAt operand (.indexNegative call.name index.toInt)

def list : Form := fun ev call scope => do
  let values ← ev.evalAll scope call.operands
  let items ← .copyAll values
  .newList items

/-- Add values at the end of a list. All of them are checked before any is added, and other tasks
may go on in between. -/
def push : Form := fun ev call scope => do
  match call.operands with
  | operand :: first :: others =>
    let target ← ev.eval operand scope
    expectList call operand target
    let values ← ev.evalAll scope (first :: others)
    call.rejectCycles target values
    .lookThrough values
    let added ← .copyAll values
    .modify fun s => s.modifyRow target.id fun row => row ++ added
    .newBool true
  | _ => call.failArity (.atLeast 2)

def onlyList (ev : Evaluator) (call : Call) (scope : ScopeId) : Eval Cell := do
  match call.operands with
  | [operand] =>
    let target ← ev.eval operand scope
    expectList call operand target
    return target
  | _ => call.failArity (.exactly 1)

def pop : Form := fun ev call scope => do
  let target ← onlyList ev call scope
  .modify fun s => s.modifyRow target.id Array.pop
  .newBool true

def clear : Form := fun ev call scope => do
  let target ← onlyList ev call scope
  .modify fun s => s.modifyRow target.id fun _ => #[]
  .newBool true

def itemOrNil : Option Cell → Eval Cell
  | some item => pure item
  | none => .newNil

def front : Form := fun ev call scope => do
  let target ← onlyList ev call scope
  itemOrNil (← .read fun s => (s.row target.id)[0]?)

def back : Form := fun ev call scope => do
  let target ← onlyList ev call scope
  itemOrNil (← .read fun s => (s.row target.id).back?)

def elementAt : Form := fun ev call scope => do
  match call.operands with
  | [position, operand] =>
    let value ← ev.eval position scope
    let index ← indexOf call position value
    let target ← ev.eval operand scope
    expectList call operand target
    itemOrNil (← .read fun s => (s.row target.id)[index]?)
  | _ => call.failArity (.exactly 2)

/-- Replace the item of a list at an index. Other tasks may go on after the new item was checked. -/
def setAt : Form := fun ev call scope => do
  match call.operands with
  | [position, operand, expression] =>
    let number ← ev.eval position scope
    let index ← indexOf call position number
    let target ← ev.eval operand scope
    expectList call operand target
    let value ← ev.eval expression scope
    call.rejectCycle target value
    .lookThrough [value]
    let length ← .read fun s => (s.row target.id).size
    if index < length then
      let item ← .copy value
      .modify fun s => s.modifyRow target.id fun row => row.setIfInBounds index item
      .newBool true
    else call.fail (.indexOutOfRange index length)
  | _ => call.failArity (.exactly 3)

def length : Form := fun ev call scope => do
  match call.operands with
  | [operand] =>
    let target ← ev.eval operand scope
    match target.value with
    | .list =>
      let length ← .read fun s => (s.row target.id).size
      .newCell (.integer (.ofNat length))
    | .string text => .newCell (.integer (.ofNat text.length))
    | _ => call.failAt operand (.sequenceExpected call.name target.value.kind)
  | _ => call.failArity (.exactly 1)

def reverse : Form := fun ev call scope => do
  match call.operands with
  | [operand] =>
    let target ← ev.eval operand scope
    match target.value with
    | .list =>
      let items ← .read fun s => s.items target.id
      .newList items.reverse
    | .string text => .newCell (.string (String.ofList text.toList.reverse))
    | _ => call.failAt operand (.sequenceExpected call.name target.value.kind)
  | _ => call.failArity (.exactly 1)

end BracketScript.Form
