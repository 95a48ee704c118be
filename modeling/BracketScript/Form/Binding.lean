import BracketScript.Form

/-!
# Forms that bind names
-/

namespace BracketScript.Form

/-- Bind a name in the scope at hand, to a new empty list if no value is given. -/
def define : Form := fun ev call scope => do
  match call.operands with
  | [target] =>
    let name ← call.bindingName target
    let value ← .newList []
    bind name value scope
  | [target, expression] =>
    let name ← call.bindingName target
    let value ← ev.eval expression scope
    bind name value scope
  | _ => call.failArity (.between 1 2)
where
  /-- Bind a copy of the value and return it. -/
  bind (name : String) (value : Cell) (scope : ScopeId) : Eval Cell := do
    let bound ← .copy value
    .define scope name bound
    return bound

/-- The name that a cell of the call gives to a binding that exists. -/
def assignedName (call : Call) (c : Cell) : Eval String :=
  match c.value with
  | .symbol name => pure name
  | .keyword k => call.failAt c (.keywordAssigned k)
  | _ => call.failAt c (.nameExpected "set")

def assign : Form := fun ev call scope => do
  match call.operands with
  | [target, expression] =>
    let name ← assignedName call target
    let value ← ev.eval expression scope
    let bound ← .copy value
    .assign scope name bound target.location
    return bound
  | _ => call.failArity (.exactly 2)

def parameterNames (call : Call) : List Cell → Eval (List String)
  | [] => pure []
  | c :: cs =>
    match c.value with
    | .symbol name =>
      if Name.isDotted name then call.failAt c .parameterNotPlain
      else do
        let names ← parameterNames call cs
        return name :: names
    | _ => call.failAt c .parameterNotPlain

def lambda : Form := fun _ call scope => do
  match call.operands with
  | [parameters, body] =>
    if parameters.value.isList then
      let cells ← .read fun s => s.items parameters.id
      let names ← parameterNames call cells
      .newCell (.lambda names body scope)
    else call.failAt parameters .parametersNotList
  | _ => call.failArity (.exactly 2)

def box : Form := fun ev call scope => do
  match call.operands with
  | [target, body] =>
    let name ← call.bindingName target
    let members ← .childScope scope
    let _ ← ev.eval body members
    let cell ← .newCell (.box members)
    .define scope name cell
    .newBool true
  | _ => call.failArity (.exactly 2)

end BracketScript.Form
