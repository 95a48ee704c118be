import BracketScript.Run

/-!
# Calls

A procedure is called with the cells of its operands, not with their values. `Call` also keeps the
list that makes the call, since that is where a fault of the call is reported unless the cell at
fault has a place of its own.
-/

namespace BracketScript

structure Call where
  /-- The name that the procedure goes by. -/
  name : String
  /-- The list that makes the call. -/
  site : Cell
  operands : List Cell

namespace Call

variable {α : Type}

def fail (call : Call) (cause : Fault.Cause) : Eval α :=
  .fail (.failure cause call.site.location)

/-- The place of a cell, or that of the call if the cell has none. -/
def placeOf (call : Call) (c : Cell) : Option Location :=
  c.location <|> call.site.location

def failAt (call : Call) (c : Cell) (cause : Fault.Cause) : Eval α :=
  .fail (.failure cause (call.placeOf c))

def failArity (call : Call) (expected : Arity) : Eval α :=
  call.fail (.arity call.name expected call.operands.length)

def operand (call : Call) (position : Nat) : Eval Cell :=
  match call.operands[position]? with
  | some c => pure c
  | none => call.fail (.missingOperand call.name (position + 1))

/-- The plain name that a cell of the call gives to a new binding. -/
def bindingName (call : Call) (c : Cell) : Eval String :=
  match c.value with
  | .symbol name =>
    if Name.isDotted name then call.failAt c (.dottedName call.name name) else pure name
  | .keyword k => call.failAt c (.keywordDefined k)
  | _ => call.failAt c (.nameExpected call.name)

end Call

end BracketScript
