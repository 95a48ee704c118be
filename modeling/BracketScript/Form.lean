import BracketScript.Host
import BracketScript.Rendering

/-!
# Forms

A form is what a built-in procedure does with its operands. Forms decide themselves which operands
they evaluate, when, and in which scope, so they get the evaluator as a parameter.
-/

namespace BracketScript

structure Evaluator where
  host : Host
  /-- Evaluate a cell in a scope. -/
  eval : Cell → ScopeId → Eval Cell
  /-- The bound on the rounds of a loop. -/
  rounds : Nat

abbrev Form := Evaluator → Call → ScopeId → Eval Cell

namespace Evaluator

def evalAll (ev : Evaluator) (scope : ScopeId) : List Cell → Eval (List Cell)
  | [] => pure []
  | c :: cs => do
    let value ← ev.eval c scope
    let values ← ev.evalAll scope cs
    return value :: values

/-- Evaluate cells from left to right for the value of the last, if there is one. -/
def evalLast? (ev : Evaluator) (scope : ScopeId) : List Cell → Eval (Option Cell)
  | [] => pure none
  | [c] => some <$> ev.eval c scope
  | c :: cs => do
    let _ ← ev.eval c scope
    ev.evalLast? scope cs

/-- Evaluate a cell as a program of its own, out of which no break or yield leads. -/
def evaluate (ev : Evaluator) (c : Cell) (scope : ScopeId) : Eval Cell :=
  .settle (ev.eval c scope)

end Evaluator

namespace Eval

def childScope (parent : ScopeId) : Eval ScopeId :=
  make fun s => s.childScope parent

def define (scope : ScopeId) (name : String) (cell : Cell) : Eval Unit :=
  modify fun s => s.define scope name cell

def assign (scope : ScopeId) (name : String) (cell : Cell) (location : Option Location) :
    Eval Unit := do
  let slot ← readOr fun s => s.slot scope name location
  modify fun s => s.fill slot cell

def stringify (scope : ScopeId) (c : Cell) : Eval String := do
  let text ← readOr fun s => s.stringify scope c
  workThrough text
  return text

def stringifyAll (scope : ScopeId) : List Cell → Eval (List String)
  | [] => pure []
  | c :: cs => do
    let text ← stringify scope c
    let texts ← stringifyAll scope cs
    return text :: texts

end Eval

/-- Refuse to put a value into a list that is the value or lies inside of it. -/
def Call.rejectCycle (call : Call) (target value : Cell) : Eval Unit := do
  if ← .read fun s => s.reaches value target then call.fail (.insideItself call.name)

def Call.rejectCycles (call : Call) (target : Cell) : List Cell → Eval Unit
  | [] => pure ()
  | value :: values => do
    call.rejectCycle target value
    call.rejectCycles target values

/-- Work as much as it takes to look at each of the values and of their items. Other tasks may go on
when that is done. -/
def Eval.lookThrough (values : List Cell) : Eval Unit := do
  .work (← .read fun s => s.extent values)
  .giveWay

theorem Eval.lookThrough_bind {α : Type} (values : List Cell) (k : Eval α) (s : Store) :
    (lookThrough values >>= fun _ => k) s =
      (work (s.extent values) s).bind fun _ => giveWay >>= fun _ => k :=
  Run.bind_assoc (work (s.extent values) s) (fun _ => giveWay) fun _ => k

end BracketScript
