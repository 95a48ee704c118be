import BracketScript.Host
import BracketScript.Rendering

/-!
# The package `host`

Procedures that show a program its own code: operands as they are written, and their evaluation.
What they return is the code itself, so a program can change it.
-/

namespace BracketScript.Package

def member (name : String) (run : (Cell → ScopeId → Eval Cell) → Call → ScopeId → Eval Cell) :
    String × Native :=
  (name, ⟨name, run⟩)

def quotedAll : List Cell → Eval (List Cell)
  | [] => pure []
  | c :: cs => do
    let text ← .read fun s => s.quote c
    let cell ← .newCell (.string text)
    let cells ← quotedAll cs
    return cell :: cells

def reflection : Package where
  name := "host"
  procedures :=
    [member "raw" fun _ call _ => call.operand 0,
     member "third" fun _ call _ => call.operand 2,
     member "eval" fun eval call scope => do
       let operand ← call.operand 0
       let value ← .settle (eval operand scope)
       .work 1
       eval value scope,
     member "count" fun _ call _ =>
       match call.operands with
       | [] => call.failArity (.atLeast 1)
       | operands => .newCell (.integer (.ofNat operands.length)),
     member "name" fun _ call _ => do
       let name ← call.bindingName (← call.operand 0)
       .newCell (.string name),
     member "quoted" fun _ call _ => do
       let items ← quotedAll call.operands
       .newList items,
     member "site" fun _ call _ => do
       let text ← .read fun s => s.quote call.site
       .newCell (.string text),
     member "stop" fun _ _ _ => .stop .breakOut]

end BracketScript.Package
