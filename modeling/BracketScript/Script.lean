import BracketScript.Evaluator

/-!
# Scripts

A script is evaluated line by line: each expression runs as soon as its brackets close, so the
expressions in front of a fault in the text have been evaluated when the fault is found.
-/

namespace BracketScript

namespace Script

def runEach (ev : Evaluator) (scope : ScopeId) : List Tree → Eval Unit
  | [] => pure ()
  | tree :: trees => do
    let _ ← ev.runTree scope tree
    runEach ev scope trees

/-- Evaluate the remaining lines of a script, the first of which has the given number. -/
def executeLines (ev : Evaluator) (scope : ScopeId) (reader : Reader) (number : Nat) :
    List String → Eval Unit
  | [] =>
    match reader.complete with
    | (_, .ok _) => pure ()
    | (_, .error error) => .fail (.parse error)
  | line :: lines =>
    match reader.submit number line with
    | (_, .error error) => .fail (.parse error)
    | (next, .ok trees) => do
      runEach ev scope trees
      executeLines ev scope next (number + 1) lines

def execute (ev : Evaluator) (scope : ScopeId) (origin text : String) : Eval Unit :=
  executeLines ev scope (.new (some origin)) 1 (Text.lines text)

end Script

end BracketScript
