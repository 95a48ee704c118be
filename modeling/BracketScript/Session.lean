import BracketScript.Evaluator
import BracketScript.Text.Blank

/-!
# Sessions

In a session a person types one line after the other. Lines that complete expressions are answered
with the texts of their values; a line that leaves a bracket open is continued by the next. The
transcript keeps every line for reports on faults.
-/

namespace BracketScript

structure Session where
  reader : Reader
  /-- The number of lines so far. -/
  count : Nat
  transcript : String

namespace Session

def origin : String := "<repl>"

def new : Session := ⟨.new (some origin), 0, ""⟩

def prompt (session : Session) : String :=
  if session.reader.isPending then "... " else "> "

inductive Request where
  /-- The end of the session. -/
  | quit
  /-- More lines. -/
  | pending
  | fault (error : ParseError)
  /-- The values of expressions. -/
  | evaluate (trees : List Tree)

def isQuit (line : String) : Bool :=
  let word := String.ofList (Text.trim line.toList)
  word == ":quit" || word == ":exit"

def read (session : Session) (line : String) : Session × Request :=
  if !session.reader.isPending && isQuit line then (session, .quit)
  else
    let count := session.count + 1
    let transcript := session.transcript ++ line ++ "\n"
    match session.reader.submit count line with
    | (reader, .error error) => (⟨reader, count, transcript⟩, .fault error)
    | (reader, .ok trees) =>
      (⟨reader, count, transcript⟩, if reader.isPending then .pending else .evaluate trees)

def evaluate (ev : Evaluator) (scope : ScopeId) : List Tree → Eval (List String)
  | [] => pure []
  | tree :: trees => do
    let value ← ev.runTree scope tree
    let text ← .stringify scope value
    let texts ← evaluate ev scope trees
    return text :: texts

inductive Reply where
  | quit
  | pending
  | values (texts : List String)

def reply (ev : Evaluator) (scope : ScopeId) : Request → Eval Reply
  | .quit => pure .quit
  | .pending => pure .pending
  | .fault error => .fail (.parse error)
  | .evaluate trees => .values <$> evaluate ev scope trees

def feed (session : Session) (ev : Evaluator) (scope : ScopeId) (line : String) :
    Session × Eval Reply :=
  let (next, request) := session.read line
  (next, reply ev scope request)

end Session

end BracketScript
