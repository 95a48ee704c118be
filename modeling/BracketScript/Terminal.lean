import BracketScript.CommandLine
import BracketScript.Terminal.Drawing
import BracketScript.Terminal.LogFilter
import BracketScript.Terminal.Typed

/-!
# Terminals

The libraries that the program stands on, as far as they can be told from outside: lines are edited,
reports are drawn and log filters are read by them.
-/

namespace BracketScript.Terminal

open CommandLine

def judge (filter : String) : FilterVerdict :=
  match LogFilter.parse filter with
  | .ok _ => .accepted
  | .error .brokenCharacter => .broken
  | .error error => .refused error.message

def console {m : Type → Type} (look : String → m Entry) (setting? : String → Option String)
    (print printError : String → m Unit) (nextLine : m (Option String)) : Console m where
  look
  setting?
  print
  printError
  nextLine
  edit? := Text.typed?
  draw? := Diagnostic.Report.draw?
  judge

end BracketScript.Terminal
