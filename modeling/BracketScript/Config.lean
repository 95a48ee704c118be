import BracketScript.LoadError
import BracketScript.Path
import BracketScript.Text.Blank

/-!
# Settings

Each setting comes from the command line or, failing that, from the environment.
-/

namespace BracketScript

structure Config where
  home : Option String
  searchPaths : List String
  logFilter : String
  deriving DecidableEq, Repr

namespace Config

def defaultLogFilter : String := "warn"

def default : Config := ⟨none, [], defaultLogFilter⟩

def homeVariable : String := "SAUROS_HOME"

def logVariable : String := "SAUROS_LOG"

def nonBlank (text : String) : Option String :=
  if Text.isBlankText text then none else some text

variable {m : Type → Type} [Monad m]

/-- The directory of modules in the home directory of the user, if it is there. -/
def userHome (look : String → m Entry) (setting? : String → Option String) :
    m (Option String) := do
  match setting? "HOME" with
  | none => pure none
  | some home =>
    let path := Path.join home ".sauros"
    if (← look path).isDirectory then pure (some path) else pure none

def resolve (look : String → m Entry) (setting? : String → Option String)
    (home : Option String) (searchPaths : List String) (logFilter : Option String) : m Config := do
  let logFilter := ((logFilter <|> setting? logVariable).bind nonBlank).getD defaultLogFilter
  match home <|> (setting? homeVariable).bind nonBlank with
  | some home => pure ⟨some home, searchPaths, logFilter⟩
  | none => pure ⟨← userHome look setting?, searchPaths, logFilter⟩

def roots (config : Config) : List String :=
  config.home.toList ++ config.searchPaths

end Config

end BracketScript
