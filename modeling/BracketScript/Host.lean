import BracketScript.Call

/-!
# The host

What surrounds a program: the directories in which it looks for modules, the packages of procedures
that are provided to it, and what is known about the files. A path that nothing is known about is
asked for while the program runs.
-/

namespace BracketScript

/-- A procedure that the host provides. It gets the evaluator, the call and the scope of the
call. -/
structure Native where
  name : String
  run : (Cell → ScopeId → Eval Cell) → Call → ScopeId → Eval Cell

structure Package where
  name : String
  /-- The procedures under their member names; the last of one name counts. -/
  procedures : List (String × Native)

structure Host where
  roots : List String
  packages : List Package
  known : String → Option Entry

namespace Host

/-- Provide a package, in place of an earlier one of its name. -/
def register (host : Host) (package : Package) : Host :=
  { host with packages := package :: host.packages.filter fun other => other.name != package.name }

def package (host : Host) (name : String) : Except LoadError Package :=
  match host.packages.find? fun package => package.name == name with
  | some package => .ok package
  | none => .error (.unknownPackage name)

def native? (host : Host) (package member : String) : Option Native := do
  let found ← host.packages.find? fun other => other.name == package
  found.procedures.reverse.lookup member

def look (host : Host) (path : String) : Eval Entry :=
  match host.known path with
  | some entry => pure entry
  | none => .await (.entry path)

end Host

end BracketScript
