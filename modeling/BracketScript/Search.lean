import BracketScript.LoadError
import BracketScript.Path

/-!
# The search for modules

A module is named by a path. The path as given is tried first and then, unless it is absolute, the
path below each of the roots in their order; a path without an extension is tried again with the
extension of source files right after. The first of these candidates that is a file is the module,
whether it can be read or not.
-/

namespace BracketScript

structure SourceText where
  origin : String
  text : String
  deriving DecidableEq, Repr

namespace Search

def sourceExtension : String := "saur"

/-- A path and, if it has no extension, its variant with the extension of source files. -/
def variants (path : String) : List String :=
  if (Path.extension? path).isNone then [path, Path.withExtension path sourceExtension] else [path]

def candidates (roots : List String) (name : String) : List String :=
  let below := if Path.isAbsolute name then [] else roots.map fun root => Path.join root name
  (name :: below).flatMap variants

variable {m : Type → Type} [Monad m]

def firstFile (look : String → m Entry) :
    List String → m (Option (String × Except ReadError String))
  | [] => pure none
  | path :: paths => do
    match ← look path with
    | .file content => pure (some (path, content))
    | _ => firstFile look paths

def find (look : String → m Entry) (roots : List String) (name : String) :
    m (Except LoadError SourceText) := do
  let paths := candidates roots name
  match ← firstFile look paths with
  | some (path, .ok text) => pure (.ok ⟨path, text⟩)
  | some (path, .error reason) => pure (.error (.unreadable path reason))
  | none => pure (.error (.notFound name paths))

end Search

end BracketScript
