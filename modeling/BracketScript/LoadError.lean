/-!
# Files that cannot be had

Why a path cannot be read as text, and why a module or package cannot be loaded.
-/

namespace BracketScript

inductive ReadError where
  | notFound
  | notDirectory
  | isDirectory
  /-- The path or the name of a file on it is longer than the system takes. -/
  | nameTooLong
  | invalidText
  | other (text : String)
  deriving DecidableEq, Repr

def ReadError.message : ReadError → String
  | .notFound => "No such file or directory (os error 2)"
  | .notDirectory => "Not a directory (os error 20)"
  | .isDirectory => "Is a directory (os error 21)"
  | .nameTooLong => "File name too long (os error 36)"
  | .invalidText => "stream did not contain valid UTF-8"
  | .other text => text

inductive Entry where
  | file (content : Except ReadError String)
  /-- Something that can be read and is no file. -/
  | device (content : String)
  | directory
  | missing (reason : ReadError)

namespace Entry

def isDirectory : Entry → Bool
  | .directory => true
  | _ => false

def read : Entry → Except ReadError String
  | .file content => content
  | .device content => .ok content
  | .directory => .error .isDirectory
  | .missing reason => .error reason

end Entry

inductive LoadError where
  /-- None of the paths is a file. -/
  | notFound (name : String) (searched : List String)
  /-- The first of the paths that is a file cannot be read. -/
  | unreadable (path : String) (reason : ReadError)
  | unknownPackage (name : String)
  deriving DecidableEq, Repr

def LoadError.message : LoadError → String
  | .notFound name searched =>
    let paths := ", ".intercalate searched
    s!"`{name}` was not found (searched {paths})"
  | .unreadable path reason => s!"failed to read {path}: {reason.message}"
  | .unknownPackage name => s!"package `{name}` is not available"

end BracketScript
