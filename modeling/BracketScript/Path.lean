import BracketScript.Text.Split

/-!
# Paths

Paths are texts in which slashes separate components. Empty components and dots at the end do not
count, so `lib/` and `lib/.` name the same file as `lib`.
-/

namespace BracketScript.Path

def isAbsolute (path : String) : Bool :=
  path.toList.head? == some '/'

/-- The path of `name` below the directory `base`. -/
def join (base name : String) : String :=
  if isAbsolute name then name
  else
    match base.toList.getLast? with
    | none => name
    | some '/' => base ++ name
    | some _ => base ++ "/" ++ name

/-- A reversed path without the slashes and dots that follow its last component. -/
def dropTail : List Char → List Char
  | '/' :: rest => dropTail rest
  | '.' :: '/' :: rest => dropTail rest
  | rest => rest

/-- The last component of a path that ends with one, reversed. -/
def lastName? (backward : List Char) : Option (List Char) :=
  match backward.takeWhile (· != '/') with
  | [] | ['.'] | ['.', '.'] => none
  | name => some name

/-- A reversed name as its reversed extension, if it has one, and its reversed stem. A dot at the
start of a name begins no extension. -/
def splitExtension (name : List Char) : Option (List Char) × List Char :=
  match name.dropWhile (· != '.') with
  | [] | ['.'] => (none, name)
  | _ :: stem => (some (name.takeWhile (· != '.')), stem)

def extension? (path : String) : Option String := do
  let name ← lastName? (dropTail path.toList.reverse)
  let extension ← (splitExtension name).1
  return String.ofList extension.reverse

/-- The path with another extension; a path that names no file stays as it is. -/
def withExtension (path extension : String) : String :=
  let backward := dropTail path.toList.reverse
  match lastName? backward with
  | none => path
  | some name =>
    let stem := (splitExtension name).2 ++ backward.drop name.length
    String.ofList stem.reverse ++ "." ++ extension

/-- The components of a path, empty ones included. -/
def components (path : String) : List String :=
  let (first, others) := Text.pieces '/' path
  first :: others

end BracketScript.Path
