import BracketScript.Location

/-!
# Byte offsets

A line and a column, both counted from one, name a place in a text; `offset?` finds the number of
UTF-8 bytes in front of it. Lines are separated by newlines alone. The place right behind the last
character of a line exists, and every place further to the right or below does not.
-/

namespace BracketScript.Text

/-- The bytes of the first `count` characters of the first line. -/
def bytesInLine : (count : Nat) → List Char → Option Nat
  | 0, _ => some 0
  | _ + 1, [] => none
  | count + 1, c :: cs =>
    if c = '\n' then none else (bytesInLine count cs).map (· + c.utf8Size)

/-- The bytes of the first `count` lines and what follows them. -/
def skipLines : (count : Nat) → List Char → Option (Nat × List Char)
  | 0, cs => some (0, cs)
  | _ + 1, [] => none
  | count + 1, c :: cs =>
    let rest := if c = '\n' then skipLines count cs else skipLines (count + 1) cs
    rest.map fun (bytes, after) => (bytes + c.utf8Size, after)

/-- The number of bytes in front of a place, if the text has that place. Column zero counts as
column one. -/
def offset? (text : String) (line column : Nat) : Option Nat :=
  match line with
  | 0 => none
  | count + 1 => do
    let (before, rest) ← skipLines count text.toList
    let inLine ← bytesInLine (column - 1) rest
    return before + inLine

end BracketScript.Text
