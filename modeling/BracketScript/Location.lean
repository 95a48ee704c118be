/-!
# Locations

Where something stands in a source text: its line and column, both counted from one, and the name
of the text, if it has one. Columns count characters.
-/

namespace BracketScript

structure Location where
  line : Nat
  column : Nat
  origin : Option String
  deriving DecidableEq, Repr

/-- `origin:line:column`, or `line:column` in a text without a name. -/
def Location.text (l : Location) : String :=
  let place := toString l.line ++ ":" ++ toString l.column
  match l.origin with
  | some origin => origin ++ ":" ++ place
  | none => place

end BracketScript
