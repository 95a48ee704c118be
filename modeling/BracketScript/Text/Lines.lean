/-!
# Lines of a text

A line ends at a newline, and a carriage return directly in front of that newline belongs to the
line end. A text that ends with a newline has no empty last line, and a carriage return elsewhere
is a character like any other.
-/

namespace BracketScript.Text

/-- The line whose characters were collected in reverse, without the carriage return of its end. -/
def endLine : List Char → List Char
  | '\r' :: collected => collected.reverse
  | collected => collected.reverse

/-- The lines of a text, where `collected` holds the start of the first one in reverse. -/
def linesFrom (collected : List Char) : List Char → List (List Char)
  | [] => if collected.isEmpty then [] else [collected.reverse]
  | c :: cs => if c = '\n' then endLine collected :: linesFrom [] cs
      else linesFrom (c :: collected) cs

def lines (text : String) : List String :=
  (linesFrom [] text.toList).map String.ofList

end BracketScript.Text
