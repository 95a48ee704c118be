/-!
# Splitting a text

The pieces of a text between the occurrences of a separator. There is always a first piece, which
is empty if the text is.
-/

namespace BracketScript.Text

def split (separator : Char) : List Char → List Char × List (List Char)
  | [] => ([], [])
  | c :: cs =>
    let (first, others) := split separator cs
    if c = separator then ([], first :: others) else (c :: first, others)

def pieces (separator : Char) (text : String) : String × List String :=
  let (first, others) := split separator text.toList
  (String.ofList first, others.map String.ofList)

end BracketScript.Text
