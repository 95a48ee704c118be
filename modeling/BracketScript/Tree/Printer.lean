import BracketScript.Decimal.Text
import BracketScript.Tree

/-!
# Writing trees

The text of an expression tree: items are separated by one space, strings are quoted, and reals
always carry a point, so that reading the text gives the tree again.
-/

namespace BracketScript

def Atom.text : Atom → String
  | .symbol name => name
  | .keyword k => k.name
  | .string text => Text.quoted text
  | .integer value => toString value.toInt
  | .real value => Decimal.text value

namespace Tree

mutual

def text : Tree → String
  | .atom a _ => a.text
  | .list items _ => "[" ++ textItems items ++ "]"

def textItems : List Tree → String
  | [] => ""
  | [tree] => tree.text
  | tree :: tree' :: trees => tree.text ++ " " ++ textItems (tree' :: trees)

end

end Tree

end BracketScript
