import BracketScript.Decimal.Text
import BracketScript.Name
import BracketScript.Text.Hidden
import BracketScript.Text.Quoted

/-!
# Texts of cells

A cell has three texts. `stringify` is what a program prints: strings stand for themselves, and
symbols for what they mean in the scope at hand. `quote` is source text that reads back as the same
tree. `inspect` names the kind of every value.

All three walk into lists, so they take the depth of the store as a bound. It is reached only if a
list lies inside of itself, which takes tasks that change two lists at the same time.
-/

namespace BracketScript

namespace Store

def bracketed (separator : String) (texts : List String) : String :=
  "[" ++ separator.intercalate texts ++ "]"

/-- The printed text of a cell, following lists and symbols at most `fuel` steps. -/
def stringifyWithin (s : Store) (id : ScopeId) : (fuel : Nat) → Cell → Except Fault String
  | 0, _ => .ok ""
  | fuel + 1, c =>
    match c.value with
    | .integer value => .ok (toString value.toInt)
    | .real value => .ok (Decimal.text value)
    | .string text => .ok text
    | .symbol name => do
      let meaning ← s.resolve id name c.location
      s.stringifyWithin id fuel meaning
    | .keyword k => .ok k.name
    | .procedure p => .ok p.name
    | .list => do
      let texts ← (s.items c.id).mapM fun item => s.stringifyWithin id fuel item
      .ok (bracketed " " texts)
    | .lambda _ _ _ => .ok "<lambda>"
    | .box _ => .ok "<box>"
    | .handle _ _ => .ok "<variant>"

def stringify (s : Store) (id : ScopeId) (c : Cell) : Except Fault String :=
  s.stringifyWithin id s.depth c

/-- The source text of a cell, following lists and lambdas at most `fuel` steps. -/
def quoteWithin (s : Store) : (fuel : Nat) → Cell → String
  | 0, _ => ""
  | fuel + 1, c =>
    match c.value with
    | .integer value => toString value.toInt
    | .real value => Decimal.text value
    | .string text => Text.quoted text
    | .symbol name => name
    | .keyword k => k.name
    | .procedure p => p.name
    | .list => bracketed " " ((s.items c.id).map fun item => s.quoteWithin fuel item)
    | .lambda parameters body _ =>
      "[lambda " ++ bracketed " " parameters ++ " " ++ s.quoteWithin fuel body ++ "]"
    | .box _ => "<box>"
    | .handle _ _ => "<variant>"

def quote (s : Store) (c : Cell) : String :=
  s.quoteWithin s.depth c

/-- The text of a cell that names the kind of each value, at most `fuel` lists deep. -/
def inspectWithin (s : Store) : (fuel : Nat) → Cell → String
  | 0, _ => ""
  | fuel + 1, c =>
    match c.value with
    | .integer value => "Integer(" ++ toString value.toInt ++ ")"
    | .real value => "Real(" ++ Decimal.text value ++ ")"
    | .string text => "String(" ++ Text.inspected text ++ ")"
    | .symbol name => "Symbol(" ++ name ++ ")"
    | .keyword k => "Encoded(" ++ k.name ++ ")"
    | .procedure p => "Procedure(" ++ p.name ++ ")"
    | .list => bracketed ", " ((s.items c.id).map fun item => s.inspectWithin fuel item)
    | .lambda parameters _ _ =>
      "Lambda(" ++ bracketed ", " (parameters.map Text.inspected) ++ ")"
    | .box _ => "Box"
    | .handle kind _ => "Variant(" ++ kind.name ++ ")"

def inspect (s : Store) (c : Cell) : String :=
  s.inspectWithin s.depth c

end Store

end BracketScript
