import BracketScript.Brackets
import BracketScript.Keyword

/-!
# Expression trees

A parsed expression is a list in brackets whose items are atoms and further lists. Each list keeps
the place of its opening bracket and each atom the place of its token. Keywords are told apart from
other symbols here, once and for all.

`build` reads a row of tokens with a stack of the lists that are open, innermost first.
-/

namespace BracketScript

/-- An expression that is no list. -/
inductive Atom where
  | symbol (name : String)
  | keyword (k : Keyword)
  | string (text : String)
  | integer (value : Int64)
  | real (value : Float)

def Atom.ofLeaf : Leaf → Atom
  | .symbol name =>
    match Keyword.ofName? name with
    | some k => .keyword k
    | none => .symbol name
  | .string text => .string text
  | .integer value => .integer value
  | .real value => .real value

inductive Tree where
  | atom (a : Atom) (location : Location)
  | list (items : List Tree) (location : Location)

namespace Tree

/-- A list whose closing bracket has not been met, with its items so far in reverse. -/
structure Frame where
  location : Location
  items : List Tree

def Frame.push (frame : Frame) (tree : Tree) : Frame :=
  { frame with items := tree :: frame.items }

def Frame.close (frame : Frame) : Tree :=
  .list frame.items.reverse frame.location

/-- The expressions of a row of tokens, where `frames` are the open lists, innermost first, and
`trees` the complete expressions so far in reverse. -/
def buildFrom (frames : List Frame) (trees : List Tree) :
    List Token → Except ParseError (List Tree)
  | [] =>
    match frames with
    | [] => .ok trees.reverse
    | frame :: _ => .error ⟨.openingUnmatched, frame.location⟩
  | token :: tokens =>
    match token.kind, frames with
    | .opening, frames => buildFrom (⟨token.location, []⟩ :: frames) trees tokens
    | .closing, [] => .error ⟨.closingUnmatched, token.location⟩
    | .closing, [frame] => buildFrom [] (frame.close :: trees) tokens
    | .closing, frame :: outer :: others =>
      buildFrom (outer.push frame.close :: others) trees tokens
    | .leaf _, [] => .error ⟨.outsideList, token.location⟩
    | .leaf leaf, frame :: others =>
      buildFrom (frame.push (.atom (.ofLeaf leaf) token.location) :: others) trees tokens

def build (tokens : List Token) : Except ParseError (List Tree) :=
  buildFrom [] [] tokens

end Tree

end BracketScript
