import BracketScript.Token

/-!
# Open brackets

`Brackets` keeps the places of the brackets that were opened and not closed yet, innermost first,
while the tokens of one line after the other go by.
-/

namespace BracketScript

/-- The places of the open brackets, innermost first. -/
structure Brackets where
  opened : List Location
  deriving DecidableEq, Repr

namespace Brackets

def none : Brackets := ⟨[]⟩

def isBalanced (b : Brackets) : Bool :=
  b.opened.isEmpty

def innermost? (b : Brackets) : Option Location :=
  b.opened.head?

/-- Follow tokens, up to a closing bracket that closes nothing. -/
def follow (b : Brackets) : List Token → Brackets × Option ParseError
  | [] => (b, .none)
  | token :: tokens =>
    match token.kind with
    | .opening => follow ⟨token.location :: b.opened⟩ tokens
    | .closing =>
      match b.opened with
      | _ :: outer => follow ⟨outer⟩ tokens
      | [] => (b, some ⟨.closingUnmatched, token.location⟩)
    | .leaf _ => follow b tokens

/-- The tokens of a line and the brackets that are open after it. A line with a fault has no
tokens, but the brackets in front of its first fault count. -/
def readLine (b : Brackets) (line : Line) (text : String) :
    Brackets × Except ParseError (List Token) :=
  let scan := Token.scan line text
  let (after, unmatched) := b.follow scan.tokens
  match unmatched <|> scan.fault with
  | some fault => (after, .error fault)
  | .none => (after, .ok scan.tokens)

end Brackets

end BracketScript
