import BracketScript.Text.Lines
import BracketScript.Tree

/-!
# Reading a text line by line

A `Reader` takes one line at a time. It holds tokens back until every bracket is closed and then
hands out the complete expressions. After a fault it starts afresh. `parse` reads a whole text at
once, and `parseLine` the first expression of a single line.
-/

namespace BracketScript

structure Reader where
  origin : Option String
  brackets : Brackets
  /-- The tokens since the last complete expression, the last one first. -/
  backward : List Token

namespace Reader

/-- The tokens since the last complete expression. -/
def held (r : Reader) : List Token :=
  r.backward.reverse

def new (origin : Option String) : Reader :=
  ⟨origin, .none, []⟩

/-- An expression has begun and needs more lines. -/
def isPending (r : Reader) : Bool :=
  !r.brackets.isBalanced

def reset (r : Reader) : Reader :=
  new r.origin

/-- Read one line: the expressions that it completes. -/
def submit (r : Reader) (number : Nat) (text : String) :
    Reader × Except ParseError (List Tree) :=
  match r.brackets.readLine ⟨number, r.origin⟩ text with
  | (_, .error fault) => (r.reset, .error fault)
  | (brackets, .ok tokens) =>
    let backward := tokens.reverse ++ r.backward
    if !brackets.isBalanced || backward.isEmpty then ({ r with brackets, backward }, .ok [])
    else
      match Tree.build backward.reverse with
      | .ok trees => ({ r with brackets, backward := [] }, .ok trees)
      | .error fault => (r.reset, .error fault)

/-- The text has come to its end, where no list may be open. -/
def complete (r : Reader) : Reader × Except ParseError Unit :=
  match r.brackets.innermost? with
  | some location => (r.reset, .error ⟨.openingUnmatched, location⟩)
  | none => (r, .ok ())

/-- The expressions of the remaining lines of a text, the first of which has the given number. -/
def finish (r : Reader) (number : Nat) : List String → Except ParseError (List Tree)
  | [] =>
    match r.complete with
    | (_, .ok _) => .ok []
    | (_, .error fault) => .error fault
  | line :: lines =>
    match r.submit number line with
    | (_, .error fault) => .error fault
    | (next, .ok trees) =>
      match next.finish (number + 1) lines with
      | .ok others => .ok (trees ++ others)
      | .error fault => .error fault

end Reader

def parse (origin : Option String) (text : String) : Except ParseError (List Tree) :=
  (Reader.new origin).finish 1 (Text.lines text)

/-- The first expression of a text that is one line, with the given number. -/
def parseLine (origin : Option String) (number : Nat) (text : String) :
    Except ParseError (Option Tree) :=
  match (Reader.new origin).submit number text with
  | (_, .error fault) => .error fault
  | (next, .ok trees) =>
    match next.complete with
    | (_, .ok _) => .ok trees.head?
    | (_, .error fault) => .error fault

end BracketScript
