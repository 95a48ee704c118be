import BracketScript.Numeral
import BracketScript.ParseError
import BracketScript.Text.Blank
import BracketScript.Text.Quoted

/-!
# Tokens

One line of source text is a row of tokens: brackets, strings and words. Words end at a delimiter;
a word that begins like a numeral must be one, and every other word is a symbol. A semicolon ends
the line. `scan` stops at the first fault and keeps the tokens in front of it.
-/

namespace BracketScript

inductive Leaf where
  | symbol (name : String)
  | string (text : String)
  | integer (value : Int64)
  | real (value : Float)

inductive Token.Kind where
  | opening
  | closing
  | leaf (leaf : Leaf)

structure Token where
  kind : Token.Kind
  location : Location

structure Line where
  number : Nat
  origin : Option String
  deriving DecidableEq, Repr

def Line.locate (line : Line) (column : Nat) : Location :=
  ⟨line.number, column, line.origin⟩

/-- The tokens of a line up to its first fault, and that fault. -/
structure Scan where
  tokens : List Token
  fault : Option ParseError

namespace Scan

def empty : Scan := ⟨[], none⟩

def faulty (cause : ParseError.Cause) (location : Location) : Scan :=
  ⟨[], some ⟨cause, location⟩⟩

def cons (token : Token) (scan : Scan) : Scan :=
  ⟨token :: scan.tokens, scan.fault⟩

end Scan

namespace Token

def isDelimiter (c : Char) : Bool :=
  Text.isBlank c || c == '[' || c == ']' || c == '"' || c == ';'

def isWordChar (c : Char) : Bool :=
  !isDelimiter c

def leafOfNumeral (n : Numeral) : Except ParseError.Cause Leaf :=
  match n.fraction with
  | some fraction => .ok (.real (n.real fraction))
  | none =>
    match Numeral.toInt64? n.integer with
    | some value => .ok (.integer value)
    | none => .error .integerTooLarge

def leafOfWord (word : List Char) : Except ParseError.Cause Leaf :=
  if Numeral.begins word then
    match Numeral.read? word with
    | some n => leafOfNumeral n
    | none => .error (.malformedNumeral (String.ofList word))
  else .ok (.symbol (String.ofList word))

def unclosedCause : Text.Unclosed → ParseError.Cause
  | .text => .stringUnclosed
  | .escape => .escapeUnclosed

/-- The tokens of `cs`, whose first character stands at `column` of the line. -/
def scanFrom (line : Line) (column : Nat) (cs : List Char) : Scan :=
  match cs with
  | [] => .empty
  | c :: rest =>
    if c = ';' then .empty
    else if Text.isBlank c then scanFrom line (column + 1) rest
    else if c = '[' then
      (scanFrom line (column + 1) rest).cons ⟨.opening, line.locate column⟩
    else if c = ']' then
      (scanFrom line (column + 1) rest).cons ⟨.closing, line.locate column⟩
    else if c = '"' then
      match h : Text.readQuoted rest with
      | .ok (text, after) =>
        have := Text.length_lt_of_readQuoted h
        (scanFrom line (column + 1 + (rest.length - after.length)) after).cons
          ⟨.leaf (.string (String.ofList text)), line.locate column⟩
      | .error e => .faulty (unclosedCause e) (line.locate column)
    else
      let word := c :: rest.takeWhile isWordChar
      match leafOfWord word with
      | .ok leaf =>
        have := (List.dropWhile_sublist isWordChar (l := rest)).length_le
        (scanFrom line (column + word.length) (rest.dropWhile isWordChar)).cons
          ⟨.leaf leaf, line.locate column⟩
      | .error cause => .faulty cause (line.locate column)
  termination_by cs.length
  decreasing_by all_goals simp only [List.length_cons]; omega

def scan (line : Line) (text : String) : Scan :=
  scanFrom line 1 text.toList

end Token

end BracketScript
