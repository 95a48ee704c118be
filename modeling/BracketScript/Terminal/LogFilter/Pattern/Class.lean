import BracketScript.Terminal.LogFilter.Pattern.Depth
import BracketScript.Terminal.LogFilter.Pattern.Escape

/-!
# Classes in square brackets

A class has characters, ranges of them and further classes as its members, and operators between
rows of members. `readClass?` says where a class ends and how deep it is.
-/

namespace BracketScript.Pattern

/-- The names that can stand between `[:` and `:]`. -/
def classNames : List String :=
  ["alnum", "alpha", "ascii", "blank", "cntrl", "digit", "graph", "lower", "print", "punct",
    "space", "upper", "word", "xdigit"]

/-- A class with a name, of which the first bracket has been read: whether it is negated, and what
follows it. -/
def readNamed? : List Char → Option (Bool × List Char)
  | ':' :: rest =>
    let negated := rest.head? == some '^'
    let body := if negated then rest.drop 1 else rest
    match body.dropWhile (· != ':') with
    | ':' :: ']' :: rest =>
      if classNames.contains (String.ofList (body.takeWhile (· != ':'))) then some (negated, rest)
      else none
    | _ => none
  | _ => none

structure OpenClass where
  /-- The depth of what stands in front of the last operator. -/
  left : Option Nat
  /-- The members behind it. -/
  members : Row
  deriving DecidableEq, Repr

namespace OpenClass

def none : OpenClass := ⟨.none, .none⟩

def add (c : OpenClass) (depth : Nat) : OpenClass := { c with members := c.members.add depth }

def depth (c : OpenClass) : Nat :=
  match c.left with
  | .none => c.members.depth
  | some left => max left c.members.depth + 1

def operate (c : OpenClass) : OpenClass := ⟨some c.depth, .none⟩

end OpenClass

def readMember? (mode : Mode) : List Char → Option (Atom × List Char)
  | [] => none
  | '\\' :: rest => readEscape? mode rest
  | c :: rest => some (.character c, rest)

/-- The character that a member stands for, if it can be an end of a range. -/
def Atom.character? : Atom → Option Char
  | .character c | .byte c => some c
  | .any | .family _ | .property | .place _ => none

def Mode.allowsInClass (mode : Mode) (atom : Atom) : Bool :=
  match atom with
  | .character c | .byte c => mode.allowsMember c
  | .family _ | .property => mode.allows atom
  | .any | .place _ => false

/-- What follows a member or a range of a class. A dash in front of another dash or of the end of
the class makes no range. -/
def passMember? (mode : Mode) (cs : List Char) : Option (List Char) := do
  let (first, rest) ← readMember? mode cs
  let rest := mode.skip rest
  let behind := mode.glance? (rest.drop 1)
  if rest.head? == some '-' && behind != some ']' && behind != some '-' then
    let (last, rest) ← readMember? mode (mode.skip (rest.drop 1))
    let a ← first.character?
    let b ← last.character?
    if a ≤ b && mode.allowsMember a && mode.allowsMember b then some rest else none
  else if mode.allowsInClass first then some rest
  else none

/-- What follows the opening bracket of a class and the mark of its negation. -/
def openClass? (mode : Mode) (cs : List Char) : Option (List Char) :=
  match mode.skip cs with
  | '^' :: rest => if mode.isUnicode then some rest else none
  | rest => some rest

/-- The depth of a class and what follows it. `outer` are the classes around the one that is being
read, and as long as that `isFresh`, a dash is a member, and so is a closing bracket in front of all
members. -/
def readClass? (mode : Mode) :
    (fuel : Nat) → (isFresh : Bool) → (outer : List OpenClass) → OpenClass → List Char →
      Option (Nat × List Char)
  | 0, _, _, _, _ => none
  | fuel + 1, isFresh, outer, current, cs =>
    match mode.skip cs with
    | [] => none
    | c :: rest =>
      if isFresh && (c == '-' || c == ']' && current.members.count == 0) then
        if mode.allowsMember c then readClass? mode fuel (c == '-') outer (current.add 0) rest
        else none
      else if c == ']' then
        match outer with
        | [] => some (current.depth + 1, rest)
        | holder :: outer =>
          readClass? mode fuel false outer (holder.add (current.depth + 1)) rest
      else if c == '[' then
        match readNamed? rest with
        | some (negated, rest) =>
          if mode.allowsNamed negated then readClass? mode fuel false outer (current.add 0) rest
          else none
        | none => do
          readClass? mode fuel true (current :: outer) .none (← openClass? mode rest)
      else if "&-~".toList.contains c && rest.head? == some c then
        readClass? mode fuel false outer current.operate (rest.drop 1)
      else do
        readClass? mode fuel false outer (current.add 0) (← passMember? mode (c :: rest))

end BracketScript.Pattern
