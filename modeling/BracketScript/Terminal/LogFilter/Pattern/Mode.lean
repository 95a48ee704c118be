import BracketScript.Text.Blank

/-!
# How a pattern is read

Settings in a pattern change how the part behind them is read. Three of them decide whether that
part can be matched at all: whether letters stand for both of their cases, whether the pattern is
about characters or about bytes, and whether blanks in it count.

Nothing here knows the properties of characters other than those of ASCII. So a pattern about
characters can neither name a class of them by a property nor leave their case open, and a pattern
about bytes must not match a part of a character.
-/

namespace BracketScript.Pattern

structure Mode where
  /-- Letters stand for both of their cases. -/
  ignoresCase : Bool
  /-- The pattern is about characters, and not about bytes. -/
  isUnicode : Bool
  /-- Blanks and comments are passed over. -/
  isSpaced : Bool
  deriving DecidableEq, Repr

inductive Atom where
  /-- A character. -/
  | character (c : Char)
  /-- A character by its two hexadecimal digits, which is a byte in a pattern about bytes. -/
  | byte (c : Char)
  /-- Any character. -/
  | any
  /-- The digits, the blanks or the characters of words, or all others. -/
  | family (negated : Bool)
  /-- The characters with a property. -/
  | property
  /-- A place between characters, which may be the edge of a word. -/
  | place (isWordEdge : Bool)
  deriving DecidableEq, Repr

def isAscii (c : Char) : Bool := c.toNat < 128

namespace Mode

def initial : Mode := ⟨false, true, false⟩

/-- The value of a setting after a row of settings, those behind a minus being taken back. -/
def settingAfter (name : Char) (settings : List Char) (before : Bool) : Bool :=
  if (settings.takeWhile (· != '-')).contains name then true
  else if settings.contains name then false
  else before

def set (mode : Mode) (settings : List Char) : Mode :=
  ⟨settingAfter 'i' settings mode.ignoresCase, settingAfter 'u' settings mode.isUnicode,
    settingAfter 'x' settings mode.isSpaced⟩

def allows (mode : Mode) : Atom → Bool
  | .character _ => !(mode.isUnicode && mode.ignoresCase)
  | .byte c => if mode.isUnicode then !mode.ignoresCase else isAscii c
  | .any => mode.isUnicode
  | .family negated => !mode.isUnicode && !negated
  | .property => false
  | .place _ => true

def allowsMember (mode : Mode) (c : Char) : Bool :=
  if mode.isUnicode then !mode.ignoresCase else isAscii c

def allowsNamed (mode : Mode) (negated : Bool) : Bool :=
  if mode.isUnicode then !mode.ignoresCase else !negated

/-- What follows blanks and comments; a comment goes from a hash to the end of its line. -/
def passBlanks (inComment : Bool) : List Char → List Char
  | [] => []
  | c :: cs =>
    if inComment then passBlanks (c != '\n') cs
    else if Text.isBlank c then passBlanks false cs
    else if c == '#' then passBlanks true cs
    else c :: cs

def skip (mode : Mode) (cs : List Char) : List Char :=
  if mode.isSpaced then passBlanks false cs else cs

/-- The character that seems to come next: only the hash of a comment is passed over. -/
def glance? (mode : Mode) (cs : List Char) : Option Char :=
  if mode.isSpaced then
    match cs.dropWhile Text.isBlank with
    | '#' :: cs => (cs.dropWhile Text.isBlank).head?
    | cs => cs.head?
  else cs.head?

end Mode

end BracketScript.Pattern
