import BracketScript.Decimal.Reading
import BracketScript.Terminal.LogFilter.Pattern.Mode

/-!
# Escapes

What a backslash and the characters behind it stand for in a pattern.
-/

namespace BracketScript.Pattern

def hexDigit? (c : Char) : Option Nat :=
  if Decimal.isDigit c then some (c.toNat - 48)
  else if 'a' ≤ c.toLower && c.toLower ≤ 'f' then some (c.toLower.toNat - 87)
  else none

/-- The character whose code point has the given number of further hexadecimal digits. -/
def readHex? (mode : Mode) (value : Nat) : (digits : Nat) → List Char → Option (Char × List Char)
  | 0, rest => if value.isValidChar then some (Char.ofNat value, rest) else none
  | digits + 1, cs =>
    match mode.skip cs with
    | [] => none
    | c :: rest => do
      let digit ← hexDigit? c
      readHex? mode (16 * value + digit) digits rest

def isEscapable (c : Char) : Bool :=
  isAscii c && !c.isAlphanum && c != '<' && c != '>'

def readEscape? (mode : Mode) : List Char → Option (Atom × List Char)
  | [] => none
  | c :: rest =>
    if "dsw".toList.contains c then some (.family false, rest)
    else if "DSW".toList.contains c then some (.family true, rest)
    else if c == 'p' || c == 'P' then some (.property, rest)
    else if c == 'x' then (readHex? mode 0 2 rest).map fun (c, rest) => (.byte c, rest)
    else if c == 'u' then (readHex? mode 0 4 rest).map fun (c, rest) => (.character c, rest)
    else if c == 'U' then (readHex? mode 0 8 rest).map fun (c, rest) => (.character c, rest)
    else if c == 'A' || c == 'z' then some (.place false, rest)
    else if "bB<>".toList.contains c then some (.place true, rest)
    else if c == 'a' then some (.character '\x07', rest)
    else if c == 'f' then some (.character '\x0c', rest)
    else if c == 't' then some (.character '\t', rest)
    else if c == 'n' then some (.character '\n', rest)
    else if c == 'r' then some (.character '\r', rest)
    else if c == 'v' then some (.character '\x0b', rest)
    else if isEscapable c then some (.character c, rest)
    else none

end BracketScript.Pattern
