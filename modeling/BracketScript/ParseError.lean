import BracketScript.Location

/-!
# Parse errors

What can be wrong with a source text. Every such error points at the word, quote or bracket that is
at fault, and some carry a hint on how to mend it.
-/

namespace BracketScript

inductive ParseError.Cause where
  /-- The word begins like a numeral and is none. -/
  | malformedNumeral (word : String)
  /-- The integer does not fit in 64 bits. -/
  | integerTooLarge
  /-- The line ends inside a string. -/
  | stringUnclosed
  /-- The line ends directly after a backslash. -/
  | escapeUnclosed
  /-- A closing bracket closes nothing. -/
  | closingUnmatched
  /-- An opening bracket is never closed. -/
  | openingUnmatched
  /-- A word or string stands outside of every list. -/
  | outsideList
  deriving DecidableEq, Repr

structure ParseError where
  cause : ParseError.Cause
  location : Location
  deriving DecidableEq, Repr

namespace ParseError

def Cause.describe : Cause → String
  | .malformedNumeral _ | .integerTooLarge => "Malformed number"
  | .stringUnclosed | .escapeUnclosed => "Unterminated string"
  | .closingUnmatched => "Unmatched closing bracket"
  | .openingUnmatched => "Unmatched opening bracket"
  | .outsideList => "No enclosing list"

def Cause.help? : Cause → Option String
  | .malformedNumeral word => some ("`" ++ word ++ "` is not a valid numeral")
  | .integerTooLarge => some "integer literal does not fit in 64 bits"
  | .stringUnclosed => some "strings must close on the line they open"
  | .outsideList => some "top-level expressions must be wrapped in `[` `]`"
  | .escapeUnclosed | .closingUnmatched | .openingUnmatched => none

def message (e : ParseError) : String :=
  e.cause.describe ++ " at " ++ e.location.text

end ParseError

end BracketScript
