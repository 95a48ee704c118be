/-!
# Kinds of cells

The names under which a program sees what kind of value it has.
-/

namespace BracketScript

/-- The kind of a value. Procedures count as symbols. -/
inductive Kind where
  | integer | real | string | symbol | keyword | list | lambda | box | handle
  deriving DecidableEq, Repr

def Kind.name : Kind → String
  | .integer => "integer"
  | .real => "real"
  | .string => "string"
  | .symbol => "symbol"
  | .keyword => "encoded_symbol"
  | .list => "list"
  | .lambda => "lambda"
  | .box => "box"
  | .handle => "variant"

end BracketScript
