import BracketScript.Decimal.Shortest

/-!
# The text of a real

A real is written with the fewest digits that read back as the same value, always positionally
and always with a point: `0.1`, `100.0`, `-0.0`. Infinities are `inf` and `-inf`, and what is not a
number is `NaN`.
-/

namespace BracketScript.Decimal

def dropTrailingZeros (digits : List Char) : List Char :=
  (digits.reverse.dropWhile (· == '0')).reverse

/-- The decimal `c · 10 ^ k` for `c ≠ 0`, with at least one digit on either side of the point. -/
def positional (c : Nat) (k : Int) : List Char :=
  let all := Nat.toDigits 10 c
  if 0 ≤ k then all ++ List.replicate k.toNat '0' ++ ['.', '0']
  else
    let places := (-k).toNat
    let padded := List.replicate (places + 1 - all.length) '0' ++ all
    let fraction := dropTrailingZeros (padded.drop (padded.length - places))
    padded.take (padded.length - places) ++ '.' :: (if fraction.isEmpty then ['0'] else fraction)

def Scaled.text (x : Scaled) : List Char :=
  if x.mantissa = 0 then ['0', '.', '0']
  else
    let d := shortest x.mantissa x.exponent
    positional d.digits d.exponent

def chars (x : Float) : List Char :=
  match Shape.ofFloat x with
  | .nan => ['N', 'a', 'N']
  | .infinite negative => (if negative then ['-'] else []) ++ ['i', 'n', 'f']
  | .finite value => (if value.negative then ['-'] else []) ++ value.text

def text (x : Float) : String :=
  String.ofList (chars x)

end BracketScript.Decimal
