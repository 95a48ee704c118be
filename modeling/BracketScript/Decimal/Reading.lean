import BracketScript.Decimal.Binary

/-!
# Reading reals

A decimal `± digits · 10 ^ exponent` is read as the double nearest to it. `read?` accepts an
optional sign followed by `inf`, `infinity` or `nan` in any case, or by digits with an optional
point and an optional exponent, at least one digit standing before the exponent.
-/

namespace BracketScript.Decimal

def isDigit (c : Char) : Bool :=
  '0' ≤ c && c ≤ '9'

def natOfDigits (digits : List Char) : Nat :=
  digits.foldl (fun n c => 10 * n + (c.toNat - 48)) 0

/-- The double nearest to `± digits · 10 ^ exponent`. Decimals far beyond the range of doubles are
decided by their order of magnitude alone, for which each binary digit counts as between three and
four tenths of a decimal one. -/
def ofDecimal (negative : Bool) (digits : Nat) (exponent : Int) : Float :=
  let bits : Int := digits.log2
  if digits = 0 || exponent + 4 * bits / 10 + 1 < -400 then signed negative 0
  else if 400 < exponent + 3 * bits / 10 then signed negative infinityBits
  else nearest negative (digits * Nat.pow 10 exponent.toNat) (Nat.pow 10 (-exponent).toNat)

/-- The optional sign in front of a number: whether it is a minus, and the rest. -/
def readSign : List Char → Bool × List Char
  | '-' :: rest => (true, rest)
  | '+' :: rest => (false, rest)
  | rest => (false, rest)

def readExponent? : List Char → Option Int
  | [] => some 0
  | c :: rest =>
    if c == 'e' || c == 'E' then
      let (negative, digits) := readSign rest
      if digits.isEmpty || !digits.all isDigit then none
      else some (if negative then -(natOfDigits digits : Int) else natOfDigits digits)
    else none

def readFraction : List Char → List Char × List Char
  | '.' :: rest => (rest.takeWhile isDigit, rest.dropWhile isDigit)
  | rest => ([], rest)

def readDecimal? (negative : Bool) (cs : List Char) : Option Float :=
  let whole := cs.takeWhile isDigit
  let (fraction, rest) := readFraction (cs.dropWhile isDigit)
  if whole.isEmpty && fraction.isEmpty then none
  else
    (readExponent? rest).map fun exponent =>
      ofDecimal negative (natOfDigits (whole ++ fraction)) (exponent - fraction.length)

def read? (cs : List Char) : Option Float :=
  let (negative, body) := readSign cs
  let word := String.ofList (body.map Char.toLower)
  if word == "inf" || word == "infinity" then some (signed negative infinityBits)
  else if word == "nan" then some (0.0 / 0.0)
  else readDecimal? negative body

end BracketScript.Decimal
