/-!
# Doubles as scaled integers

A finite double is `± m · 2 ^ q` with natural `m` and integer `q`. `Shape.ofFloat` reads this form
off the bits, and `nearest` goes the other way: it rounds an exact quotient of naturals to the
nearest double, a tie to the even mantissa. Everything between the two is arithmetic on naturals.
-/

namespace BracketScript.Decimal

/-- The number `± mantissa · 2 ^ exponent`. -/
structure Scaled where
  negative : Bool
  mantissa : Nat
  exponent : Int
  deriving DecidableEq, Repr

inductive Shape where
  | nan
  | infinite (negative : Bool)
  | finite (value : Scaled)
  deriving DecidableEq, Repr

def leastExponent : Int := -1074

/-- The weight of the exponent field in the bits of a double, which is also the leading bit of a
full mantissa: `2 ^ 52`. -/
def hiddenBit : Nat := 0x10000000000000

/-- The bit that holds the sign of a double: `2 ^ 63`. -/
def signBit : Nat := 0x8000000000000000

def infinityBits : Nat := 2047 * hiddenBit

def Shape.ofFloat (x : Float) : Shape :=
  let bits : Nat := x.toBits.toNat
  let negative := decide (signBit ≤ bits)
  let field : Nat := bits / hiddenBit % 2048
  let fraction : Nat := bits % hiddenBit
  if field = 2047 then
    if fraction = 0 then .infinite negative else .nan
  else if field = 0 then .finite ⟨negative, fraction, leastExponent⟩
  else .finite ⟨negative, fraction + hiddenBit, (field : Int) + leastExponent - 1⟩

/-- `n / d` rounded to the nearest natural, a tie to the even one. -/
def roundHalfEven (n d : Nat) : Nat :=
  let m := n / d
  let twice := 2 * (n % d)
  if twice < d || (twice == d && m % 2 == 0) then m else m + 1

def shiftDown (n d : Nat) (q : Int) : Nat × Nat :=
  if 0 ≤ q then (n, d * Nat.pow 2 q.toNat) else (n * Nat.pow 2 (-q).toNat, d)

/-- The bits of the double nearest to `n / d`, infinity when `n / d` is too large for a double.
The exponent is chosen so that the mantissa has 53 bits, or fewer at the least exponent; since the
exponent field lies right above the mantissa, a mantissa that is rounded up to `2 ^ 53` carries
into it by itself. -/
def nearestBits (n d : Nat) : Nat :=
  if n = 0 then 0
  else
    let q := max leastExponent ((n.log2 : Int) - d.log2 - 53)
    let (n₁, d₁) := shiftDown n d q
    let (d₂, q₂) := if 2 * hiddenBit ≤ n₁ / d₁ then (2 * d₁, q + 1) else (d₁, q)
    min infinityBits ((q₂ - leastExponent).toNat * hiddenBit + roundHalfEven n₁ d₂)

/-- The double with the given sign whose other bits are `bits`. -/
def signed (negative : Bool) (bits : Nat) : Float :=
  Float.ofBits (bits + if negative then signBit else 0).toUInt64

/-- The double nearest to `± n / d`. -/
def nearest (negative : Bool) (n d : Nat) : Float :=
  signed negative (nearestBits n d)

def ofInt (n : Int) : Float :=
  nearest (decide (n < 0)) n.natAbs 1

def Scaled.truncate (x : Scaled) : Int :=
  let whole : Nat :=
    if 0 ≤ x.exponent then x.mantissa * Nat.pow 2 x.exponent.toNat
    else x.mantissa / Nat.pow 2 (-x.exponent).toNat
  if x.negative then -(whole : Int) else whole

/-- The integer within 64 bits that is nearest to `n`. -/
def clamp (n : Int) : Int64 :=
  if n < Int64.minValue.toInt then Int64.minValue
  else if Int64.maxValue.toInt < n then Int64.maxValue
  else Int64.ofInt n

/-- A double without its fraction as a 64-bit integer: values out of range go to the nearest end
of the range, and what is not a number goes to zero. -/
def toInteger (x : Float) : Int64 :=
  match Shape.ofFloat x with
  | .nan => 0
  | .infinite true => Int64.minValue
  | .infinite false => Int64.maxValue
  | .finite value => clamp value.truncate

/-- The remainder of `x / y` with the sign of `x`, for finite `x` and `y ≠ 0`. The remainder of
the two mantissas over their common exponent is exact. -/
def Scaled.remainder (x y : Scaled) : Float :=
  let q := min x.exponent y.exponent
  let m := x.mantissa * Nat.pow 2 (x.exponent - q).toNat
  let n := y.mantissa * Nat.pow 2 (y.exponent - q).toNat
  let (num, den) := shiftDown (m % n) 1 (-q)
  nearest x.negative num den

/-- The remainder of the division of doubles that rounds its quotient toward zero. -/
def remainder (x y : Float) : Float :=
  match Shape.ofFloat x, Shape.ofFloat y with
  | .finite a, .finite b => if b.mantissa = 0 then 0.0 / 0.0 else a.remainder b
  | .finite _, .infinite _ => x
  | _, _ => 0.0 / 0.0

end BracketScript.Decimal
