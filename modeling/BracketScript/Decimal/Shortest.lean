import BracketScript.Decimal.Binary

/-!
# Shortest decimals

`shortest` finds the decimal `c · 10 ^ k` with the fewest digits that rounds to a given positive
double; of two such decimals the nearer one wins, and at equal distance the larger.

All reals that round to `m · 2 ^ q` form an interval around it, closed exactly when `m` is even.
The search tests, on ever finer decimal grids, the two neighbours of the value on the grid; the
first grid with a neighbour in the interval gives the answer. Seventeen digits always suffice.
-/

namespace BracketScript.Decimal

/-- The decimal `digits · 10 ^ exponent`. -/
structure Digits where
  digits : Nat
  exponent : Int
  deriving DecidableEq, Repr

/-- The reals that round to a double, as naturals over the common divisor `unit`. -/
structure Rounding where
  low : Nat
  value : Nat
  high : Nat
  unit : Nat
  closed : Bool
  deriving DecidableEq, Repr

/-- The rounding interval of `m · 2 ^ q`, in quarters of `2 ^ q`. Below a power of two the doubles
lie twice as dense, so the interval reaches only half as far down. -/
def Rounding.ofScaled (m : Nat) (q : Int) : Rounding :=
  let below := if m = hiddenBit && leastExponent < q then 1 else 2
  let scale := Nat.pow 2 (q - 2).toNat
  { low := (4 * m - below) * scale
    value := 4 * m * scale
    high := (4 * m + 2) * scale
    unit := Nat.pow 2 (2 - q).toNat
    closed := m % 2 == 0 }

/-- The decimal `c · 10 ^ k` over the divisor `unit`, as a fraction. -/
def overUnit (unit c : Nat) (k : Int) : Nat × Nat :=
  (c * unit * Nat.pow 10 k.toNat, Nat.pow 10 (-k).toNat)

/-- The decimal `c · 10 ^ k` lies in the interval. -/
def Rounding.holds (r : Rounding) (c : Nat) (k : Int) : Bool :=
  let (n, d) := overUnit r.unit c k
  if r.closed then r.low * d ≤ n && n ≤ r.high * d else r.low * d < n && n < r.high * d

/-- The largest multiple of `10 ^ k` that does not exceed the value, divided by `10 ^ k`. -/
def Rounding.floor (r : Rounding) (k : Int) : Nat :=
  r.value * Nat.pow 10 (-k).toNat / (r.unit * Nat.pow 10 k.toNat)

/-- The multiple `c + 1` of `10 ^ k` is at least as near to the value as the multiple `c`. -/
def Rounding.prefersUp (r : Rounding) (c : Nat) (k : Int) : Bool :=
  let (n, d) := overUnit r.unit (2 * c + 1) k
  n ≤ 2 * r.value * d

/-- The neighbour of the value on the grid of the multiples of `10 ^ k` that rounds to it. -/
def Rounding.onGrid (r : Rounding) (k : Int) : Option Nat :=
  let c := r.floor k
  match r.holds c k, r.holds (c + 1) k with
  | true, true => some (if r.prefersUp c k then c + 1 else c)
  | true, false => some c
  | false, true => some (c + 1)
  | false, false => none

def digitCount (n : Nat) : Nat := (Nat.toDigits 10 n).length

/-- The exponent `e` with `10 ^ (e - 1) ≤ n / d < 10 ^ e`. -/
def magnitude (n d : Nat) : Int :=
  if d ≤ n then digitCount (n / d)
  else
    let count := digitCount (d / n)
    if d ≤ n * Nat.pow 10 (count - 1) then 2 - (count : Int) else 1 - (count : Int)

/-- The first hit on the grids of `10 ^ k`, `10 ^ (k - 1)` and so on, `count` of them. -/
def Rounding.search (r : Rounding) : (count : Nat) → (k : Int) → Digits
  | 0, k => ⟨r.floor k, k⟩
  | count + 1, k =>
    match r.onGrid k with
    | some c => ⟨c, k⟩
    | none => r.search count (k - 1)

/-- The shortest decimal that rounds to the positive double `m · 2 ^ q`. -/
def shortest (m : Nat) (q : Int) : Digits :=
  let r := Rounding.ofScaled m q
  r.search 17 (magnitude r.value r.unit - 1)

end BracketScript.Decimal
