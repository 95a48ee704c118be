import BracketScript.Cell
import BracketScript.Decimal.Binary

/-!
# Numbers

Integers of 64 bits and doubles, and what the operators do with rows of them. Integers wrap around;
one real among the operands makes the whole computation a real one, and division always does.
Dividing by zero gives zero.
-/

namespace BracketScript

inductive Number where
  | integer (value : Int64)
  | real (value : Float)

namespace Number

def ofValue? : Value → Option Number
  | .integer value => some (.integer value)
  | .real value => some (.real value)
  | _ => none

def toReal : Number → Float
  | .integer value => Decimal.ofInt value.toInt
  | .real value => value

def integer? : Number → Option Int64
  | .integer value => some value
  | .real _ => none

def integers? : List Number → Option (List Int64)
  | [] => some []
  | n :: ns => do
    let value ← n.integer?
    let values ← integers? ns
    return value :: values

def isPositive (n : Number) : Bool :=
  0.0 < n.toReal

end Number

inductive ArithmeticOp where
  | add | subtract | multiply | divide | modulo
  deriving DecidableEq, Repr

namespace ArithmeticOp

/-- The operator on integers. Only the four that keep integers are used this way. -/
def onIntegers : ArithmeticOp → Int64 → Int64 → Int64
  | .add, a, b => a + b
  | .subtract, a, b => a - b
  | .multiply, a, b => a * b
  | .divide, a, b => if b = 0 then 0 else a / b
  | .modulo, a, b => if b = 0 then 0 else a % b

def onReals : ArithmeticOp → Float → Float → Float
  | .add, a, b => a + b
  | .subtract, a, b => a - b
  | .multiply, a, b => a * b
  | .divide, a, b => if b == 0.0 then 0.0 else a / b
  | .modulo, a, b => if b == 0.0 then 0.0 else Decimal.remainder a b

def apply (op : ArithmeticOp) (first : Number) (others : List Number) : Value :=
  match op, Number.integers? (first :: others) with
  | .divide, _ | _, none | _, some [] =>
    .real (others.foldl (fun acc n => op.onReals acc n.toReal) first.toReal)
  | _, some (n :: ns) => .integer (ns.foldl op.onIntegers n)

end ArithmeticOp

inductive ComparisonOp where
  | equal | notEqual | below | above | atMost | atLeast
  deriving DecidableEq, Repr

namespace ComparisonOp

def orderReals (a b : Float) : Option Ordering :=
  if a < b then some .lt else if b < a then some .gt else if a == b then some .eq else none

def order : Number → Number → Option Ordering
  | .integer a, .integer b => some (compare a.toInt b.toInt)
  | a, b => orderReals a.toReal b.toReal

/-- The comparison holds of two numbers. Numbers that do not compare differ. -/
def holds (op : ComparisonOp) (a b : Number) : Bool :=
  match order a b with
  | none => op == .notEqual
  | some ordering =>
    match op with
    | .equal => ordering.isEq
    | .notEqual => ordering.isNe
    | .below => ordering.isLT
    | .above => ordering.isGT
    | .atMost => ordering.isLE
    | .atLeast => ordering.isGE

def holdsAlong (op : ComparisonOp) : List Number → Bool
  | a :: b :: rest => op.holds a b && op.holdsAlong (b :: rest)
  | _ => true

end ComparisonOp

inductive LogicOp where
  | and | or | xor
  deriving DecidableEq, Repr

def LogicOp.apply : LogicOp → Bool → Bool → Bool
  | .and, a, b => a && b
  | .or, a, b => a || b
  | .xor, a, b => a != b

inductive BitOp where
  | and | or | xor
  deriving DecidableEq, Repr

def BitOp.apply : BitOp → Int64 → Int64 → Int64
  | .and, a, b => a &&& b
  | .or, a, b => a ||| b
  | .xor, a, b => a ^^^ b

inductive ShiftOp where
  | left | right
  deriving DecidableEq, Repr

namespace ShiftOp

/-- The amount of a shift as a natural below `2 ^ 32`, if it is one. -/
def amount? (n : Int64) : Option Nat :=
  if 0 ≤ n.toInt ∧ n.toInt < 0x100000000 then some n.toInt.toNat else none

/-- Shift the bits of an integer, to the right with its sign; the amount counts modulo 64. -/
def apply (op : ShiftOp) (value : Int64) (amount : Nat) : Int64 :=
  let places := Int64.ofNat (amount % 64)
  match op with
  | .left => value <<< places
  | .right => value >>> places

end ShiftOp

end BracketScript
