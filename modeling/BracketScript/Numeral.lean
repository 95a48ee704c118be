import BracketScript.Decimal.Reading

/-!
# Numerals

A numeral is an optional sign, then digits, then optionally a point; a point must be followed by
digits and may stand in front of all of them: `12`, `-0.5`, `+.25`. Without a point it denotes an
integer, with one a real.
-/

namespace BracketScript

structure Numeral where
  negative : Bool
  whole : List Char
  /-- The digits after the point, if there is a point. -/
  fraction : Option (List Char)
  deriving DecidableEq, Repr

namespace Numeral

open Decimal (isDigit natOfDigits)

def read? (word : List Char) : Option Numeral :=
  let (negative, body) := Decimal.readSign word
  let whole := body.takeWhile isDigit
  match body.dropWhile isDigit with
  | [] => if whole.isEmpty then none else some ⟨negative, whole, none⟩
  | '.' :: fraction =>
    if !fraction.isEmpty && fraction.all isDigit then some ⟨negative, whole, some fraction⟩
    else none
  | _ => none

def isNumeral (word : List Char) : Bool :=
  (read? word).isSome

def integer (n : Numeral) : Int :=
  if n.negative then -(natOfDigits n.whole : Int) else natOfDigits n.whole

def real (n : Numeral) (fraction : List Char) : Float :=
  Decimal.ofDecimal n.negative (natOfDigits (n.whole ++ fraction)) (-(fraction.length : Int))

def toInt64? (n : Int) : Option Int64 :=
  if Int64.minValue.toInt ≤ n ∧ n ≤ Int64.maxValue.toInt then some (Int64.ofInt n) else none

/-- Read a word as an integer: an optional sign and digits that fit in 64 bits. -/
def readInteger? (word : List Char) : Option Int64 :=
  match read? word with
  | some n => if n.fraction.isNone then toInt64? n.integer else none
  | none => none

/-- The word begins like a numeral: with a digit, or with a sign, a point or both in front of a
digit. Such a word must be a numeral. -/
def begins : List Char → Bool
  | '+' :: '.' :: c :: _ => isDigit c
  | '-' :: '.' :: c :: _ => isDigit c
  | '+' :: c :: _ => isDigit c
  | '-' :: c :: _ => isDigit c
  | '.' :: c :: _ => isDigit c
  | c :: _ => isDigit c
  | [] => false

end Numeral

end BracketScript
