import Mathlib
import BracketScript.Decimal.Binary

/-!
# Doubles and their bits

A finite double is held as `± m · 2 ^ q` by its bits, and nothing else is lost: the sign, the
mantissa and the exponent that `Shape.ofFloat` reads off a double put together give that double
again. The bits are taken apart as naturals, since the three fields are then remainders and
quotients of one number.

The lemmas on how a double is packed into bits, such as `Float.ofBits_toBits`, belong to no smaller
part of the library, and so all of it is imported.
-/

namespace BracketScript.Decimal

/-- The double is neither infinite nor what is not a number. -/
def IsFinite (x : Float) : Prop :=
  ∃ value, Shape.ofFloat x = .finite value

/-- The number has the form in which a double holds it: 53 bits of mantissa, all of them in use
unless the exponent is the least one. -/
structure Scaled.IsDouble (x : Scaled) : Prop where
  mantissa_lt : x.mantissa < 2 * hiddenBit
  exponent_ge : leastExponent ≤ x.exponent
  exponent_le : x.exponent ≤ 971
  isFull : leastExponent < x.exponent → hiddenBit ≤ x.mantissa

/-- The bits of the double that holds the number, without its sign. -/
def Scaled.bits (x : Scaled) : Nat :=
  (x.exponent - leastExponent).toNat * hiddenBit + x.mantissa

theorem Scaled.IsDouble.bits_lt {x : Scaled} (hx : x.IsDouble) : x.bits < infinityBits := by
  have hmantissa := hx.mantissa_lt
  have hleast := hx.exponent_ge
  have hmost := hx.exponent_le
  simp only [bits, infinityBits, leastExponent, hiddenBit] at *
  omega

/-- What is read off a finite double is the form in which the double holds it. -/
theorem of_ofFloat_eq_finite {x : Float} {value : Scaled} (h : Shape.ofFloat x = .finite value) :
    value.IsDouble ∧ signed value.negative value.bits = x := by
  have hlt := x.toBits.toNat_lt
  have hsigned : ∀ (bits : Nat) (negative : Bool),
      (bits + if negative then signBit else 0) = x.toBits.toNat → signed negative bits = x := by
    intro bits negative hbits
    rw [signed, hbits, Nat.toUInt64, UInt64.ofNat_toNat, Float.ofBits_toBits]
  simp only [Shape.ofFloat] at h
  generalize hn : x.toBits.toNat = n at *
  split at h
  · split at h <;> cases h
  · split at h
    -- with the least exponent the field is empty, and otherwise it counts from one
    all_goals
      cases h
      constructor
      · constructor <;> simp only [leastExponent, hiddenBit] at * <;> omega
      · apply hsigned
        simp only [Scaled.bits, decide_eq_true_eq]
        split <;> simp only [leastExponent, hiddenBit, signBit] at * <;> omega

open Float.Model Float.Model.UnpackedFloat in
/-- Bits that do not stand for what is not a number are kept. -/
theorem toBits_ofBits {bits : UInt64}
    (h : bits.toNat / hiddenBit % 2048 = 2047 → bits.toNat % hiddenBit = 0) :
    (Float.ofBits bits).toBits = bits := by
  have hnumber : ¬ @isNaNBits Format.binary64 bits.toBitVec = true := by
    simp only [isNaNBits, decide_eq_true_eq, not_and, not_not, unpackExponent_def,
      unpackMantissa_def]
    intro hfield
    have hfield := congrArg BitVec.toNat hfield
    apply BitVec.eq_of_toNat_eq
    rw [BitVec.extractLsb'_toNat] at hfield ⊢
    simp only [UInt64.toNat_toBitVec, Nat.shiftRight_eq_div_pow, Nat.reducePow, BitVec.reduceNeg,
      BitVec.toNat_ofNat, Nat.mod_succ, pow_zero, Nat.div_one, Nat.zero_mod] at hfield ⊢
    exact h hfield
  have hpack := @pack_unpack Format.binary64 bits.toBitVec (by decide)
  rw [if_neg hnumber] at hpack
  exact UInt64.toBitVec_inj.1 hpack

theorem toBits_signed (negative : Bool) {bits : Nat} (h : bits ≤ infinityBits) :
    (signed negative bits).toBits.toNat = bits + if negative then signBit else 0 := by
  have hword : (bits + if negative then signBit else 0).toUInt64.toNat =
      bits + if negative then signBit else 0 := by
    rw [Nat.toUInt64, UInt64.toNat_ofNat_of_lt']
    rw [infinityBits, hiddenBit] at h
    rw [signBit]
    split <;> simp only [UInt64.size] <;> omega
  rw [signed, toBits_ofBits, hword]
  rw [hword, hiddenBit, signBit]
  rw [infinityBits, hiddenBit] at h
  split <;> omega

/-- The fields of bits that have been given a sign. -/
theorem ofFloat_signed (negative : Bool) {bits : Nat} (h : bits ≤ infinityBits) :
    Shape.ofFloat (signed negative bits) =
      if bits / hiddenBit = 2047 then .infinite negative
      else if bits / hiddenBit = 0 then .finite ⟨negative, bits % hiddenBit, leastExponent⟩
      else .finite ⟨negative, bits % hiddenBit + hiddenBit,
        (bits / hiddenBit : Nat) + leastExponent - 1⟩ := by
  have hsign : decide (signBit ≤ bits + if negative then signBit else 0) = negative := by
    rw [infinityBits, hiddenBit] at h
    cases negative with
    | true => simp
    | false =>
      simp only [signBit, Bool.false_eq_true, if_false, decide_eq_false_iff_not]
      omega
  have hfield : (bits + if negative then signBit else 0) / hiddenBit % 2048 = bits / hiddenBit := by
    rw [infinityBits, hiddenBit] at h
    rw [hiddenBit, signBit]
    split <;> omega
  have hfraction : (bits + if negative then signBit else 0) % hiddenBit = bits % hiddenBit := by
    rw [hiddenBit, signBit]
    split <;> omega
  simp only [Shape.ofFloat, toBits_signed negative h, hsign, hfield, hfraction]
  rw [infinityBits] at h
  rw [hiddenBit] at *
  by_cases hinfinite : bits / 0x10000000000000 = 2047
  · rw [if_pos hinfinite, if_pos hinfinite, if_pos (by omega)]
  · rw [if_neg hinfinite, if_neg hinfinite]

theorem ofFloat_signed_infinityBits (negative : Bool) :
    Shape.ofFloat (signed negative infinityBits) = .infinite negative :=
  ofFloat_signed negative le_rfl

theorem isFinite_signed (negative : Bool) {bits : Nat} (h : bits < infinityBits) :
    IsFinite (signed negative bits) := by
  have hfield : bits / hiddenBit ≠ 2047 := by
    rw [infinityBits, hiddenBit] at h
    rw [hiddenBit]
    omega
  rw [IsFinite, ofFloat_signed negative h.le, if_neg hfield]
  split
  · exact ⟨_, rfl⟩
  · exact ⟨_, rfl⟩

end BracketScript.Decimal
