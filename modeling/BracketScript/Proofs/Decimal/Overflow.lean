import BracketScript.Proofs.Decimal.Rounding

/-!
# Decimals beyond the range of doubles

Half a unit in the last place above the largest finite double lies the least decimal that is read as
an infinity: its mantissa would be rounded up to `2 ^ 53` at the largest exponent, since `2 ^ 53` is
even, and carry into the exponent field of the infinities. `ofDecimal_spec` says that this holds for
every decimal, those included that are decided by their order of magnitude alone.
-/

namespace BracketScript.Decimal

/-- The least number that is too large for a double. -/
def overflowThreshold : ℚ := 2 ^ (1024 : Int) - 2 ^ (970 : Int)

theorem hiddenBit_mul_zpow (e : Int) : (hiddenBit : ℚ) * 2 ^ e = 2 ^ (52 + e) := by
  rw [zpow_add₀ two_ne_zero]
  norm_num [hiddenBit]

theorem overflowThreshold_eq : overflowThreshold = (2 * hiddenBit - 1 / 2) * 2 ^ (971 : Int) := by
  have hhalf : (2 : ℚ) ^ (971 : Int) = 2 * 2 ^ (970 : Int) := by
    rw [← zpow_one_add₀ two_ne_zero]
    norm_num
  have htop : (2 : ℚ) ^ (1024 : Int) = 2 * (hiddenBit * 2 ^ (971 : Int)) := by
    rw [hiddenBit_mul_zpow, ← zpow_one_add₀ two_ne_zero]
    norm_num
  rw [overflowThreshold, htop, hhalf]
  ring

theorem lt_overflowThreshold : (2 : ℚ) ^ (1023 : Int) < overflowThreshold := by
  have htop : (2 : ℚ) ^ (1024 : Int) = 2 ^ (1023 : Int) + 2 ^ (1023 : Int) := by
    rw [← two_mul, ← zpow_one_add₀ two_ne_zero]
    norm_num
  rw [overflowThreshold, htop, add_sub_assoc]
  exact lt_add_of_pos_right _ (sub_pos.2 (zpow_lt_zpow_right₀ one_lt_two (by norm_num)))

theorem overflowThreshold_lt : overflowThreshold < 2 ^ (1024 : Int) :=
  sub_lt_self _ (by positivity)

/-! ### Rounding -/

/-- A quotient is rounded to an even number or beyond from half a unit below on. -/
theorem le_roundHalfEven_iff {n d m : Nat} (hd : 0 < d) (hm : m % 2 = 0) :
    m ≤ roundHalfEven n d ↔ (m : ℚ) - 1 / 2 ≤ n / d := by
  have hcast : (m : ℚ) - 1 / 2 ≤ n / d ↔ 2 * (m * d) ≤ 2 * n + d := by
    have hd' : (0 : ℚ) < d := by exact_mod_cast hd
    rw [le_div_iff₀ hd', ← Nat.cast_le (α := ℚ)]
    push_cast
    constructor <;> intro h <;> linarith
  have hmod := Nat.mod_lt n hd
  have hdiv := Nat.div_add_mod n d
  rw [hcast]
  simp only [roundHalfEven]
  generalize n % d = r at *
  generalize n / d = k at *
  subst hdiv
  rcases lt_trichotomy m (k + 1) with hlt | rfl | hgt
  · have hle : m * d ≤ d * k := by
      rw [Nat.mul_comm d k]
      exact Nat.mul_le_mul_right d (by omega)
    grind
  · -- here `k` is odd, so that a tie goes up
    rw [Nat.add_mul, Nat.mul_comm d k]
    grind
  · have hge : d * k + 2 * d ≤ m * d := by
      rw [← Nat.mul_comm k d, ← Nat.add_mul]
      exact Nat.mul_le_mul_right d (by omega)
    grind

theorem roundHalfEven_le {n d m : Nat} (hd : 0 < d) (h : (n : ℚ) / d < m) :
    roundHalfEven n d ≤ m := by
  have hlt : n / d < m := by
    rw [div_lt_iff₀ (by exact_mod_cast hd)] at h
    exact (Nat.div_lt_iff_lt_mul hd).2 (by exact_mod_cast h)
  rw [roundHalfEven]
  split <;> omega

theorem nearestBits_le (n d : Nat) : nearestBits n d ≤ infinityBits := by
  rw [nearestBits]
  split
  · exact Nat.zero_le _
  · exact min_le_left _ _

/-- A quotient is rounded to infinity from the threshold on. -/
theorem nearestBits_eq_infinityBits_iff {n d : Nat} (hn : 0 < n) (hd : 0 < d) :
    nearestBits n d = infinityBits ↔ overflowThreshold ≤ n / d := by
  obtain ⟨N, D, q, hD, hquot, hq, hupper, hfull, hbits⟩ := nearestBits_spec hn hd
  have htwo : (0 : ℚ) < 2 ^ q := by positivity
  have hvalue : (n : ℚ) / d = N / D * 2 ^ q := by
    rw [hquot, div_mul_cancel₀ _ htwo.ne']
  have hmost : roundHalfEven N D ≤ 2 * hiddenBit := roundHalfEven_le hD (by exact_mod_cast hupper)
  rw [hbits, min_eq_left_iff, hvalue]
  rcases lt_trichotomy q 971 with hlt | rfl | hgt
  · -- the largest exponent is not reached, not even by a carry
    refine iff_of_false ?_ ?_
    · simp only [infinityBits, leastExponent, hiddenBit] at *
      omega
    · rw [not_le]
      calc (N : ℚ) / D * 2 ^ q < 2 * hiddenBit * 2 ^ q := by gcongr
        _ ≤ 2 * hiddenBit * 2 ^ (970 : Int) := by
          gcongr
          · norm_num
          · omega
        _ = 2 ^ (1023 : Int) := by
          rw [mul_assoc, hiddenBit_mul_zpow, ← zpow_one_add₀ two_ne_zero]
          norm_num
        _ < overflowThreshold := lt_overflowThreshold
  · have hround := le_roundHalfEven_iff (n := N) (m := 2 * hiddenBit) hD (by decide)
    push_cast at hround
    rw [overflowThreshold_eq, mul_le_mul_iff_left₀ htwo, ← hround]
    simp only [infinityBits, leastExponent, hiddenBit] at *
    omega
  · have hhidden : (hiddenBit : ℚ) ≤ N / D := hfull (by rw [leastExponent]; omega)
    refine iff_of_true ?_ ?_
    · have hrounded : hiddenBit ≤ roundHalfEven N D := by
        rw [le_roundHalfEven_iff hD (by decide)]
        linarith
      simp only [infinityBits, leastExponent, hiddenBit] at *
      omega
    · calc overflowThreshold ≤ 2 ^ (1024 : Int) := overflowThreshold_lt.le
        _ = hiddenBit * 2 ^ (972 : Int) := by
          rw [hiddenBit_mul_zpow]
          norm_num
        _ ≤ N / D * 2 ^ q := by
          gcongr
          · norm_num
          · omega

/-- A decimal is read as an infinity from the threshold on. -/
theorem ofDecimal_spec (negative : Bool) (digits : Nat) (exponent : Int) :
    ∃ bits ≤ infinityBits, ofDecimal negative digits exponent = signed negative bits ∧
      (bits = infinityBits ↔ overflowThreshold ≤ digits * 10 ^ exponent) := by
  have hzero : (0 : Nat) ≠ infinityBits := by decide
  have hsmall {y : ℚ} (h : y < 2 ^ (1023 : Int)) : ¬ overflowThreshold ≤ y :=
    not_le.2 (h.trans lt_overflowThreshold)
  by_cases hdigits : digits = 0
  · refine ⟨0, by decide, by simp [ofDecimal, hdigits], iff_of_false hzero (hsmall ?_)⟩
    rw [hdigits, Nat.cast_zero, zero_mul]
    positivity
  · by_cases htiny : exponent + 4 * (digits.log2 : Int) / 10 + 1 < -400
    · refine ⟨0, by decide, by simp [ofDecimal, htiny], iff_of_false hzero (hsmall ?_)⟩
      have hlow := not_le.1 fun h => not_tooSmall h htiny
      exact hlow.trans (zpow_lt_zpow_right₀ one_lt_two (by norm_num))
    · by_cases hhuge : 400 < exponent + 3 * (digits.log2 : Int) / 10
      · refine ⟨infinityBits, le_rfl, ?_, iff_of_true rfl ?_⟩
        · simp only [ofDecimal]
          rw [if_neg (by simpa [hdigits] using htiny), if_pos hhuge]
        · have hhigh := not_lt.1 fun h => not_tooLarge hdigits h hhuge
          exact overflowThreshold_lt.le.trans hhigh
      · refine ⟨_, nearestBits_le (digits * Nat.pow 10 exponent.toNat)
          (Nat.pow 10 (-exponent).toNat), ?_, ?_⟩
        · simp only [ofDecimal]
          rw [if_neg (by simpa [hdigits] using htiny), if_neg hhuge, nearest]
        · rw [← quotient_eq digits exponent]
          exact nearestBits_eq_infinityBits_iff
            (Nat.mul_pos (Nat.pos_of_ne_zero hdigits) (Nat.pow_pos (by decide)))
            (Nat.pow_pos (by decide))

end BracketScript.Decimal
