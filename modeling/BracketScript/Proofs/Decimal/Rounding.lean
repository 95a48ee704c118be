import BracketScript.Decimal.Reading
import BracketScript.Proofs.Decimal.Bits

/-!
# Rounding to the nearest double

`Scaled.Attracts x y` says that the rational `y` lies in the rounding interval of the double `x`.
The main statement of the module is that reading a decimal in this interval gives the double. Three
places of the computation have to be looked at: the exponent that is chosen for the quotient, the
rounding of the mantissa, and the shortcut for decimals far out of range.
-/

namespace BracketScript.Decimal

/-- A power with an integer exponent as a quotient of natural powers. -/
theorem zpow_eq_toNat_div {b : ℚ} (hb : b ≠ 0) (k : Int) :
    b ^ k = b ^ k.toNat / b ^ (-k).toNat := by
  rw [eq_div_iff (pow_ne_zero _ hb), ← zpow_natCast b, ← zpow_natCast b, ← zpow_add₀ hb]
  congr 1
  omega

/-- A number in units of one exponent, given in units of another. -/
theorem div_two_zpow_eq {y z : ℚ} {q : Int} (h : z = y / 2 ^ q) (e : Int) :
    y / 2 ^ e = z * 2 ^ (q - e) := by
  rw [h, zpow_sub₀ two_ne_zero]
  field_simp

/-! ### The mantissa -/

theorem roundHalfEven_eq_of_bounds {n d m : Nat} (hd : 0 < d)
    (hlow : 2 * (m * d) ≤ 2 * n + d) (hhigh : 2 * n ≤ 2 * (m * d) + d)
    (hends : m % 2 = 0 ∨ (2 * (m * d) < 2 * n + d ∧ 2 * n < 2 * (m * d) + d)) :
    roundHalfEven n d = m := by
  have hmod := Nat.mod_lt n hd
  have hdiv := Nat.div_add_mod n d
  simp only [roundHalfEven]
  generalize n % d = r at *
  generalize n / d = k at *
  -- the quotient rounded down is `m` or the number in front of it
  have hcases : k = m ∨ k + 1 = m := by
    have hle : k ≤ m := by
      by_contra hlt
      have : d * (m + 1) ≤ d * k := Nat.mul_le_mul_left d (by omega)
      nlinarith
    have hge : m ≤ k + 1 := by
      by_contra hlt
      have : d * (k + 2) ≤ d * m := Nat.mul_le_mul_left d (by omega)
      nlinarith
    omega
  rcases hcases with rfl | rfl
  · rw [Nat.mul_comm k d] at hlow hhigh hends
    generalize d * k = t at *
    grind
  · rw [show (k + 1) * d = d * k + d by ring] at hlow hhigh hends
    generalize d * k = t at *
    grind

/-- A quotient less than half a unit away from `m` is rounded to `m`, and so is one exactly half a
unit away if `m` is even. -/
theorem roundHalfEven_eq {n d m : Nat} (hd : 0 < d)
    (hlow : (m : ℚ) - 1 / 2 ≤ n / d) (hhigh : (n : ℚ) / d ≤ m + 1 / 2)
    (hends : m % 2 = 0 ∨ ((m : ℚ) - 1 / 2 < n / d ∧ (n : ℚ) / d < m + 1 / 2)) :
    roundHalfEven n d = m := by
  have hd' : (0 : ℚ) < d := by exact_mod_cast hd
  rw [le_div_iff₀ hd'] at hlow
  rw [div_le_iff₀ hd'] at hhigh
  rw [lt_div_iff₀ hd', div_lt_iff₀ hd'] at hends
  apply roundHalfEven_eq_of_bounds hd
  · have : (2 * (m * d) : ℚ) ≤ 2 * n + d := by linarith
    exact_mod_cast this
  · have : (2 * n : ℚ) ≤ 2 * (m * d) + d := by linarith
    exact_mod_cast this
  · refine hends.imp_right fun ⟨h₁, h₂⟩ => ⟨?_, ?_⟩
    · have : (2 * (m * d) : ℚ) < 2 * n + d := by linarith
      exact_mod_cast this
    · have : (2 * n : ℚ) < 2 * (m * d) + d := by linarith
      exact_mod_cast this

/-! ### The exponent -/

theorem shiftDown_div (n d : Nat) (q : Int) :
    ((shiftDown n d q).1 : ℚ) / (shiftDown n d q).2 = (n : ℚ) / d / 2 ^ q := by
  rw [zpow_eq_toNat_div two_ne_zero, shiftDown]
  split
  · next h =>
    rw [show (-q).toNat = 0 by omega]
    simp [div_div]
  · next h =>
    rw [show q.toNat = 0 by omega]
    simp
    ring

theorem shiftDown_pos {n d : Nat} (hd : 0 < d) (q : Int) : 0 < (shiftDown n d q).2 := by
  unfold shiftDown
  split
  · exact Nat.mul_pos hd (Nat.pow_pos (by decide))
  · exact hd

/-- The logarithms of two naturals give their quotient up to a factor of two. -/
theorem div_bounds_of_log2 {n d : Nat} (hn : 0 < n) (hd : 0 < d) :
    (2 : ℚ) ^ ((n.log2 : Int) - d.log2 - 1) < n / d ∧
      (n : ℚ) / d < 2 ^ ((n.log2 : Int) - d.log2 + 1) := by
  have hd' : (0 : ℚ) < d := by exact_mod_cast hd
  have hn₁ : (2 : ℚ) ^ (n.log2 : Int) ≤ n := by exact_mod_cast Nat.log2_self_le hn.ne'
  have hn₂ : (n : ℚ) < 2 ^ ((n.log2 : Int) + 1) := by exact_mod_cast Nat.lt_log2_self
  have hd₁ : (2 : ℚ) ^ (d.log2 : Int) ≤ d := by exact_mod_cast Nat.log2_self_le hd.ne'
  have hd₂ : (d : ℚ) < 2 ^ ((d.log2 : Int) + 1) := by exact_mod_cast Nat.lt_log2_self
  constructor
  · rw [lt_div_iff₀ hd']
    calc (2 : ℚ) ^ ((n.log2 : Int) - d.log2 - 1) * d
        < 2 ^ ((n.log2 : Int) - d.log2 - 1) * 2 ^ ((d.log2 : Int) + 1) := by gcongr
      _ = 2 ^ (n.log2 : Int) := by
        rw [← zpow_add₀ two_ne_zero]
        congr 1
        omega
      _ ≤ n := hn₁
  · rw [div_lt_iff₀ hd']
    calc (n : ℚ) < 2 ^ ((n.log2 : Int) + 1) := hn₂
      _ = 2 ^ ((n.log2 : Int) - d.log2 + 1) * 2 ^ (d.log2 : Int) := by
        rw [← zpow_add₀ two_ne_zero]
        congr 1
        omega
      _ ≤ 2 ^ ((n.log2 : Int) - d.log2 + 1) * d := by gcongr

/-- The exponent that is chosen leaves 53 bits in front of the point, or fewer if it is the least
one. -/
theorem nearestBits_spec {n d : Nat} (hn : 0 < n) (hd : 0 < d) :
    ∃ (N D : Nat) (q : Int), 0 < D ∧ (N : ℚ) / D = (n : ℚ) / d / 2 ^ q ∧ leastExponent ≤ q ∧
      (N : ℚ) / D < 2 * hiddenBit ∧ (leastExponent < q → (hiddenBit : ℚ) ≤ N / D) ∧
      nearestBits n d =
        min infinityBits ((q - leastExponent).toNat * hiddenBit + roundHalfEven N D) := by
  obtain ⟨hlow, hhigh⟩ := div_bounds_of_log2 hn hd
  set e : Int := (n.log2 : Int) - d.log2
  set q := max leastExponent (e - 53) with hq
  have hshift := shiftDown_div n d q
  have hpos := shiftDown_pos hd (n := n) q
  have hpos' : (0 : ℚ) < (shiftDown n d q).2 := by exact_mod_cast hpos
  have hleast : leastExponent ≤ q := le_max_left _ _
  have htwo : (0 : ℚ) < 2 ^ q := by positivity
  have hhidden : (hiddenBit : ℚ) = 2 ^ (52 : Int) := by norm_num [hiddenBit]
  -- the quotient is below `2 ^ 54`, and above `2 ^ 52` unless `q` is the least exponent
  have hupper : (n : ℚ) / d / 2 ^ q < 2 ^ (54 : Int) := by
    rw [div_lt_iff₀ htwo, ← zpow_add₀ two_ne_zero]
    exact hhigh.trans_le (zpow_le_zpow_right₀ one_le_two (by omega))
  have hlower : leastExponent < q → (2 : ℚ) ^ (52 : Int) ≤ (n : ℚ) / d / 2 ^ q := by
    intro h
    rw [le_div_iff₀ htwo, ← zpow_add₀ two_ne_zero]
    exact (zpow_le_zpow_right₀ one_le_two (by omega)).trans hlow.le
  have hunfold : nearestBits n d =
      if 2 * hiddenBit ≤ (shiftDown n d q).1 / (shiftDown n d q).2 then
        min infinityBits ((q + 1 - leastExponent).toNat * hiddenBit +
          roundHalfEven (shiftDown n d q).1 (2 * (shiftDown n d q).2))
      else
        min infinityBits ((q - leastExponent).toNat * hiddenBit +
          roundHalfEven (shiftDown n d q).1 (shiftDown n d q).2) := by
    simp only [nearestBits, if_neg hn.ne']
    split <;> rfl
  have hfull : 2 * hiddenBit ≤ (shiftDown n d q).1 / (shiftDown n d q).2 ↔
      2 * (hiddenBit : ℚ) ≤ (shiftDown n d q).1 / (shiftDown n d q).2 := by
    rw [Nat.le_div_iff_mul_le hpos, le_div_iff₀ hpos']
    exact_mod_cast Iff.rfl
  rw [← hshift] at hupper hlower
  by_cases hbig : 2 * hiddenBit ≤ (shiftDown n d q).1 / (shiftDown n d q).2
  · rw [if_pos hbig] at hunfold
    refine ⟨_, 2 * (shiftDown n d q).2, q + 1, by omega, ?_, by omega, ?_, ?_, hunfold⟩
    · rw [Nat.cast_mul, mul_comm, ← div_div, hshift, zpow_add_one₀ two_ne_zero, ← div_div]
      rfl
    · rw [Nat.cast_mul, mul_comm, ← div_div, hhidden]
      norm_num at hupper ⊢
      linarith
    · intro _
      rw [Nat.cast_mul, mul_comm, ← div_div]
      have := hfull.1 hbig
      norm_num at this ⊢
      linarith
  · rw [if_neg hbig] at hunfold
    refine ⟨_, _, q, hpos, hshift, hleast, ?_, ?_, hunfold⟩
    · exact not_le.1 fun h => hbig (hfull.2 h)
    · intro h
      rw [hhidden]
      exact hlower h

/-! ### The rounding interval -/

/-- How far the rounding interval of a double reaches down, in units of its last place. Below a
power of two the doubles lie twice as dense. -/
def Scaled.reachDown (x : Scaled) : ℚ :=
  if x.mantissa = hiddenBit ∧ leastExponent < x.exponent then 1 / 4 else 1 / 2

/-- The number `y` lies in the rounding interval of a double, whose ends belong to it if the
mantissa is even. -/
structure Scaled.Attracts (x : Scaled) (y : ℚ) : Prop where
  low : x.mantissa - x.reachDown ≤ y / 2 ^ x.exponent
  high : y / 2 ^ x.exponent ≤ x.mantissa + 1 / 2
  ends : x.mantissa % 2 = 0 ∨
    (x.mantissa - x.reachDown < y / 2 ^ x.exponent ∧ y / 2 ^ x.exponent < x.mantissa + 1 / 2)

namespace Scaled

theorem reachDown_le (x : Scaled) : x.reachDown ≤ 1 / 2 := by
  unfold reachDown
  split <;> norm_num

theorem Attracts.roundHalfEven_eq {x : Scaled} {y : ℚ} (h : x.Attracts y) {n d : Nat}
    (hd : 0 < d) (hquot : (n : ℚ) / d = y / 2 ^ x.exponent) :
    roundHalfEven n d = x.mantissa := by
  have hreach := x.reachDown_le
  apply Decimal.roundHalfEven_eq hd
  · rw [hquot]
    linarith [h.low]
  · rw [hquot]
    exact h.high
  · rw [hquot]
    exact h.ends.imp_right fun ⟨h₁, h₂⟩ => ⟨by linarith, h₂⟩

/-- A value in the interval whose own exponent is smaller than that of the double lies right below a
power of two, and it is rounded up to that power. -/
theorem IsDouble.bits_of_lower {x : Scaled} (hx : x.IsDouble) {y : ℚ} (h : x.Attracts y)
    {n d : Nat} {q : Int} (hd : 0 < d) (hquot : (n : ℚ) / d = y / 2 ^ q)
    (hupper : (n : ℚ) / d < 2 * hiddenBit) (hleast : leastExponent ≤ q) (hlt : q < x.exponent) :
    (q - leastExponent).toNat * hiddenBit + roundHalfEven n d = x.bits := by
  have hfull := hx.isFull (hleast.trans_lt hlt)
  have hhidden : (hiddenBit : ℚ) = 4503599627370496 := by norm_num [hiddenBit]
  have hscale := div_two_zpow_eq hquot x.exponent
  have hlow := h.low
  have hreach := x.reachDown_le
  have hnonneg : (0 : ℚ) ≤ n / d := by positivity
  rw [hscale] at hlow
  have hhalf : (2 : ℚ) ^ (q - x.exponent) ≤ 1 / 2 := by
    simpa using zpow_le_zpow_right₀ (one_le_two (α := ℚ)) (show q - x.exponent ≤ -1 by omega)
  have hmantissa : x.mantissa = hiddenBit := by
    by_contra hne
    have : (hiddenBit : ℚ) + 1 ≤ x.mantissa := by
      exact_mod_cast (show hiddenBit + 1 ≤ x.mantissa by omega)
    nlinarith
  have hquarter : x.reachDown = 1 / 4 := by
    rw [reachDown, if_pos ⟨hmantissa, hleast.trans_lt hlt⟩]
  rw [hmantissa, hquarter] at hlow
  have hnext : q = x.exponent - 1 := by
    by_contra hne
    have hfourth : (2 : ℚ) ^ (q - x.exponent) ≤ 1 / 4 := by
      have := zpow_le_zpow_right₀ (one_le_two (α := ℚ)) (show q - x.exponent ≤ -2 by omega)
      norm_num at this ⊢
      exact this
    nlinarith
  rw [hnext, show x.exponent - 1 - x.exponent = -1 by ring, zpow_neg_one] at hlow
  have hround : roundHalfEven n d = 2 * hiddenBit := by
    apply Decimal.roundHalfEven_eq hd
    · push_cast
      linarith
    · push_cast
      linarith
    · exact .inl (by decide)
  rw [hround, bits, hmantissa, hnext]
  have := hx.exponent_ge
  simp only [leastExponent, hiddenBit] at *
  omega

/-- A quotient in the rounding interval of a double is rounded to it. -/
theorem IsDouble.nearestBits_eq {x : Scaled} (hx : x.IsDouble) (hpos : 0 < x.mantissa)
    {n d : Nat} (hd : 0 < d) (h : x.Attracts (n / d)) : nearestBits n d = x.bits := by
  have hmantissa : (1 : ℚ) ≤ x.mantissa := by exact_mod_cast hpos
  have hmost : (x.mantissa : ℚ) + 1 ≤ 2 * hiddenBit := by exact_mod_cast hx.mantissa_lt
  have hreach := x.reachDown_le
  have hn : 0 < n := by
    by_contra hn
    obtain rfl : n = 0 := by omega
    have := h.low
    norm_num at this
    linarith
  obtain ⟨N, D, q, hD, hquot, hq, hupper, hlower, heq⟩ := nearestBits_spec hn hd
  have hround : (q - leastExponent).toNat * hiddenBit + roundHalfEven N D = x.bits := by
    rcases lt_trichotomy q x.exponent with hlt | rfl | hgt
    · exact hx.bits_of_lower h hD hquot hupper hq hlt
    · rw [h.roundHalfEven_eq hD hquot, bits]
    · -- a larger exponent would need a value of at least `2 ^ 53` units
      have hscale := div_two_zpow_eq hquot x.exponent
      have hbig : (2 : ℚ) ≤ 2 ^ (q - x.exponent) := by
        simpa using zpow_le_zpow_right₀ (one_le_two (α := ℚ)) (show 1 ≤ q - x.exponent by omega)
      have hfull := hlower (hx.exponent_ge.trans_lt hgt)
      have hhigh := h.high
      rw [hscale] at hhigh
      nlinarith
  rw [heq, hround]
  exact min_eq_right hx.bits_lt.le

/-- The rounding intervals of positive doubles lie between the half of the least double and the
first power of two that is too large. -/
theorem IsDouble.range_of_attracts {x : Scaled} (hx : x.IsDouble) (hpos : 0 < x.mantissa) {y : ℚ}
    (h : x.Attracts y) : (2 : ℚ) ^ (-1075 : Int) ≤ y ∧ y < 2 ^ (1024 : Int) := by
  have htwo : (0 : ℚ) < 2 ^ x.exponent := by positivity
  have hmantissa : (1 : ℚ) ≤ x.mantissa := by exact_mod_cast hpos
  have hmost : (x.mantissa : ℚ) + 1 ≤ 2 ^ (53 : Int) := by
    have := hx.mantissa_lt
    simp only [hiddenBit] at this
    norm_num
    exact_mod_cast this
  have hlow := h.low
  have hhigh := h.high
  have hreach := x.reachDown_le
  rw [le_div_iff₀ htwo] at hlow
  rw [div_le_iff₀ htwo] at hhigh
  constructor
  · have hhalf : (2 : ℚ) ^ (-1075 : Int) = 1 / 2 * 2 ^ (-1074 : Int) := by
      rw [show (-1075 : Int) = -1 + -1074 by norm_num, zpow_add₀ two_ne_zero, zpow_neg_one, one_div]
    calc (2 : ℚ) ^ (-1075 : Int) = 1 / 2 * 2 ^ (-1074 : Int) := hhalf
      _ ≤ 1 / 2 * 2 ^ x.exponent := by
        gcongr
        · norm_num
        · exact hx.exponent_ge
      _ ≤ y := by nlinarith
  · calc y < 2 ^ (53 : Int) * 2 ^ x.exponent := by nlinarith
      _ ≤ 2 ^ (53 : Int) * 2 ^ (971 : Int) := by
        gcongr
        · norm_num
        · exact hx.exponent_le
      _ = 2 ^ (1024 : Int) := by
        rw [← zpow_add₀ two_ne_zero]
        norm_num

end Scaled

/-! ### Decimals far out of range -/

/-- A binary digit counts as at most four tenths of a decimal one. -/
theorem two_pow_le (b : Nat) : 2 ^ b ≤ 10 ^ (4 * b / 10 + 1) := by
  obtain ⟨a, r, hr, rfl⟩ : ∃ a r, r < 10 ∧ b = 10 * a + r :=
    ⟨b / 10, b % 10, Nat.mod_lt b (by decide), (Nat.div_add_mod b 10).symm⟩
  have hrest : 2 ^ r ≤ 10 ^ (4 * r / 10 + 1) := by
    interval_cases r <;> decide
  have hexponent : 4 * (10 * a + r) / 10 + 1 = 4 * a + (4 * r / 10 + 1) := by omega
  calc 2 ^ (10 * a + r) = (2 ^ 10) ^ a * 2 ^ r := by rw [pow_add, pow_mul]
    _ ≤ (10 ^ 4) ^ a * 10 ^ (4 * r / 10 + 1) :=
      Nat.mul_le_mul (Nat.pow_le_pow_left (by decide) a) hrest
    _ = 10 ^ (4 * (10 * a + r) / 10 + 1) := by rw [hexponent, ← pow_mul, ← pow_add]

/-- A binary digit counts as at least three tenths of a decimal one. -/
theorem le_two_pow (b : Nat) : 10 ^ (3 * b / 10) ≤ 2 ^ b := by
  obtain ⟨a, r, hr, rfl⟩ : ∃ a r, r < 10 ∧ b = 10 * a + r :=
    ⟨b / 10, b % 10, Nat.mod_lt b (by decide), (Nat.div_add_mod b 10).symm⟩
  have hrest : 10 ^ (3 * r / 10) ≤ 2 ^ r := by
    interval_cases r <;> decide
  have hexponent : 3 * (10 * a + r) / 10 = 3 * a + 3 * r / 10 := by omega
  calc 10 ^ (3 * (10 * a + r) / 10) = (10 ^ 3) ^ a * 10 ^ (3 * r / 10) := by
        rw [hexponent, pow_add, pow_mul]
    _ ≤ (2 ^ 10) ^ a * 2 ^ r := Nat.mul_le_mul (Nat.pow_le_pow_left (by decide) a) hrest
    _ = 2 ^ (10 * a + r) := by rw [pow_add, pow_mul]

theorem two_zpow_le_ten_zpow : (2 : ℚ) ^ (1203 : Int) ≤ 10 ^ (401 : Int) := by
  rw [show (1203 : Int) = 3 * 401 by norm_num, zpow_mul]
  exact zpow_le_zpow_left₀ (by norm_num) (by norm_num) (by norm_num)

/-- A decimal within the range of doubles is not taken for too small. -/
theorem not_tooSmall {digits : Nat} {exponent : Int}
    (h : (2 : ℚ) ^ (-1075 : Int) ≤ digits * 10 ^ exponent) :
    ¬ exponent + 4 * (digits.log2 : Int) / 10 + 1 < -400 := by
  intro hlt
  have hlog : (digits : ℚ) ≤ 2 * 2 ^ digits.log2 := by
    have := (Nat.lt_log2_self (n := digits)).le
    rw [pow_succ, mul_comm] at this
    exact_mod_cast this
  have hpow : (2 : ℚ) ^ digits.log2 ≤ 10 ^ (4 * (digits.log2 : Int) / 10 + 1) := by
    exact_mod_cast two_pow_le digits.log2
  have hsmall : (digits : ℚ) * 10 ^ exponent < 2 ^ (-1075 : Int) := by
    calc (digits : ℚ) * 10 ^ exponent
        ≤ 2 * 10 ^ (4 * (digits.log2 : Int) / 10 + 1) * 10 ^ exponent := by
          gcongr
          linarith
      _ = 2 * 10 ^ (4 * (digits.log2 : Int) / 10 + 1 + exponent) := by
        rw [mul_assoc, ← zpow_add₀ (by norm_num)]
      _ ≤ 2 * 10 ^ (-401 : Int) := by
        gcongr
        · norm_num
        · omega
      _ ≤ 2 * 2 ^ (-1203 : Int) := by
        rw [zpow_neg, zpow_neg]
        gcongr
        exact two_zpow_le_ten_zpow
      _ = 2 ^ (-1202 : Int) := by
        rw [← zpow_one_add₀ two_ne_zero]
        norm_num
      _ < 2 ^ (-1075 : Int) := zpow_lt_zpow_right₀ one_lt_two (by norm_num)
  exact absurd h hsmall.not_ge

/-- A decimal within the range of doubles is not taken for too large. -/
theorem not_tooLarge {digits : Nat} {exponent : Int} (hdigits : digits ≠ 0)
    (h : (digits : ℚ) * 10 ^ exponent < 2 ^ (1024 : Int)) :
    ¬ 400 < exponent + 3 * (digits.log2 : Int) / 10 := by
  intro hlt
  have hlog : (2 : ℚ) ^ digits.log2 ≤ digits := by exact_mod_cast Nat.log2_self_le hdigits
  have hpow : (10 : ℚ) ^ (3 * (digits.log2 : Int) / 10) ≤ 2 ^ digits.log2 := by
    exact_mod_cast le_two_pow digits.log2
  have hlarge : (2 : ℚ) ^ (1024 : Int) < digits * 10 ^ exponent := by
    calc (2 : ℚ) ^ (1024 : Int) < 2 ^ (1203 : Int) := zpow_lt_zpow_right₀ one_lt_two (by norm_num)
      _ ≤ 10 ^ (401 : Int) := two_zpow_le_ten_zpow
      _ ≤ 10 ^ (3 * (digits.log2 : Int) / 10 + exponent) := by
        gcongr
        · norm_num
        · omega
      _ = 10 ^ (3 * (digits.log2 : Int) / 10) * 10 ^ exponent := zpow_add₀ (by norm_num) _ _
      _ ≤ digits * 10 ^ exponent := by
        gcongr
        linarith
  exact absurd h hlarge.not_gt

/-- A decimal as the quotient of naturals that is rounded. -/
theorem quotient_eq (digits : Nat) (exponent : Int) :
    ((digits * Nat.pow 10 exponent.toNat : Nat) : ℚ) / (Nat.pow 10 (-exponent).toNat : Nat) =
      digits * 10 ^ exponent := by
  rw [zpow_eq_toNat_div (by norm_num)]
  simp only [Nat.pow_eq]
  push_cast
  ring

/-- Reading a decimal in the rounding interval of a double gives that double. -/
theorem Scaled.IsDouble.ofDecimal_eq {x : Scaled} (hx : x.IsDouble) (hpos : 0 < x.mantissa)
    {digits : Nat} {exponent : Int} (h : x.Attracts (digits * 10 ^ exponent)) (negative : Bool) :
    ofDecimal negative digits exponent = signed negative x.bits := by
  obtain ⟨hlow, hhigh⟩ := hx.range_of_attracts hpos h
  have hdigits : digits ≠ 0 := by
    rintro rfl
    have : (0 : ℚ) < 2 ^ (-1075 : Int) := by positivity
    rw [Nat.cast_zero, zero_mul] at hlow
    linarith
  have hbits : nearestBits (digits * Nat.pow 10 exponent.toNat) (Nat.pow 10 (-exponent).toNat) =
      x.bits :=
    hx.nearestBits_eq hpos (Nat.pow_pos (by decide)) (by rwa [quotient_eq])
  simp only [ofDecimal, nearest, hbits]
  rw [if_neg (by simpa [hdigits] using not_tooSmall hlow), if_neg (not_tooLarge hdigits hhigh)]

end BracketScript.Decimal
