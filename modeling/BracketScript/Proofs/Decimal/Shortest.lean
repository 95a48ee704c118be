import BracketScript.Decimal.Shortest
import BracketScript.Proofs.Decimal.Rounding

/-!
# The search for the shortest decimal

The search tests the two neighbours of a double on ever finer grids. `holds_iff_attracts` says that
the test is exact: it asks whether the neighbour lies in the rounding interval. On the last of the
seventeen grids the step is less than a unit of the last place, so that one of the neighbours is
less than half a unit away, and the search has come to a hit.
-/

namespace BracketScript.Decimal

/-! ### The test -/

theorem overUnit_div (unit c : Nat) (k : Int) :
    ((overUnit unit c k).1 : ℚ) / (overUnit unit c k).2 = c * 10 ^ k * unit := by
  rw [zpow_eq_toNat_div (by norm_num) k]
  simp [overUnit]
  ring

theorem overUnit_pos (unit c : Nat) (k : Int) : 0 < (overUnit unit c k).2 :=
  Nat.pow_pos (by decide)

namespace Rounding

theorem holds_iff (r : Rounding) (c : Nat) (k : Int) :
    r.holds c k = true ↔
      if r.closed then (r.low : ℚ) ≤ c * 10 ^ k * r.unit ∧ (c * 10 ^ k * r.unit : ℚ) ≤ r.high
      else (r.low : ℚ) < c * 10 ^ k * r.unit ∧ (c * 10 ^ k * r.unit : ℚ) < r.high := by
  have hpos : (0 : ℚ) < (overUnit r.unit c k).2 := by exact_mod_cast overUnit_pos r.unit c k
  rw [← overUnit_div, le_div_iff₀ hpos, div_le_iff₀ hpos, lt_div_iff₀ hpos, div_lt_iff₀ hpos, holds]
  norm_cast
  generalize overUnit r.unit c k = fraction
  split
  simp [*]

/-- The scale and the unit of a rounding interval make a quarter of a unit of the last place. -/
theorem scale_eq (q : Int) :
    ((Nat.pow 2 (q - 2).toNat : Nat) : ℚ) = 2 ^ q / 4 * (Nat.pow 2 (2 - q).toNat : Nat) := by
  have h := zpow_eq_toNat_div (two_ne_zero (α := ℚ)) (q - 2)
  rw [zpow_sub₀ two_ne_zero, eq_div_iff (by positivity)] at h
  simp only [Nat.pow_eq]
  push_cast
  rw [show 2 - q = -(q - 2) by ring, ← h]
  norm_num

theorem unit_pos (m : Nat) (q : Int) : 0 < (ofScaled m q).unit :=
  Nat.pow_pos (by decide)

theorem low_ofScaled (x : Scaled) (hpos : 0 < x.mantissa) :
    ((ofScaled x.mantissa x.exponent).low : ℚ) =
      (x.mantissa - x.reachDown) * 2 ^ x.exponent * (ofScaled x.mantissa x.exponent).unit := by
  simp only [ofScaled]
  rw [Nat.cast_mul, scale_eq, Scaled.reachDown]
  by_cases h : x.mantissa = hiddenBit ∧ leastExponent < x.exponent
  · rw [if_pos (by simpa using h), if_pos h, Nat.cast_sub (by omega)]
    push_cast
    ring
  · rw [if_neg (by simpa using h), if_neg h, Nat.cast_sub (by omega)]
    push_cast
    ring

theorem high_ofScaled (x : Scaled) :
    ((ofScaled x.mantissa x.exponent).high : ℚ) =
      (x.mantissa + 1 / 2) * 2 ^ x.exponent * (ofScaled x.mantissa x.exponent).unit := by
  simp only [ofScaled]
  rw [Nat.cast_mul, scale_eq]
  push_cast
  ring

theorem value_ofScaled (x : Scaled) :
    ((ofScaled x.mantissa x.exponent).value : ℚ) =
      x.mantissa * 2 ^ x.exponent * (ofScaled x.mantissa x.exponent).unit := by
  simp only [ofScaled]
  rw [Nat.cast_mul, scale_eq]
  push_cast
  ring

/-- The test asks whether a decimal lies in the rounding interval of the double. -/
theorem holds_iff_attracts (x : Scaled) (hpos : 0 < x.mantissa) (c : Nat) (k : Int) :
    (ofScaled x.mantissa x.exponent).holds c k = true ↔ x.Attracts (c * 10 ^ k) := by
  have htwo : (0 : ℚ) < 2 ^ x.exponent := by positivity
  have hunit : (0 : ℚ) < (ofScaled x.mantissa x.exponent).unit := by
    exact_mod_cast unit_pos x.mantissa x.exponent
  have hclosed : (ofScaled x.mantissa x.exponent).closed = true ↔ x.mantissa % 2 = 0 := by
    simp [ofScaled]
  rw [holds_iff, low_ofScaled x hpos, high_ofScaled]
  simp only [hclosed, mul_le_mul_iff_left₀ hunit, mul_lt_mul_iff_left₀ hunit]
  rw [← le_div_iff₀ htwo, ← lt_div_iff₀ htwo, ← div_le_iff₀ htwo, ← div_lt_iff₀ htwo]
  constructor
  · intro h
    split at h
    · next heven => exact ⟨h.1, h.2, .inl heven⟩
    · exact ⟨h.1.le, h.2.le, .inr h⟩
  · rintro ⟨hlow, hhigh, hends⟩
    split
    · exact ⟨hlow, hhigh⟩
    · next hodd => exact hends.resolve_left hodd

/-! ### The search -/

theorem holds_of_onGrid {r : Rounding} {k : Int} {c : Nat} (h : r.onGrid k = some c) :
    r.holds c k = true := by
  simp only [onGrid] at h
  split at h
  · split at h <;> cases h <;> assumption
  · cases h
    assumption
  · cases h
    assumption
  · cases h

/-- If one of the grids has a hit, the search comes to a hit. -/
theorem holds_search {r : Rounding} (count : Nat) (k : Int)
    (h : ∃ j : Nat, j < count ∧ (r.onGrid (k - j)).isSome) :
    r.holds (r.search count k).digits (r.search count k).exponent = true := by
  induction count generalizing k with
  | zero => exact absurd h (by simp)
  | succ count ih =>
    unfold search
    cases hgrid : r.onGrid k with
    | some c => exact holds_of_onGrid hgrid
    | none =>
      obtain ⟨j, hj, hsome⟩ := h
      cases j with
      | zero => simp [hgrid] at hsome
      | succ j =>
        refine ih (k - 1) ⟨j, by omega, ?_⟩
        rwa [show k - 1 - j = k - (j + 1 : Nat) by push_cast; ring]

/-- The value lies between its neighbours on a grid. -/
theorem floor_bounds (x : Scaled) (k : Int) :
    ((ofScaled x.mantissa x.exponent).floor k : ℚ) * 10 ^ k ≤ x.mantissa * 2 ^ x.exponent ∧
      (x.mantissa * 2 ^ x.exponent : ℚ) <
        ((ofScaled x.mantissa x.exponent).floor k + 1) * 10 ^ k := by
  have hvalue := value_ofScaled x
  have hunit := unit_pos x.mantissa x.exponent
  generalize ofScaled x.mantissa x.exponent = r at *
  have hunit' : (0 : ℚ) < r.unit := by exact_mod_cast hunit
  have hden : 0 < r.unit * Nat.pow 10 k.toNat := Nat.mul_pos hunit (Nat.pow_pos (by decide))
  have hle : (r.floor k : ℚ) * (r.unit * 10 ^ k.toNat) ≤ r.value * 10 ^ (-k).toNat := by
    have : r.floor k * (r.unit * Nat.pow 10 k.toNat) ≤ r.value * Nat.pow 10 (-k).toNat :=
      Nat.div_mul_le_self _ _
    exact_mod_cast this
  have hlt : (r.value : ℚ) * 10 ^ (-k).toNat < (r.floor k + 1) * (r.unit * 10 ^ k.toNat) := by
    have : r.value * Nat.pow 10 (-k).toNat < (r.floor k + 1) * (r.unit * Nat.pow 10 k.toNat) := by
      rw [mul_comm (r.floor k + 1)]
      exact Nat.lt_mul_div_succ _ hden
    exact_mod_cast this
  have hten := zpow_eq_toNat_div (show (10 : ℚ) ≠ 0 by norm_num) k
  have hpos : (0 : ℚ) < 10 ^ (-k).toNat := by positivity
  rw [eq_div_iff hpos.ne'] at hten
  rw [hvalue, ← hten] at hle hlt
  constructor
  · nlinarith [mul_pos hunit' hpos]
  · nlinarith [mul_pos hunit' hpos]

end Rounding

/-- On a grid whose step is less than a unit of the last place, one of the neighbours of a double
lies in its rounding interval. -/
theorem Scaled.IsDouble.onGrid_isSome {x : Scaled} (hx : x.IsDouble) (hpos : 0 < x.mantissa)
    {k : Int} (hk : (10 : ℚ) ^ k * 10 ^ 16 ≤ x.mantissa * 2 ^ x.exponent) :
    ((Rounding.ofScaled x.mantissa x.exponent).onGrid k).isSome := by
  obtain ⟨hle, hlt⟩ := Rounding.floor_bounds x k
  have htest := Rounding.holds_iff_attracts x hpos
  generalize Rounding.ofScaled x.mantissa x.exponent = r at *
  have htwo : (0 : ℚ) < 2 ^ x.exponent := by positivity
  have hten : (0 : ℚ) < 10 ^ k := by positivity
  have hmost : (x.mantissa : ℚ) < 2 * 4503599627370496 := by exact_mod_cast hx.mantissa_lt
  -- right above a power of two the interval is shorter below, but the grid is finer as well
  have hreach : x.reachDown = 1 / 2 ∨
      (x.reachDown = 1 / 4 ∧ (x.mantissa : ℚ) = 4503599627370496) := by
    unfold reachDown
    split
    · next h => exact .inr ⟨rfl, by rw [h.1]; norm_num [hiddenBit]⟩
    · exact .inl rfl
  have hhit : r.holds (r.floor k) k = true ∨ r.holds (r.floor k + 1) k = true := by
    rw [htest, htest]
    push_cast
    by_cases hup : ((r.floor k : ℚ) + 1) * 10 ^ k < (x.mantissa + 1 / 2) * 2 ^ x.exponent
    · right
      have hlow : (x.mantissa : ℚ) - x.reachDown < (r.floor k + 1) * 10 ^ k / 2 ^ x.exponent := by
        rw [lt_div_iff₀ htwo]
        rcases hreach with h | h <;> nlinarith
      have hhigh : ((r.floor k : ℚ) + 1) * 10 ^ k / 2 ^ x.exponent < x.mantissa + 1 / 2 := by
        rwa [div_lt_iff₀ htwo]
      exact ⟨hlow.le, hhigh.le, .inr ⟨hlow, hhigh⟩⟩
    · left
      have hlow : (x.mantissa : ℚ) - x.reachDown < r.floor k * 10 ^ k / 2 ^ x.exponent := by
        rw [lt_div_iff₀ htwo]
        rcases hreach with h | ⟨h, h'⟩ <;> nlinarith
      have hhigh : (r.floor k : ℚ) * 10 ^ k / 2 ^ x.exponent < x.mantissa + 1 / 2 := by
        rw [div_lt_iff₀ htwo]
        nlinarith
      exact ⟨hlow.le, hhigh.le, .inr ⟨hlow, hhigh⟩⟩
  unfold Rounding.onGrid
  rcases hhit with h | h <;> simp only [h] <;> split <;> simp_all

/-! ### The first grid -/

theorem pow_digitCount_le {n : Nat} (hn : 0 < n) : 10 ^ (digitCount n - 1) ≤ n := by
  by_contra hlt
  rcases Nat.lt_or_ge 1 (digitCount n) with h | h
  · have hlength : digitCount n ≤ digitCount n - 1 :=
      (Nat.length_toDigits_le_iff (by decide) (by omega)).2 (by omega)
    omega
  · rw [show digitCount n - 1 = 0 by omega] at hlt
    omega

theorem digitCount_pos (n : Nat) : 0 < digitCount n :=
  Nat.length_toDigits_pos

theorem pow_magnitude_le {n d : Nat} (hn : 0 < n) (hd : 0 < d) :
    (10 : ℚ) ^ (magnitude n d - 1) ≤ n / d := by
  have hd' : (0 : ℚ) < d := by exact_mod_cast hd
  rw [le_div_iff₀ hd', magnitude]
  split
  · next hle =>
    have hprod : 10 ^ (digitCount (n / d) - 1) * d ≤ n :=
      (Nat.mul_le_mul_right d (pow_digitCount_le (Nat.div_pos hle hd))).trans
        (Nat.div_mul_le_self n d)
    have hcount := digitCount_pos (n / d)
    rw [show (digitCount (n / d) : Int) - 1 = ((digitCount (n / d) - 1 : Nat) : Int) by omega,
      zpow_natCast]
    exact_mod_cast hprod
  · simp only
    have hpos := digitCount_pos (d / n)
    split
    · next hle =>
      obtain ⟨j, hj⟩ : ∃ j, digitCount (d / n) = j + 1 := ⟨digitCount (d / n) - 1, by omega⟩
      rw [hj] at hle ⊢
      rw [show 2 - ((j + 1 : Nat) : Int) - 1 = -(j : Int) by push_cast; ring, zpow_neg,
        zpow_natCast, inv_mul_le_iff₀ (by positivity), mul_comm]
      simp only [Nat.add_sub_cancel, Nat.pow_eq] at hle
      exact_mod_cast hle
    · have hcount : d / n < 10 ^ digitCount (d / n) :=
        (Nat.length_toDigits_le_iff (by decide) hpos).1 le_rfl
      have hprod : d ≤ 10 ^ digitCount (d / n) * n := ((Nat.div_lt_iff_lt_mul hn).1 hcount).le
      rw [show 1 - (digitCount (d / n) : Int) - 1 = -(digitCount (d / n) : Int) by ring, zpow_neg,
        zpow_natCast, inv_mul_le_iff₀ (by positivity)]
      exact_mod_cast hprod

/-- The shortest decimal of a positive double lies in its rounding interval. -/
theorem Scaled.IsDouble.attracts_shortest {x : Scaled} (hx : x.IsDouble) (hpos : 0 < x.mantissa) :
    x.Attracts ((shortest x.mantissa x.exponent).digits *
      10 ^ (shortest x.mantissa x.exponent).exponent) := by
  rw [← Rounding.holds_iff_attracts x hpos]
  apply Rounding.holds_search
  refine ⟨16, by decide, hx.onGrid_isSome hpos ?_⟩
  set r := Rounding.ofScaled x.mantissa x.exponent with hr
  have hunit : (0 : ℚ) < r.unit := by exact_mod_cast Rounding.unit_pos x.mantissa x.exponent
  have hvalue : 0 < r.value := by
    have : (0 : ℚ) < r.value := by
      have : (0 : ℚ) < x.mantissa := by exact_mod_cast hpos
      rw [hr, Rounding.value_ofScaled]
      positivity
    exact_mod_cast this
  calc (10 : ℚ) ^ (magnitude r.value r.unit - 1 - (16 : Nat)) * 10 ^ 16
      = 10 ^ (magnitude r.value r.unit - 1) := by
        rw [zpow_sub₀ (by norm_num), zpow_natCast, div_mul_cancel₀ _ (by positivity)]
    _ ≤ r.value / r.unit := pow_magnitude_le hvalue (by exact_mod_cast hunit)
    _ = x.mantissa * 2 ^ x.exponent := by
      rw [hr, Rounding.value_ofScaled, mul_div_assoc, div_self hunit.ne', mul_one]

end BracketScript.Decimal
