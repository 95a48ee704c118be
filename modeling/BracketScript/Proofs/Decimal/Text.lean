import BracketScript.Decimal.Text
import BracketScript.Numeral
import BracketScript.Proofs.Decimal.Shortest

/-!
# Reading back the text of a number

The text of a finite double is a numeral that denotes this double, and the text of a 64-bit integer
is a numeral that denotes this integer. The value of a positional text is a rational here, so that
zeros added or dropped at its end do not count.
-/

namespace BracketScript.Decimal

/-! ### Digits -/

theorem natOfDigits_eq (digits : List Char) : natOfDigits digits = Nat.ofDigitChars 10 digits 0 :=
  rfl

theorem natOfDigits_append (front behind : List Char) :
    natOfDigits (front ++ behind) =
      10 ^ behind.length * natOfDigits front + natOfDigits behind := by
  simp only [natOfDigits_eq]
  rw [Nat.ofDigitChars_append, Nat.ofDigitChars_eq_ofDigitChars_zero]

theorem natOfDigits_replicate (n : Nat) : natOfDigits (List.replicate n '0') = 0 := by
  simp [natOfDigits_eq]

theorem natOfDigits_toDigits (n : Nat) : natOfDigits (Nat.toDigits 10 n) = n :=
  Nat.ofDigitChars_ten_toDigits

theorem isDigit_of_mem_toDigits {c : Char} {n : Nat} (h : c ∈ Nat.toDigits 10 n) :
    isDigit c = true := by
  have := Nat.isDigit_of_mem_toDigits (by decide) (by decide) h
  simpa [isDigit, Char.isDigit, Char.le_def] using this

/-- The value of the digits in front of and behind a point. -/
def decimalValue (whole fraction : List Char) : ℚ :=
  natOfDigits (whole ++ fraction) * 10 ^ (-(fraction.length : Int))

theorem decimalValue_append_replicate (whole fraction : List Char) (n : Nat) :
    decimalValue whole (fraction ++ List.replicate n '0') = decimalValue whole fraction := by
  rw [decimalValue, ← List.append_assoc, natOfDigits_append, natOfDigits_replicate, decimalValue,
    List.length_append, List.length_replicate]
  push_cast
  rw [neg_add, zpow_add₀ (by norm_num), zpow_neg, zpow_neg, zpow_natCast, zpow_natCast, add_zero]
  field_simp

theorem dropTrailingZeros_append (digits : List Char) :
    ∃ n, digits = dropTrailingZeros digits ++ List.replicate n '0' := by
  refine ⟨(digits.reverse.takeWhile (· == '0')).length, ?_⟩
  have hzeros : digits.reverse.takeWhile (· == '0') =
      List.replicate (digits.reverse.takeWhile (· == '0')).length '0' := by
    apply List.eq_replicate_of_mem
    intro c hc
    simpa using List.mem_takeWhile_imp hc
  have hsplit := List.takeWhile_append_dropWhile (p := (· == '0')) (l := digits.reverse)
  rw [hzeros] at hsplit
  have hreverse := congrArg List.reverse hsplit
  rw [List.reverse_append, List.reverse_replicate, List.reverse_reverse] at hreverse
  exact hreverse.symm

/-! ### Positional texts -/

structure IsPositional (word : List Char) (value : ℚ) (whole fraction : List Char) : Prop where
  word_eq : word = whole ++ '.' :: fraction
  whole_ne : whole ≠ []
  fraction_ne : fraction ≠ []
  digits : ∀ c ∈ whole ++ fraction, isDigit c = true
  value_eq : decimalValue whole fraction = value

theorem positional_of_nonneg {c : Nat} {k : Int} (hk : 0 ≤ k) :
    ∃ whole fraction, IsPositional (positional c k) (c * 10 ^ k) whole fraction := by
  obtain ⟨n, rfl⟩ := Int.eq_ofNat_of_zero_le hk
  refine ⟨Nat.toDigits 10 c ++ List.replicate n '0', ['0'], ?_, ?_, by simp, ?_, ?_⟩
  · simp [positional]
  · simp
  · intro d hd
    simp only [List.append_assoc, List.mem_append, List.mem_replicate, List.mem_singleton] at hd
    rcases hd with hd | ⟨_, rfl⟩ | rfl
    · exact isDigit_of_mem_toDigits hd
    · rfl
    · rfl
  · have hzero := decimalValue_append_replicate (Nat.toDigits 10 c ++ List.replicate n '0') [] 1
    rw [List.nil_append, List.replicate_one] at hzero
    rw [hzero, decimalValue, List.append_nil, natOfDigits_append, natOfDigits_toDigits,
      natOfDigits_replicate]
    simp [mul_comm]

theorem positional_of_neg {c : Nat} {k : Int} (hk : k < 0) :
    ∃ whole fraction, IsPositional (positional c k) (c * 10 ^ k) whole fraction := by
  obtain ⟨places, hplaces⟩ := Int.eq_ofNat_of_zero_le (show 0 ≤ -k by omega)
  obtain rfl : k = -(places : Int) := by omega
  set padded := List.replicate (places + 1 - (Nat.toDigits 10 c).length) '0' ++ Nat.toDigits 10 c
    with hpadded
  have hlength : places + 1 ≤ padded.length := by
    simp [hpadded]
    omega
  set whole := padded.take (padded.length - places)
  set behind := padded.drop (padded.length - places)
  have hsplit : whole ++ behind = padded := List.take_append_drop _ _
  have hbehind : behind.length = places := by
    simp [behind]
    omega
  obtain ⟨n, hn⟩ := dropTrailingZeros_append behind
  have hdigits : ∀ d ∈ padded, isDigit d = true := by
    intro d hd
    rcases List.mem_append.1 hd with hd | hd
    · rw [(List.mem_replicate.1 hd).2]
      rfl
    · exact isDigit_of_mem_toDigits hd
  have hvalue : decimalValue whole (dropTrailingZeros behind) = c * 10 ^ (-(places : Int)) := by
    rw [← decimalValue_append_replicate _ _ n, ← hn, decimalValue, hsplit, hbehind, hpadded,
      natOfDigits_append, natOfDigits_replicate, natOfDigits_toDigits, mul_zero, zero_add]
  have hwhole : whole ≠ [] := by
    apply List.ne_nil_of_length_pos
    simp [whole]
    omega
  have hword : positional c (-(places : Int)) = whole ++
      '.' :: (if (dropTrailingZeros behind).isEmpty then ['0'] else dropTrailingZeros behind) := by
    simp only [positional, if_neg (not_le.2 hk), neg_neg, Int.toNat_natCast]
    rfl
  by_cases hempty : dropTrailingZeros behind = []
  · refine ⟨whole, ['0'], by simpa [hempty] using hword, hwhole, by simp, ?_, ?_⟩
    · intro d hd
      rcases List.mem_append.1 hd with hd | hd
      · exact hdigits d (List.mem_of_mem_take hd)
      · rw [List.mem_singleton.1 hd]
        rfl
    · rw [hempty] at hvalue
      rw [← hvalue]
      exact decimalValue_append_replicate whole [] 1
  · refine ⟨whole, _, by simpa [hempty] using hword, hwhole, hempty, ?_, hvalue⟩
    intro d hd
    apply hdigits d
    rw [← hsplit, hn, ← List.append_assoc]
    exact List.mem_append_left _ hd

theorem positional_spec (c : Nat) (k : Int) :
    ∃ whole fraction, IsPositional (positional c k) (c * 10 ^ k) whole fraction := by
  rcases le_or_gt 0 k with hk | hk
  · exact positional_of_nonneg hk
  · exact positional_of_neg hk

/-! ### Words with a sign -/

/-- A minus in front of a digit is taken for the sign. -/
theorem readSign_append (negative : Bool) {d : Char} (hd : isDigit d = true) (rest : List Char) :
    readSign ((if negative then ['-'] else []) ++ d :: rest) = (negative, d :: rest) := by
  cases negative with
  | true => rfl
  | false =>
    show readSign (d :: rest) = (false, d :: rest)
    unfold readSign
    split <;> simp_all <;> simp_all [isDigit]

theorem begins_append (negative : Bool) {d : Char} (hd : isDigit d = true) (rest : List Char) :
    Numeral.begins ((if negative then ['-'] else []) ++ d :: rest) = true := by
  have hpoint : d ≠ '.' := by
    rintro rfl
    exact absurd hd (by decide)
  cases negative with
  | true =>
    show Numeral.begins ('-' :: d :: rest) = true
    rw [Numeral.begins]
    · exact hd
    · intro _ _ h
      exact absurd h hpoint
  | false =>
    show Numeral.begins (d :: rest) = true
    unfold Numeral.begins
    split <;> simp_all <;> simp_all [isDigit]

/-! ### Doubles -/

/-- The word is written with an optional minus, digits, a point and digits, and it denotes the
double. -/
structure Spells (word : List Char) (x : Float) (n : Numeral) (fraction : List Char) : Prop where
  word_eq : word = (if n.negative then ['-'] else []) ++ (n.whole ++ '.' :: fraction)
  whole_ne : n.whole ≠ []
  fraction_eq : n.fraction = some fraction
  fraction_ne : fraction ≠ []
  digits : ∀ c ∈ n.whole ++ fraction, isDigit c = true
  real_eq : n.real fraction = x

namespace Spells

variable {word : List Char} {x : Float} {n : Numeral} {fraction : List Char}

theorem read?_eq (h : Spells word x n fraction) : Numeral.read? word = some n := by
  obtain ⟨negative, whole, rest⟩ := n
  obtain ⟨rfl, hwhole, rfl, hfraction, hdigits, -⟩ := h
  obtain ⟨d, whole, rfl⟩ := List.exists_cons_of_ne_nil hwhole
  have hall : ∀ c ∈ d :: whole, isDigit c = true := fun c hc =>
    hdigits c (List.mem_append_left _ hc)
  have hbehind : fraction.all isDigit = true :=
    List.all_eq_true.2 fun c hc => hdigits c (List.mem_append_right _ hc)
  have hpoint : isDigit '.' = false := rfl
  rw [Numeral.read?, List.cons_append, readSign_append _ (hdigits d (by simp)), ← List.cons_append]
  simp only
  rw [List.takeWhile_append_of_pos hall, List.dropWhile_append_of_pos hall]
  simp [hpoint, hbehind, hfraction]

theorem begins_eq (h : Spells word x n fraction) : Numeral.begins word = true := by
  obtain ⟨d, whole, hwhole⟩ := List.exists_cons_of_ne_nil h.whole_ne
  rw [h.word_eq, hwhole, List.cons_append]
  exact begins_append _ (h.digits d (by simp [hwhole])) _

theorem mem_cases (h : Spells word x n fraction) {c : Char} (hc : c ∈ word) :
    c = '-' ∨ c = '.' ∨ isDigit c = true := by
  have hdigits := h.digits c
  rw [h.word_eq] at hc
  cases n.negative <;> simp at hc <;> simp at hdigits <;> tauto

end Spells

theorem ofDecimal_zero (negative : Bool) (exponent : Int) :
    ofDecimal negative 0 exponent = signed negative 0 := by
  simp [ofDecimal]

/-- The text of a finite double spells this double. -/
theorem spells_chars {x : Float} (h : IsFinite x) :
    ∃ n fraction, Spells (chars x) x n fraction := by
  obtain ⟨value, hvalue⟩ := h
  obtain ⟨hdouble, hbits⟩ := of_ofFloat_eq_finite hvalue
  have hchars : chars x = (if value.negative then ['-'] else []) ++ value.text := by
    simp only [chars, hvalue]
  rcases Nat.eq_zero_or_pos value.mantissa with hzero | hpos
  · refine ⟨⟨value.negative, ['0'], some ['0']⟩, ['0'], ?_, by simp, rfl, by simp, by simp; rfl, ?_⟩
    · rw [hchars, Scaled.text, if_pos hzero]
      rfl
    · have hnone : natOfDigits (['0'] ++ ['0']) = 0 := rfl
      have hleast : value.exponent = leastExponent := by
        refine le_antisymm (not_lt.1 fun hlt => ?_) hdouble.exponent_ge
        exact absurd (hdouble.isFull hlt) (by simp [hzero, hiddenBit])
      rw [← hbits, Numeral.real, hnone, ofDecimal_zero]
      simp [Scaled.bits, hzero, hleast]
  · set shown := shortest value.mantissa value.exponent with hshown
    obtain ⟨whole, fraction, hword⟩ := positional_spec shown.digits shown.exponent
    refine ⟨⟨value.negative, whole, some fraction⟩, fraction, ?_, hword.whole_ne, rfl,
      hword.fraction_ne, hword.digits, ?_⟩
    · rw [hchars, Scaled.text, if_neg (Nat.ne_of_gt hpos), ← hword.word_eq]
    · have hattracts := hdouble.attracts_shortest hpos
      rw [← hshown, ← hword.value_eq, decimalValue] at hattracts
      rw [← hbits]
      exact hdouble.ofDecimal_eq hpos hattracts value.negative

/-! ### Integers -/

theorem toList_toString (i : Int) :
    (toString i).toList = (if decide (i < 0) then ['-'] else []) ++ Nat.toDigits 10 i.natAbs := by
  rw [Int.toString_eq_repr]
  cases i with
  | ofNat n => simp [Int.repr, Nat.repr_eq_ofList_toDigits]
  | negSucc n => simp [Int.repr, Nat.repr_eq_ofList_toDigits, Int.negSucc_lt_zero]

/-- The text of an integer is a numeral without a point. -/
theorem read?_toString (i : Int) :
    Numeral.read? (toString i).toList =
      some ⟨decide (i < 0), Nat.toDigits 10 i.natAbs, none⟩ := by
  obtain ⟨d, rest, hdigits⟩ := List.exists_cons_of_ne_nil (Nat.toDigits_ne_nil (n := i.natAbs))
  have hall : ∀ c ∈ d :: rest, isDigit c = true := fun c hc =>
    isDigit_of_mem_toDigits (hdigits ▸ hc)
  rw [toList_toString, hdigits, Numeral.read?, readSign_append _ (hall d (by simp))]
  simp only
  rw [← List.append_nil (d :: rest), List.takeWhile_append_of_pos hall,
    List.dropWhile_append_of_pos hall]
  simp

theorem begins_toString (i : Int) : Numeral.begins (toString i).toList = true := by
  obtain ⟨d, rest, hdigits⟩ := List.exists_cons_of_ne_nil (Nat.toDigits_ne_nil (n := i.natAbs))
  rw [toList_toString, hdigits]
  exact begins_append _ (isDigit_of_mem_toDigits (hdigits ▸ List.mem_cons_self)) _

theorem mem_toString_cases {i : Int} {c : Char} (hc : c ∈ (toString i).toList) :
    c = '-' ∨ isDigit c = true := by
  rw [toList_toString, List.mem_append] at hc
  rcases hc with hc | hc
  · split at hc
    · exact .inl (List.mem_singleton.1 hc)
    · exact absurd hc List.not_mem_nil
  · exact .inr (isDigit_of_mem_toDigits hc)

/-- The integer of a 64-bit integer's text is this integer. -/
theorem toInt64?_integer (value : Int64) :
    Numeral.toInt64? (Numeral.integer
      ⟨decide (value.toInt < 0), Nat.toDigits 10 value.toInt.natAbs, none⟩) = some value := by
  have hinteger : Numeral.integer
      ⟨decide (value.toInt < 0), Nat.toDigits 10 value.toInt.natAbs, none⟩ = value.toInt := by
    simp only [Numeral.integer, natOfDigits_toDigits, decide_eq_true_eq]
    split <;> omega
  rw [hinteger, Numeral.toInt64?, if_pos ⟨value.minValue_le_toInt, value.toInt_le⟩,
    Int64.ofInt_toInt]

end BracketScript.Decimal
