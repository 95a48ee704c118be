import BracketScript.Proofs.Decimal.Rounding
import BracketScript.Proofs.Operands
import BracketScript.Proofs.Words

/-!
# Integers from texts

A text in the form of an integer is converted to the integer that it denotes, as the scanner would
read it, as long as that fits in 64 bits. The scanner refuses a longer one, but the conversion does
not: it reads the text as a double then, and cuts the double off at the ends of the 64 bits. The
double nearest to an integer beyond the ends never lies between them, so what comes out is the
nearer end.
-/

namespace BracketScript

namespace Decimal

/-! ### Doubles beyond 64 bits -/

theorem clamp_of_le {n : Int} (h : n ≤ -2 ^ 63) : clamp n = Int64.minValue := by
  rw [clamp, Int64.toInt_minValue, Int64.toInt_maxValue]
  rcases h.lt_or_eq with hlt | rfl
  · rw [if_pos hlt]
  · decide

theorem clamp_of_ge {n : Int} (h : 2 ^ 63 ≤ n) : clamp n = Int64.maxValue := by
  rw [clamp, Int64.toInt_minValue, Int64.toInt_maxValue, if_neg (by omega), if_pos (by omega)]

theorem toInt64?_eq_clamp {n : Int} (h : Numeral.IsSmall n) :
    Numeral.toInt64? n = some (clamp n) := by
  obtain ⟨value, hsome, hvalue⟩ := Numeral.exists_toInt64? h
  obtain ⟨hlow, hhigh⟩ := h
  rw [clamp, Int64.toInt_minValue, Int64.toInt_maxValue, if_neg (by omega), if_neg (by omega),
    hsome, ← hvalue, Int64.ofInt_toInt]

theorem toInt_clamp_eq_iff {n : Int} : (clamp n).toInt = n ↔ Numeral.IsSmall n := by
  constructor
  · intro h
    rw [← h]
    exact ⟨Int64.le_toInt _, Int64.toInt_lt _⟩
  · intro h
    obtain ⟨value, hsome, hvalue⟩ := Numeral.exists_toInt64? h
    rw [toInt64?_eq_clamp h] at hsome
    rw [Option.some.inj hsome, hvalue]

/-- The end of the integers on the side of the sign. -/
def farEnd (negative : Bool) : Int64 :=
  if negative then Int64.minValue else Int64.maxValue

theorem clamp_truncate {x : Scaled} (hexponent : 11 ≤ x.exponent)
    (hmantissa : hiddenBit ≤ x.mantissa) : clamp x.truncate = farEnd x.negative := by
  have hwhole : 2 ^ 63 ≤ x.mantissa * Nat.pow 2 x.exponent.toNat :=
    calc 2 ^ 63 = hiddenBit * 2 ^ 11 := by decide
      _ ≤ x.mantissa * 2 ^ x.exponent.toNat :=
        Nat.mul_le_mul hmantissa (Nat.pow_le_pow_right two_pos (by omega))
  have hexponent' : 0 ≤ x.exponent := by omega
  simp only [Scaled.truncate, if_pos hexponent', farEnd]
  cases x.negative with
  | true =>
    simp only [if_true]
    exact clamp_of_le (by omega)
  | false =>
    simp only [Bool.false_eq_true, if_false]
    exact clamp_of_ge (by omega)

/-- The bits `1086 * hiddenBit` are those of `2 ^ 63`. -/
theorem toInteger_signed (negative : Bool) {bits : Nat} (hlow : 1086 * hiddenBit ≤ bits)
    (hhigh : bits ≤ infinityBits) : toInteger (signed negative bits) = farEnd negative := by
  rw [toInteger, ofFloat_signed negative hhigh]
  rw [infinityBits] at hhigh
  rw [hiddenBit] at *
  by_cases hinfinite : bits / 0x10000000000000 = 2047
  · rw [if_pos hinfinite, farEnd]
    cases negative <;> rfl
  · rw [if_neg hinfinite, if_neg (by omega)]
    apply clamp_truncate
    · simp only [leastExponent]
      omega
    · exact Nat.le_add_left _ _

theorem div_le_roundHalfEven (n d : Nat) : n / d ≤ roundHalfEven n d := by
  rw [roundHalfEven]
  split <;> omega

/-- Rounding does not cross `2 ^ 63`, which is a double itself. -/
theorem le_nearestBits {n : Nat} (h : 2 ^ 63 ≤ n) : 1086 * hiddenBit ≤ nearestBits n 1 := by
  obtain ⟨N, D, q, hD, hquot, -, hupper, hfull, hbits⟩ :=
    nearestBits_spec (show 0 < n by omega) Nat.one_pos
  have hD' : (0 : ℚ) < D := by exact_mod_cast hD
  have hq : 11 ≤ q := by
    have hn : (2 : ℚ) ^ (63 : Int) ≤ n := by exact_mod_cast h
    have hpow : (2 : ℚ) ^ (63 : Int) < 2 ^ (53 + q) := by
      rw [hquot, Nat.cast_one, div_one, div_lt_iff₀ (by positivity)] at hupper
      calc (2 : ℚ) ^ (63 : Int) ≤ n := hn
        _ < 2 * hiddenBit * 2 ^ q := hupper
        _ = 2 ^ (53 + q) := by
          rw [zpow_add₀ two_ne_zero]
          norm_num [hiddenBit]
    have := (zpow_lt_zpow_iff_right₀ one_lt_two).1 hpow
    omega
  rw [leastExponent] at hfull hbits
  have hrounded : hiddenBit ≤ roundHalfEven N D := by
    have hquot := hfull (by omega)
    rw [le_div_iff₀ hD'] at hquot
    have hfloor : hiddenBit ≤ N / D := (Nat.le_div_iff_mul_le hD).2 (by exact_mod_cast hquot)
    exact hfloor.trans (div_le_roundHalfEven N D)
  have hplaces : 1085 ≤ (q - -1074).toNat := by omega
  rw [hbits, infinityBits]
  have hweight := Nat.mul_le_mul_right hiddenBit hplaces
  omega

theorem toInteger_ofDecimal (negative : Bool) {n : Nat} (h : 2 ^ 63 ≤ n) :
    toInteger (ofDecimal negative n 0) = farEnd negative := by
  have hlow : 1086 * hiddenBit ≤ infinityBits := by decide
  have hbits : nearestBits n 1 ≤ infinityBits := by
    obtain ⟨_, _, _, _, _, _, _, _, hbits⟩ := nearestBits_spec (show 0 < n by omega) Nat.one_pos
    rw [hbits]
    exact min_le_left _ _
  have hnear : ¬ (decide (n = 0) || decide (0 + 4 * (n.log2 : Int) / 10 + 1 < -400)) = true := by
    simp only [Bool.or_eq_true, decide_eq_true_eq]
    omega
  simp only [ofDecimal]
  rw [if_neg hnear]
  split
  · exact toInteger_signed negative hlow le_rfl
  · rw [nearest]
    simpa using toInteger_signed negative (le_nearestBits h) hbits

end Decimal

/-! ### Texts of integers -/

theorem Text.trim_eq_self {cs : List Char} (h : ∀ c ∈ cs, isBlank c = false) : trim cs = cs := by
  have hdrop (ds : List Char) (hds : ∀ c ∈ ds, isBlank c = false) : ds.dropWhile isBlank = ds :=
    List.dropWhile_eq_self_iff.2 fun hlt => by simp [hds _ (List.getElem_mem hlt)]
  rw [trim, hdrop cs h, hdrop _ (by simpa using h), List.reverse_reverse]

namespace Numeral

open Decimal (isDigit)

/-- An integer beyond 64 bits has a great absolute value, and is nearer to the end on its side. -/
theorem farEnd_eq {n : Numeral} (h : ¬ IsSmall n.integer) :
    2 ^ 63 ≤ Decimal.natOfDigits n.whole ∧ Decimal.farEnd n.negative = Decimal.clamp n.integer := by
  rw [IsSmall, integer] at h
  rw [Decimal.farEnd, integer]
  cases n.negative with
  | true =>
    simp only [if_true] at h ⊢
    exact ⟨by omega, (Decimal.clamp_of_le (by omega)).symm⟩
  | false =>
    simp only [Bool.false_eq_true, if_false] at h ⊢
    exact ⟨by omega, (Decimal.clamp_of_ge (by omega)).symm⟩

namespace IsWritten

variable {word front : List Char} {n : Numeral}

theorem isDelimiter_eq_false (h : IsWritten word front n) (hnone : n.fraction = none) {c : Char}
    (hc : c ∈ word) : Token.isDelimiter c = false := by
  rw [h.word_eq, hnone, behind, List.append_nil, List.mem_append] at hc
  rcases hc with hc | hc
  · rcases Pattern.mem_optionalSign.1 h.front_mem with rfl | rfl | rfl
    · cases hc
    · obtain rfl := List.mem_singleton.1 hc
      rfl
    · obtain rfl := List.mem_singleton.1 hc
      rfl
  · simpa [Token.isWordChar] using Token.isWordChar_of_isDigit (h.whole_digits c hc)

/-- Read as a real, an integer of any size is the double nearest to it. -/
theorem decimalRead?_eq (h : IsWritten word front n) (hnone : n.fraction = none) :
    Decimal.read? word =
      some (Decimal.ofDecimal n.negative (Decimal.natOfDigits n.whole) 0) := by
  obtain ⟨negative, whole, fraction⟩ := n
  obtain rfl : fraction = none := hnone
  obtain ⟨d, rest, rfl⟩ := List.exists_cons_of_ne_nil (h.whole_ne rfl)
  have hlower : ['0', '1', '2', '3', '4', '5', '6', '7', '8', '9'].all
      (fun c => isDigit c.toLower) = true := by decide
  have hd : isDigit d.toLower = true :=
    List.all_eq_true.1 hlower d (Pattern.isDigit_iff.1 (h.whole_digits d List.mem_cons_self))
  -- the digit in front keeps the text apart from the words for what is no decimal
  have hword (name : String) (hname : name.toList.head?.any isDigit = false) :
      (String.ofList ((d :: rest).map Char.toLower) == name) = false := by
    rw [beq_eq_false_iff_ne]
    rintro rfl
    rw [String.toList_ofList, List.map_cons, List.head?_cons, Option.any_some, hd] at hname
    cases hname
  rw [Decimal.read?, h.readSign_eq, behind, List.append_nil]
  simp only [hword "inf" (by decide), hword "infinity" (by decide), hword "nan" (by decide),
    Bool.or_self, Bool.false_eq_true, if_false]
  rw [Decimal.readDecimal?, List.takeWhile_eq_self_iff.2 h.whole_digits,
    List.dropWhile_eq_nil_iff.2 h.whole_digits]
  simp [Decimal.readFraction, Decimal.readExponent?]

/-- The text is converted to the integer within 64 bits that is nearest to what it denotes. -/
theorem integerOfText?_eq {text : String} (h : IsWritten text.toList front n)
    (hnone : n.fraction = none) :
    Form.integerOfText? text = some (Decimal.clamp (denoted text.toList)) := by
  have htrim : Text.trim text.toList = text.toList :=
    Text.trim_eq_self fun c hc =>
      (Token.isDelimiter_eq_false_iff.1 (h.isDelimiter_eq_false hnone hc)).1
  have hinteger : readInteger? text.toList = toInt64? n.integer := by
    rw [readInteger?, h.read?_eq]
    simp only [hnone, Option.isNone_none, if_true]
  rw [Form.integerOfText?, htrim, hinteger, h.decimalRead?_eq hnone, h.denoted_eq hnone]
  by_cases hsmall : IsSmall n.integer
  · rw [Decimal.toInt64?_eq_clamp hsmall]
    rfl
  · obtain ⟨hlarge, hend⟩ := farEnd_eq hsmall
    rw [toInt64?_eq_none hsmall, Option.map_some, Decimal.toInteger_ofDecimal _ hlarge, hend]
    rfl

end IsWritten

end Numeral

/-! ### Conversions beside literals -/

theorem Keyword.returns_asInteger {value : Value} {n : Int64}
    (h : Form.toInteger? value = some n) : asInteger.Returns [value] (.integer n) := by
  refine returns_of_form fun ev call scope s moments cells t hcells hvalues => ?_
  have hlength := Evaluator.length_of_evalAll hcells
  obtain ⟨name, site, operands⟩ := call
  obtain ⟨cell, rfl⟩ : ∃ cell, cells = [cell] := by
    rw [← List.length_eq_one_iff, ← List.length_map, hvalues, List.length_singleton]
  obtain ⟨operand, rfl⟩ := List.length_eq_one_iff.1 hlength.symm
  obtain ⟨_, hcell, hends⟩ := Evaluator.exists_of_evalAll_singleton hcells
  obtain rfl := List.singleton_inj.1 hcell
  obtain rfl := List.singleton_inj.1 hvalues
  rw [← List.append_nil moments]
  refine hends.bind ?_
  rw [h]
  exact .done _ _

open Numeral (Pattern.integer denoted IsSmall)

namespace Brackets

theorem readLine_integer (b : Brackets) (line : Line) {text : String}
    (h : text.toList ∈ Pattern.integer.matches') :
    (∀ value, b.Reads line text (.integer value) ↔
      IsSmall (denoted text.toList) ∧ value.toInt = denoted text.toList) ∧
    (b.readLine line text = (b, .error ⟨.integerTooLarge, line.locate 1⟩) ↔
      ¬ IsSmall (denoted text.toList)) := by
  obtain ⟨front, n, hwritten, hnone⟩ := Numeral.mem_integer_iff.1 h
  have hne : text ≠ "" := by
    rintro rfl
    have hempty := List.append_eq_nil_iff.1 hwritten.word_eq.symm
    exact hwritten.whole_ne hnone (List.append_eq_nil_iff.1 hempty.2).1
  have hread := b.readLine_word line hne fun c => hwritten.isDelimiter_eq_false hnone
  simp only [Reads, hread]
  have hreading := Token.reading_leafOfWord text.toList
  generalize Token.leafOfWord text.toList = outcome at hreading
  cases hreading with
  | integer value _ hsmall hvalue =>
    rw [← hvalue] at hsmall ⊢
    simp [hsmall, Int64.toInt_inj, eq_comm]
  | tooLarge _ hlarge => simp [hlarge]
  | real value hreal => exact absurd hreal (Numeral.not_mem_real h)
  | malformed _ hnumeral => exact absurd h (Numeral.not_mem_of_isNumeral hnumeral).1
  | symbol hbegins =>
    rw [Numeral.begins_of_mem_integer h] at hbegins
    cases hbegins

end Brackets

/-- A text in the form of an integer is always converted. The scanner reads the same integer as long
as the text denotes one of 64 bits, and refuses the text otherwise; the conversion then gives the
end of the integers that is nearer. -/
theorem integer_texts_are_cut_off (b : Brackets) (line : Line) (text : String)
    (htext : text.toList ∈ Pattern.integer.matches') :
    ∃ n : Int64, Keyword.asInteger.Returns [.string text] (.integer n) ∧
      (n.toInt = denoted text.toList ↔ IsSmall (denoted text.toList)) ∧
      (∀ value, b.Reads line text (.integer value) ↔
        value = n ∧ n.toInt = denoted text.toList) ∧
      (b.readLine line text = (b, .error ⟨.integerTooLarge, line.locate 1⟩) ↔
        n.toInt ≠ denoted text.toList) ∧
      (2 ^ 63 ≤ denoted text.toList → n = Int64.maxValue) ∧
      (denoted text.toList < -2 ^ 63 → n = Int64.minValue) := by
  obtain ⟨front, numeral, hwritten, hnone⟩ := Numeral.mem_integer_iff.1 htext
  have hconverted := hwritten.integerOfText?_eq hnone
  have hsmall := Decimal.toInt_clamp_eq_iff (n := denoted text.toList)
  obtain ⟨hreads, hrefuses⟩ := b.readLine_integer line htext
  refine ⟨_, Keyword.returns_asInteger hconverted, hsmall, fun value => ?_, ?_, ?_, ?_⟩
  · rw [hreads, ← hsmall, and_comm]
    refine and_congr_left fun hexact => ?_
    rw [← Int64.toInt_inj, hexact]
  · rw [hrefuses, ne_eq, hsmall]
  · exact Decimal.clamp_of_ge
  · exact fun hlow => Decimal.clamp_of_le hlow.le

theorem integer_texts_are_cut_off_below :
    "-9223372036854775809".toList ∈ Pattern.integer.matches' ∧
    Brackets.none.readLine ⟨1, none⟩ "-9223372036854775809" =
      (Brackets.none, .error ⟨.integerTooLarge, ⟨1, 1, none⟩⟩) ∧
    ∃ c t, (eval ⟨[], [], fun _ => none⟩ 2
        (Keyword.asInteger.calling [.string "-9223372036854775809"]).1 Store.root
        (Keyword.asInteger.calling [.string "-9223372036854775809"]).2).Ends [] (.ok c) t ∧
      c.value = .integer Int64.minValue := by
  have hpattern : "-9223372036854775809".toList ∈ Pattern.integer.matches' :=
    (RegularExpression.rmatch_iff_matches' _ _).1 (by decide +kernel)
  have hdenoted : denoted "-9223372036854775809".toList = -2 ^ 63 - 1 := by decide +kernel
  obtain ⟨n, hreturns, -, -, hrefuses, -, hlow⟩ :=
    integer_texts_are_cut_off Brackets.none ⟨1, none⟩ _ hpattern
  rw [hdenoted] at hrefuses hlow
  obtain rfl := hlow (by decide)
  have hliteral : ∀ value ∈ [Value.string "-9223372036854775809"], value.IsLiteral :=
    List.forall_mem_singleton.2 (Value.isLiteral_string _)
  exact ⟨hpattern, hrefuses.2 (by decide), hreturns.exists_ends hliteral⟩

/-- The scanner refuses the least integer that does not fit in 64 bits, and the conversion makes
another integer of it. -/
theorem refused_integer_is_converted :
    "9223372036854775808".toList ∈ Pattern.integer.matches' ∧
    denoted "9223372036854775808".toList = 2 ^ 63 ∧
    Brackets.none.readLine ⟨1, none⟩ "9223372036854775808" =
      (Brackets.none, .error ⟨.integerTooLarge, ⟨1, 1, none⟩⟩) ∧
    ∃ c t, (eval ⟨[], [], fun _ => none⟩ 2
        (Keyword.asInteger.calling [.string "9223372036854775808"]).1 Store.root
        (Keyword.asInteger.calling [.string "9223372036854775808"]).2).Ends [] (.ok c) t ∧
      c.value = .integer Int64.maxValue := by
  have hpattern : "9223372036854775808".toList ∈ Pattern.integer.matches' :=
    (RegularExpression.rmatch_iff_matches' _ _).1 (by decide +kernel)
  have hdenoted : denoted "9223372036854775808".toList = 2 ^ 63 := by decide +kernel
  have hlarge : ¬ IsSmall (denoted "9223372036854775808".toList) := by
    rw [hdenoted]
    exact fun hsmall => absurd hsmall.2 (by decide)
  obtain ⟨front, numeral, hwritten, hnone⟩ := Numeral.mem_integer_iff.1 hpattern
  have hconverted : Form.toInteger? (.string "9223372036854775808") = some (Decimal.clamp _) :=
    hwritten.integerOfText?_eq hnone
  rw [hdenoted, Decimal.clamp_of_ge le_rfl] at hconverted
  have hliteral : ∀ value ∈ [Value.string "9223372036854775808"], value.IsLiteral :=
    List.forall_mem_singleton.2 (Value.isLiteral_string _)
  exact ⟨hpattern, hdenoted, (Brackets.none.readLine_integer ⟨1, none⟩ hpattern).2.2 hlarge,
    (Keyword.returns_asInteger hconverted).exists_ends hliteral⟩

end BracketScript
