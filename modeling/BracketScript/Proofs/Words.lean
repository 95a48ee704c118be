import BracketScript.Proofs.Spelling
import Mathlib.Computability.RegularExpressions

/-!
# What a word stands for

The patterns of numerals are written down as regular expressions here, and every word is shown to be
read the way the patterns say. The link between the two is `Numeral.IsWritten`, which takes a word
apart into the sign, the digits and the point that `Numeral.read?` finds in it.
-/

namespace BracketScript

open RegularExpression (char star)
open Decimal (isDigit)

namespace Numeral

/-! ### Patterns -/

namespace Pattern

/-- `[0-9]` -/
def digit : RegularExpression Char :=
  ['0', '1', '2', '3', '4', '5', '6', '7', '8', '9'].foldr (fun c pattern => char c + pattern) 0

/-- `[0-9]+` -/
def digits : RegularExpression Char := digit * star digit

/-- `[-+]` -/
def sign : RegularExpression Char := char '+' + char '-'

/-- `[-+]?` -/
def optionalSign : RegularExpression Char := 1 + sign

/-- `[.]` -/
def point : RegularExpression Char := char '.'

/-- `[-+]?[0-9]+` -/
def integer : RegularExpression Char := optionalSign * digits

/-- `[-+]?[0-9]*[.][0-9]+` -/
def real : RegularExpression Char := optionalSign * (star digit * (point * digits))

/-- `[-+]?([0-9]*[.])?[0-9]+` -/
def numeral : RegularExpression Char := optionalSign * ((1 + star digit * point) * digits)

/-- `[0-9]|[-+.][0-9]|[-+][.][0-9]`, with which a word begins that must be a numeral. -/
def start : RegularExpression Char :=
  digit + (sign + point) * digit + sign * (point * digit)

theorem mem_singleton {c : Char} {word : List Char} :
    word ∈ ({[c]} : Language Char) ↔ word = [c] :=
  Iff.rfl

theorem isDigit_iff {c : Char} :
    isDigit c = true ↔ c ∈ ['0', '1', '2', '3', '4', '5', '6', '7', '8', '9'] := by
  constructor
  · intro h
    obtain ⟨hlow, hhigh⟩ := Token.toNat_of_isDigit h
    rw [← Char.ofNat_toNat c]
    interval_cases c.toNat <;> decide
  · exact List.all_eq_true.1 (by decide) c

theorem mem_digit {word : List Char} :
    word ∈ digit.matches' ↔ ∃ c, isDigit c = true ∧ word = [c] := by
  simp [digit, Language.mem_add, mem_singleton, isDigit_iff]

theorem mem_star_digit {word : List Char} :
    word ∈ (star digit).matches' ↔ ∀ c ∈ word, isDigit c = true := by
  rw [RegularExpression.matches'_star, Language.mem_kstar]
  constructor
  · rintro ⟨parts, rfl, hparts⟩ c hc
    obtain ⟨part, hpart, hc⟩ := List.mem_flatten.1 hc
    obtain ⟨d, hd, rfl⟩ := mem_digit.1 (hparts part hpart)
    rwa [List.mem_singleton.1 hc]
  · intro h
    have hparts : word = (word.map fun c => [c]).flatten := by
      rw [← List.flatMap_def, List.flatMap_singleton']
    refine ⟨_, hparts, fun part hpart => ?_⟩
    obtain ⟨c, hc, rfl⟩ := List.mem_map.1 hpart
    exact mem_digit.2 ⟨c, h c hc, rfl⟩

theorem mem_digits {word : List Char} :
    word ∈ digits.matches' ↔ word ≠ [] ∧ ∀ c ∈ word, isDigit c = true := by
  rw [digits, RegularExpression.matches'_mul, Language.mem_mul]
  constructor
  · rintro ⟨first, hfirst, rest, hrest, rfl⟩
    obtain ⟨c, hc, rfl⟩ := mem_digit.1 hfirst
    simpa [hc] using mem_star_digit.1 hrest
  · rintro ⟨hne, hall⟩
    obtain ⟨c, rest, rfl⟩ := List.exists_cons_of_ne_nil hne
    rw [List.forall_mem_cons] at hall
    exact ⟨[c], mem_digit.2 ⟨c, hall.1, rfl⟩, rest, mem_star_digit.2 hall.2, rfl⟩

theorem mem_optionalSign {word : List Char} :
    word ∈ optionalSign.matches' ↔ word = [] ∨ word = ['+'] ∨ word = ['-'] := by
  simp [optionalSign, sign, Language.mem_add, Language.mem_one, mem_singleton]

/-- A numeral has no point or one. -/
theorem mem_numeral {word : List Char} :
    word ∈ numeral.matches' ↔ word ∈ integer.matches' ∨ word ∈ real.matches' := by
  simp only [numeral, integer, real, RegularExpression.matches'_mul,
    RegularExpression.matches'_add, RegularExpression.matches'_epsilon, add_mul, one_mul, mul_add,
    mul_assoc, Language.mem_add]

theorem mem_char_mul {c : Char} {pattern : Language Char} {word : List Char} :
    word ∈ {[c]} * pattern ↔ ∃ rest ∈ pattern, word = c :: rest := by
  simp [Language.mem_mul, mem_singleton, eq_comm]

theorem mem_start {word : List Char} :
    word ∈ start.matches' ↔ ∃ c, isDigit c = true ∧
      (word = [c] ∨ word = ['+', c] ∨ word = ['-', c] ∨ word = ['.', c] ∨
        word = ['+', '.', c] ∨ word = ['-', '.', c]) := by
  simp only [start, sign, point, RegularExpression.matches'_add, RegularExpression.matches'_mul,
    RegularExpression.matches'_char, add_mul, Language.mem_add, mem_char_mul, mem_digit]
  grind

end Pattern

def denoted (word : List Char) : Int :=
  (if '-' ∈ word then -1 else 1) * Nat.ofDigitChars 10 (word.filter Char.isDigit) 0

/-! ### Words taken apart -/

def behind : Option (List Char) → List Char
  | none => []
  | some fraction => '.' :: fraction

/-- The word is `front`, a sign or nothing, followed by the digits and the point of the numeral. -/
structure IsWritten (word front : List Char) (n : Numeral) : Prop where
  front_mem : front ∈ Pattern.optionalSign.matches'
  negative_eq : n.negative = decide (front = ['-'])
  word_eq : word = front ++ (n.whole ++ behind n.fraction)
  whole_digits : ∀ c ∈ n.whole, isDigit c = true
  whole_ne : n.fraction = none → n.whole ≠ []
  fraction_digits : ∀ fraction ∈ n.fraction, fraction ≠ [] ∧ ∀ c ∈ fraction, isDigit c = true

theorem mem_integer_iff {word : List Char} :
    word ∈ Pattern.integer.matches' ↔ ∃ front n, IsWritten word front n ∧ n.fraction = none := by
  simp only [Pattern.integer, RegularExpression.matches'_mul, Language.mem_mul,
    Pattern.mem_digits]
  constructor
  · rintro ⟨front, hfront, whole, ⟨hne, hwhole⟩, rfl⟩
    exact ⟨front, ⟨decide (front = ['-']), whole, none⟩,
      ⟨hfront, rfl, by simp [behind], hwhole, fun _ => hne, by simp⟩, rfl⟩
  · rintro ⟨front, n, h, hnone⟩
    refine ⟨front, h.front_mem, n.whole, ⟨h.whole_ne hnone, h.whole_digits⟩, ?_⟩
    rw [h.word_eq, hnone, behind, List.append_nil]

theorem mem_real_iff {word : List Char} :
    word ∈ Pattern.real.matches' ↔
      ∃ front n fraction, IsWritten word front n ∧ n.fraction = some fraction := by
  simp only [Pattern.real, Pattern.point, RegularExpression.matches'_mul,
    RegularExpression.matches'_char, Language.mem_mul, Pattern.mem_star_digit, Pattern.mem_digits,
    Pattern.mem_singleton]
  constructor
  · rintro ⟨front, hfront, _, ⟨whole, hwhole, _, ⟨_, rfl, fraction, hfraction, rfl⟩, rfl⟩, rfl⟩
    exact ⟨front, ⟨decide (front = ['-']), whole, some fraction⟩, fraction,
      ⟨hfront, rfl, rfl, hwhole, by simp, by simpa using hfraction⟩, rfl⟩
  · rintro ⟨front, n, fraction, h, hsome⟩
    refine ⟨front, h.front_mem, _, ⟨n.whole, h.whole_digits, _,
      ⟨_, rfl, fraction, h.fraction_digits _ hsome, rfl⟩, rfl⟩, ?_⟩
    rw [h.word_eq, hsome, behind]
    rfl

theorem begins_iff {word : List Char} :
    begins word = true ↔ ∃ front ∈ Pattern.start.matches', front <+: word := by
  constructor
  · intro h
    unfold begins at h
    split at h
    · next c rest => exact ⟨['+', '.', c], Pattern.mem_start.2 ⟨c, h, by simp⟩, rest, rfl⟩
    · next c rest => exact ⟨['-', '.', c], Pattern.mem_start.2 ⟨c, h, by simp⟩, rest, rfl⟩
    · next c rest _ => exact ⟨['+', c], Pattern.mem_start.2 ⟨c, h, by simp⟩, rest, rfl⟩
    · next c rest _ => exact ⟨['-', c], Pattern.mem_start.2 ⟨c, h, by simp⟩, rest, rfl⟩
    · next c rest => exact ⟨['.', c], Pattern.mem_start.2 ⟨c, h, by simp⟩, rest, rfl⟩
    · next c rest _ _ _ _ _ => exact ⟨[c], Pattern.mem_start.2 ⟨c, h, by simp⟩, rest, rfl⟩
    · cases h
  · rintro ⟨front, hfront, rest, rfl⟩
    obtain ⟨c, hc, hcases⟩ := Pattern.mem_start.1 hfront
    rcases hcases with rfl | rfl | rfl | rfl | rfl | rfl
    · exact Decimal.begins_append false hc rest
    · show begins ('+' :: c :: rest) = true
      rw [begins]
      · exact hc
      · rintro _ _ rfl
        cases hc
    · exact Decimal.begins_append true hc rest
    · exact hc
    · exact hc
    · exact hc

theorem exists_readSign (word : List Char) :
    ∃ front ∈ Pattern.optionalSign.matches', word = front ++ (Decimal.readSign word).2 ∧
      (Decimal.readSign word).1 = decide (front = ['-']) := by
  unfold Decimal.readSign
  split
  · exact ⟨['-'], Pattern.mem_optionalSign.2 (by simp), rfl, rfl⟩
  · exact ⟨['+'], Pattern.mem_optionalSign.2 (by simp), rfl, rfl⟩
  · exact ⟨[], Pattern.mem_optionalSign.2 (by simp), rfl, rfl⟩

theorem exists_isWritten {word : List Char} {n : Numeral} (h : read? word = some n) :
    ∃ front, IsWritten word front n := by
  obtain ⟨front, hfront, hword, hnegative⟩ := exists_readSign word
  have hsplit := (List.takeWhile_append_dropWhile (p := isDigit)
    (l := (Decimal.readSign word).2)).symm
  have hdigits : ∀ c ∈ (Decimal.readSign word).2.takeWhile isDigit, isDigit c = true :=
    fun c hc => List.mem_takeWhile_imp hc
  rw [read?] at h
  simp only at h
  refine ⟨front, ?_⟩
  split at h
  · next hrest =>
    split at h
    · cases h
    · next hne =>
      cases h
      rw [hrest] at hsplit
      exact ⟨hfront, hnegative, by rw [behind, ← hsplit]; exact hword, hdigits,
        fun _ => by simpa using hne, by simp⟩
  · next fraction hrest =>
    split at h
    · next hfraction =>
      cases h
      rw [hrest] at hsplit
      exact ⟨hfront, hnegative, by rw [behind, ← hsplit]; exact hword, hdigits, by simp,
        by simpa using hfraction⟩
    · cases h
  · cases h

namespace IsWritten

variable {word front : List Char} {n : Numeral}

/-- Behind the sign stands a digit, or the point and a digit. -/
theorem exists_digit (h : IsWritten word front n) :
    ∃ d rest, isDigit d = true ∧ (n.whole ++ behind n.fraction = d :: rest ∨
      n.whole ++ behind n.fraction = '.' :: d :: rest) := by
  cases hwhole : n.whole with
  | cons d rest => exact ⟨d, _, h.whole_digits d (by simp [hwhole]), .inl rfl⟩
  | nil =>
    cases hfraction : n.fraction with
    | none => exact absurd hwhole (h.whole_ne hfraction)
    | some fraction =>
      obtain ⟨hne, hdigits⟩ := h.fraction_digits fraction hfraction
      obtain ⟨d, rest, rfl⟩ := List.exists_cons_of_ne_nil hne
      exact ⟨d, rest, hdigits d (by simp), .inr rfl⟩

theorem readSign_eq (h : IsWritten word front n) :
    Decimal.readSign word = (n.negative, n.whole ++ behind n.fraction) := by
  obtain ⟨d, rest, hd, hbody⟩ := h.exists_digit
  rw [h.word_eq, h.negative_eq]
  rcases Pattern.mem_optionalSign.1 h.front_mem with rfl | rfl | rfl
  · rcases hbody with hbody | hbody
    · simpa [hbody] using Decimal.readSign_append false hd rest
    · rw [hbody]
      rfl
  · rfl
  · rfl

theorem read?_eq (h : IsWritten word front n) : read? word = some n := by
  obtain ⟨negative, whole, fraction⟩ := n
  rw [read?, h.readSign_eq]
  simp only
  rw [List.takeWhile_append_of_pos h.whole_digits, List.dropWhile_append_of_pos h.whole_digits]
  cases fraction with
  | none => simpa [behind] using h.whole_ne rfl
  | some fraction =>
    obtain ⟨hne, hdigits⟩ := h.fraction_digits fraction rfl
    have hpoint : isDigit '.' = false := rfl
    simpa [behind, hpoint, hne] using hdigits

theorem begins_eq (h : IsWritten word front n) : begins word = true := by
  obtain ⟨d, rest, hd, hbody⟩ := h.exists_digit
  rw [begins_iff, h.word_eq]
  rcases hbody with hbody | hbody
  · refine ⟨front ++ [d], Pattern.mem_start.2 ⟨d, hd, ?_⟩, rest, by simp [hbody]⟩
    rcases Pattern.mem_optionalSign.1 h.front_mem with rfl | rfl | rfl <;> simp
  · refine ⟨front ++ ['.', d], Pattern.mem_start.2 ⟨d, hd, ?_⟩, rest, by simp [hbody]⟩
    rcases Pattern.mem_optionalSign.1 h.front_mem with rfl | rfl | rfl <;> simp

theorem denoted_eq (h : IsWritten word front n) (hnone : n.fraction = none) :
    denoted word = n.integer := by
  have hword : word = front ++ n.whole := by
    rw [h.word_eq, hnone, behind, List.append_nil]
  have hfilter : n.whole.filter Char.isDigit = n.whole :=
    List.filter_eq_self.2 fun c hc => h.whole_digits c hc
  have hminus : '-' ∉ n.whole := fun hmem => absurd (h.whole_digits _ hmem) (by decide)
  rw [denoted, integer, Decimal.natOfDigits_eq, h.negative_eq, hword]
  rcases Pattern.mem_optionalSign.1 h.front_mem with rfl | rfl | rfl <;>
    simp [hfilter, hminus]

end IsWritten

theorem isNumeral_iff {word : List Char} :
    isNumeral word = true ↔ word ∈ Pattern.numeral.matches' := by
  rw [isNumeral, Option.isSome_iff_exists, Pattern.mem_numeral, mem_integer_iff, mem_real_iff]
  constructor
  · rintro ⟨n, hn⟩
    obtain ⟨front, hwritten⟩ := exists_isWritten hn
    cases hfraction : n.fraction with
    | none => exact .inl ⟨front, n, hwritten, hfraction⟩
    | some fraction => exact .inr ⟨front, n, fraction, hwritten, hfraction⟩
  · rintro (⟨front, n, hwritten, -⟩ | ⟨front, n, fraction, hwritten, -⟩)
    · exact ⟨n, hwritten.read?_eq⟩
    · exact ⟨n, hwritten.read?_eq⟩

theorem begins_of_isNumeral {word : List Char} (h : isNumeral word = true) :
    begins word = true := by
  obtain ⟨n, hn⟩ := Option.isSome_iff_exists.1 h
  obtain ⟨front, hwritten⟩ := exists_isWritten hn
  exact hwritten.begins_eq

theorem isNumeral_eq_false {word : List Char} (h : begins word = false) :
    isNumeral word = false := by
  by_contra hnumeral
  have hbegins := begins_of_isNumeral (by simpa using hnumeral)
  rw [h] at hbegins
  cases hbegins

theorem begins_of_mem_integer {word : List Char} (h : word ∈ Pattern.integer.matches') :
    begins word = true :=
  begins_of_isNumeral (isNumeral_iff.2 (Pattern.mem_numeral.2 (.inl h)))

theorem not_mem_of_isNumeral {word : List Char} (h : isNumeral word = false) :
    word ∉ Pattern.integer.matches' ∧ word ∉ Pattern.real.matches' := by
  rw [← not_or, ← Pattern.mem_numeral, ← isNumeral_iff, h]
  exact Bool.false_ne_true

theorem not_mem_real {word : List Char} (h : word ∈ Pattern.integer.matches') :
    word ∉ Pattern.real.matches' := by
  intro hreal
  obtain ⟨front, n, hn, hnone⟩ := mem_integer_iff.1 h
  obtain ⟨front', m, fraction, hm, hsome⟩ := mem_real_iff.1 hreal
  have hnm : n = m := Option.some.inj (hn.read?_eq.symm.trans hm.read?_eq)
  rw [hnm, hsome] at hnone
  cases hnone

def IsSmall (n : Int) : Prop :=
  -2 ^ 63 ≤ n ∧ n < 2 ^ 63

theorem exists_toInt64? {n : Int} (h : IsSmall n) :
    ∃ value : Int64, toInt64? n = some value ∧ value.toInt = n := by
  refine ⟨Int64.ofInt n, ?_, Int64.toInt_ofInt_of_le h.1 h.2⟩
  rw [toInt64?, Int64.toInt_minValue, Int64.toInt_maxValue, if_pos]
  exact ⟨h.1, Int.le_sub_one_of_lt h.2⟩

theorem toInt64?_eq_none {n : Int} (h : ¬ IsSmall n) : toInt64? n = none := by
  rw [toInt64?, if_neg]
  rintro ⟨hmin, hmax⟩
  rw [Int64.toInt_minValue] at hmin
  rw [Int64.toInt_maxValue] at hmax
  refine h ⟨hmin, ?_⟩
  omega

end Numeral

namespace Token

open Numeral (Pattern.integer Pattern.real IsSmall denoted begins)

/-- What the scanner can make of a word. -/
inductive Reading (word : List Char) : Except ParseError.Cause Leaf → Prop
  | integer (value : Int64) (h : word ∈ Pattern.integer.matches') (hsmall : IsSmall (denoted word))
      (hvalue : value.toInt = denoted word) : Reading word (.ok (.integer value))
  | tooLarge (h : word ∈ Pattern.integer.matches') (hlarge : ¬ IsSmall (denoted word)) :
      Reading word (.error .integerTooLarge)
  | real (value : Float) (h : word ∈ Pattern.real.matches') : Reading word (.ok (.real value))
  | malformed (hbegins : begins word = true) (hnone : Numeral.isNumeral word = false) :
      Reading word (.error (.malformedNumeral (String.ofList word)))
  | symbol (hbegins : begins word = false) : Reading word (.ok (.symbol (String.ofList word)))

theorem reading_of_isWritten {word front : List Char} {n : Numeral}
    (h : Numeral.IsWritten word front n) : Reading word (leafOfNumeral n) := by
  rw [leafOfNumeral]
  cases hfraction : n.fraction with
  | some fraction => exact .real _ (Numeral.mem_real_iff.2 ⟨front, n, fraction, h, hfraction⟩)
  | none =>
    have hmem := Numeral.mem_integer_iff.2 ⟨front, n, h, hfraction⟩
    rw [← h.denoted_eq hfraction]
    by_cases hsmall : IsSmall (denoted word)
    · obtain ⟨value, hsome, hvalue⟩ := Numeral.exists_toInt64? hsmall
      simp only [hsome]
      exact .integer value hmem hsmall hvalue
    · simp only [Numeral.toInt64?_eq_none hsmall]
      exact .tooLarge hmem hsmall

theorem reading_leafOfWord (word : List Char) : Reading word (leafOfWord word) := by
  rw [leafOfWord]
  split
  · next hbegins =>
    split
    · next n hn =>
      obtain ⟨front, hwritten⟩ := Numeral.exists_isWritten hn
      exact reading_of_isWritten hwritten
    · next hnone => exact .malformed hbegins (by rw [Numeral.isNumeral, hnone]; rfl)
  · next hbegins => exact .symbol (by simpa using hbegins)

end Token

/-! ### Lines of one word -/

namespace Brackets

/-- The line holds nothing but the leaf, at its first column. -/
def Reads (b : Brackets) (line : Line) (text : String) (leaf : Leaf) : Prop :=
  b.readLine line text = (b, .ok [⟨.leaf leaf, line.locate 1⟩])

def RefusesNumber (b : Brackets) (line : Line) (text : String) : Prop :=
  ∃ cause : ParseError.Cause, cause.describe = "Malformed number" ∧
    b.readLine line text = (b, .error ⟨cause, line.locate 1⟩)

variable {word : String}

theorem readLine_word (b : Brackets) (line : Line) (hne : word ≠ "")
    (hword : ∀ c ∈ word.toList, Token.isDelimiter c = false) :
    b.readLine line word =
      (b, match Token.leafOfWord word.toList with
        | .ok leaf => .ok [⟨.leaf leaf, line.locate 1⟩]
        | .error cause => .error ⟨cause, line.locate 1⟩) := by
  have hchars : ∀ c ∈ word.toList, Token.isWordChar c = true := by
    simpa [Token.isWordChar] using hword
  obtain ⟨c, rest, hcons⟩ : ∃ c rest, word.toList = c :: rest :=
    List.exists_cons_of_ne_nil (by simpa using hne)
  rw [hcons, List.forall_mem_cons] at hchars
  have htake : rest.takeWhile Token.isWordChar = rest := List.takeWhile_eq_self_iff.2 hchars.2
  have hdrop : rest.dropWhile Token.isWordChar = [] := List.dropWhile_eq_nil_iff.2 hchars.2
  rw [readLine, Token.scan, hcons]
  cases hleaf : Token.leafOfWord (c :: rest) with
  | ok leaf =>
    rw [Token.scanFrom_leaf hchars.1 (by rwa [htake]), hdrop, Token.scanFrom]
    rfl
  | error cause =>
    rw [Token.scanFrom_malformed hchars.1 (by rwa [htake])]
    rfl

end Brackets

open Numeral (Pattern.integer Pattern.real Pattern.numeral Pattern.start denoted IsSmall)

/-- A word without delimiters is the integer it denotes, a real, malformed or a symbol, as the
patterns say; and what is read as a symbol is never a numeral. -/
theorem words_are_read_by_pattern (b : Brackets) (line : Line) :
    (∀ word : String, word ≠ "" → (∀ c ∈ word.toList, Token.isDelimiter c = false) →
      (∀ n : Int, (∃ value : Int64, value.toInt = n ∧ b.Reads line word (.integer value)) ↔
        word.toList ∈ Pattern.integer.matches' ∧ denoted word.toList = n ∧ IsSmall n) ∧
      ((∃ value, b.Reads line word (.real value)) ↔ word.toList ∈ Pattern.real.matches') ∧
      (b.RefusesNumber line word ↔
        (∃ front ∈ Pattern.start.matches', front <+: word.toList) ∧
          ¬ (word.toList ∈ Pattern.integer.matches' ∧ IsSmall (denoted word.toList)) ∧
          word.toList ∉ Pattern.real.matches') ∧
      (b.Reads line word (.symbol word) ↔
        ¬ (∃ value, b.Reads line word (.integer value)) ∧
          ¬ (∃ value, b.Reads line word (.real value)) ∧ ¬ b.RefusesNumber line word)) ∧
    (∀ word, Numeral.isNumeral word = true ↔ word ∈ Pattern.numeral.matches') ∧
    ∀ (text : String) (token : Token) (name : String), token ∈ (Token.scan line text).tokens →
      token.kind = .leaf (.symbol name) → Numeral.isNumeral name.toList = false := by
  refine ⟨fun word hne hword => ?_, fun word => Numeral.isNumeral_iff, ?_⟩
  · have hread := b.readLine_word line hne hword
    simp only [Brackets.Reads, Brackets.RefusesNumber, hread, ← Numeral.begins_iff]
    have hreading := Token.reading_leafOfWord word.toList
    generalize Token.leafOfWord word.toList = outcome at hreading
    cases hreading with
    | integer value h hsmall hvalue =>
      simp [h, hsmall, Numeral.not_mem_real h, hvalue]
    | tooLarge h hlarge =>
      simp [h, hlarge, Numeral.not_mem_real h, Numeral.begins_of_mem_integer h,
        ParseError.Cause.describe]
    | real value h =>
      have hinteger : word.toList ∉ Pattern.integer.matches' :=
        fun hinteger => Numeral.not_mem_real hinteger h
      simp [h, hinteger]
    | malformed hbegins hnone =>
      simp [Numeral.not_mem_of_isNumeral hnone, hbegins, ParseError.Cause.describe]
    | symbol hbegins =>
      simp [Numeral.not_mem_of_isNumeral (Numeral.isNumeral_eq_false hbegins), hbegins]
  · intro text token name hmem hkind
    exact Numeral.isNumeral_eq_false (Token.isSymbolWord_of_mem_scanFrom hmem hkind).begins_eq

theorem words_are_read_by_pattern_least :
    ("-9223372036854775808" ≠ "" ∧
      ∀ c ∈ "-9223372036854775808".toList, Token.isDelimiter c = false) ∧
    ∃ value : Int64, value.toInt = -2 ^ 63 ∧
      Brackets.none.Reads ⟨1, none⟩ "-9223372036854775808" (.integer value) := by
  have hne : "-9223372036854775808" ≠ "" := by decide
  have hword : ∀ c ∈ "-9223372036854775808".toList, Token.isDelimiter c = false := by
    have hall : "-9223372036854775808".toList.all Token.isWordChar = true := by decide +kernel
    intro c hc
    simpa [Token.isWordChar] using List.all_eq_true.1 hall c hc
  have hpattern : "-9223372036854775808".toList ∈ Pattern.integer.matches' :=
    (RegularExpression.rmatch_iff_matches' _ _).1 (by decide +kernel)
  refine ⟨⟨hne, hword⟩, ?_⟩
  refine ((words_are_read_by_pattern Brackets.none ⟨1, none⟩).1 _ hne hword).1 (-2 ^ 63) |>.2 ?_
  exact ⟨hpattern, by decide +kernel, by decide, by decide⟩

end BracketScript
