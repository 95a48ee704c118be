import BracketScript.Proofs.Decimal.Overflow
import BracketScript.Proofs.RoundTrip
import BracketScript.Proofs.Words

/-!
# Real literals that are written back

A word with a point is always read as a real, however large a number it denotes. Below the threshold
`Decimal.overflowThreshold` the real is finite, and its text is a numeral that is read as the same
real. From the threshold on the real is an infinity, whose text is a symbol. A tree that was read is
therefore quoted as a text that is read as the same tree, with such symbols in place of its
infinities.
-/

namespace BracketScript

open Decimal (overflowThreshold)

/-! ### Words with a point -/

namespace Numeral

open Decimal (isDigit)

def places (word : List Char) : Nat :=
  (word.dropWhile (· != '.')).tail.length

/-- The number that a word denotes: its digits with its sign, and the point in its place. -/
def quantity (word : List Char) : ℚ :=
  denoted word / 10 ^ places word

namespace IsWritten

variable {word front : List Char} {n : Numeral} {fraction : List Char}

theorem ne_point_of_mem_front (h : IsWritten word front n) : ∀ c ∈ front ++ n.whole, c ≠ '.' := by
  rintro c hc rfl
  rcases List.mem_append.1 hc with hc | hc
  · rcases Pattern.mem_optionalSign.1 h.front_mem with rfl | rfl | rfl <;> simp at hc
  · exact absurd (h.whole_digits _ hc) (by decide)

theorem places_eq (h : IsWritten word front n) (hfraction : n.fraction = some fraction) :
    places word = fraction.length := by
  have hword : word = (front ++ n.whole) ++ '.' :: fraction := by
    rw [h.word_eq, hfraction, behind, List.append_assoc]
  have hfront : ∀ c ∈ front ++ n.whole, (c != '.') = true := by
    simpa using h.ne_point_of_mem_front
  rw [places, hword, List.dropWhile_append_of_pos hfront]
  rfl

theorem abs_denoted_eq (h : IsWritten word front n) (hfraction : n.fraction = some fraction) :
    |denoted word| = Decimal.natOfDigits (n.whole ++ fraction) := by
  have hdigits := (h.fraction_digits fraction hfraction).2
  have hfront : front.filter Char.isDigit = [] := by
    rcases Pattern.mem_optionalSign.1 h.front_mem with rfl | rfl | rfl <;> rfl
  have hwhole : n.whole.filter Char.isDigit = n.whole :=
    List.filter_eq_self.2 fun c hc => h.whole_digits c hc
  have hbehind : fraction.filter Char.isDigit = fraction :=
    List.filter_eq_self.2 fun c hc => hdigits c hc
  have hpoint : Char.isDigit '.' = false := rfl
  rw [denoted, Decimal.natOfDigits_eq, h.word_eq, hfraction, behind]
  simp only [List.filter_append, hfront, hwhole, List.filter_cons, hpoint, hbehind,
    Bool.false_eq_true, if_false, List.nil_append]
  split <;> simp

/-- Up to its sign, the word denotes the decimal of which the nearest double is taken. -/
theorem abs_quantity_eq (h : IsWritten word front n) (hfraction : n.fraction = some fraction) :
    |quantity word| =
      Decimal.natOfDigits (n.whole ++ fraction) * 10 ^ (-(fraction.length : Int)) := by
  rw [quantity, h.places_eq hfraction, abs_div, ← Int.cast_abs, h.abs_denoted_eq hfraction,
    Int.cast_natCast, abs_of_pos (by positivity), zpow_neg, zpow_natCast, div_eq_mul_inv]

theorem negative_eq_mem (h : IsWritten word front n) : n.negative = decide ('-' ∈ word) := by
  have hwhole : '-' ∉ n.whole := fun hmem => absurd (h.whole_digits _ hmem) (by decide)
  have hbehind : '-' ∉ behind n.fraction := by
    cases hfraction : n.fraction with
    | none => simp [behind]
    | some fraction =>
      have hdigits := (h.fraction_digits fraction hfraction).2
      have hmem : '-' ∉ fraction := fun hmem => absurd (hdigits _ hmem) (by decide)
      simp [behind, hmem]
  rw [h.negative_eq, h.word_eq]
  rcases Pattern.mem_optionalSign.1 h.front_mem with rfl | rfl | rfl <;> simp [hwhole, hbehind]

end IsWritten

end Numeral

/-! ### Texts of reals -/

namespace Decimal

def infinityText (negative : Bool) : String :=
  if negative then "-inf" else "inf"

theorem text_signed_infinityBits (negative : Bool) :
    text (signed negative infinityBits) = infinityText negative := by
  rw [text, chars, ofFloat_signed_infinityBits]
  cases negative <;> rfl

theorem point_mem_chars {x : Float} (h : IsFinite x) : '.' ∈ chars x := by
  obtain ⟨n, fraction, hspells⟩ := spells_chars h
  rw [hspells.word_eq]
  simp

theorem isNumeral_chars {x : Float} (h : IsFinite x) : Numeral.isNumeral (chars x) = true := by
  obtain ⟨n, fraction, hspells⟩ := spells_chars h
  rw [Numeral.isNumeral, hspells.read?_eq]
  rfl

/-- What is not finite has a symbol for its text. -/
theorem isSymbolWord_text {x : Float} (h : ¬ IsFinite x) :
    IsSymbolWord (text x) ∧ Keyword.ofName? (text x) = none := by
  have hsymbol (name : String) (hne : name.toList ≠ [])
      (hword : name.toList.all Token.isWordChar = true)
      (hbegins : Numeral.begins name.toList = false) (hname : Keyword.ofName? name = none) :
      IsSymbolWord name ∧ Keyword.ofName? name = none :=
    ⟨⟨hne, List.all_eq_true.1 hword, hbegins⟩, hname⟩
  rw [text, chars]
  cases hshape : Shape.ofFloat x with
  | nan => exact hsymbol "NaN" (by decide) (by decide) (by decide) (by decide)
  | infinite negative =>
    cases negative
    · exact hsymbol "inf" (by decide) (by decide) (by decide) (by decide)
    · exact hsymbol "-inf" (by decide) (by decide) (by decide) (by decide)
  | finite value => exact absurd ⟨value, hshape⟩ h

end Decimal

namespace Token

theorem exists_isWritten_of_leafOfWord {word : List Char} {value : Float}
    (h : leafOfWord word = .ok (.real value)) :
    ∃ front n fraction, Numeral.IsWritten word front n ∧ n.fraction = some fraction ∧
      n.real fraction = value := by
  rw [leafOfWord] at h
  split at h
  · split at h
    · next n hn =>
      obtain ⟨front, hwritten⟩ := Numeral.exists_isWritten hn
      rw [leafOfNumeral] at h
      split at h
      · next fraction hfraction =>
        cases h
        exact ⟨front, n, fraction, hwritten, hfraction, rfl⟩
      · split at h <;> cases h
    · cases h
  · cases h

theorem leafOfWord_of_isWritten {word front fraction : List Char} {n : Numeral}
    (h : Numeral.IsWritten word front n) (hfraction : n.fraction = some fraction) :
    leafOfWord word = .ok (.real (n.real fraction)) := by
  rw [leafOfWord, if_pos h.begins_eq, h.read?_eq]
  simp only [leafOfNumeral, hfraction]

/-- The real that a word is read as is finite if the word denotes a number below the threshold, and
the infinity of its sign otherwise. -/
theorem real_cases {word : List Char} {value : Float} (h : leafOfWord word = .ok (.real value)) :
    |Numeral.quantity word| < overflowThreshold ∧ Decimal.IsFinite value ∨
      overflowThreshold ≤ |Numeral.quantity word| ∧
        value = Decimal.signed (decide ('-' ∈ word)) Decimal.infinityBits := by
  obtain ⟨front, n, fraction, hwritten, hfraction, rfl⟩ := exists_isWritten_of_leafOfWord h
  obtain ⟨bits, hle, hbits, hinfinite⟩ := Decimal.ofDecimal_spec n.negative
    (Decimal.natOfDigits (n.whole ++ fraction)) (-(fraction.length : Int))
  rw [← hwritten.abs_quantity_eq hfraction] at hinfinite
  rw [Numeral.real, hbits, ← hwritten.negative_eq_mem]
  rcases hle.lt_or_eq with hlt | rfl
  · exact .inl ⟨not_le.1 fun h => hlt.ne (hinfinite.2 h), Decimal.isFinite_signed _ hlt⟩
  · exact .inr ⟨hinfinite.1 rfl, rfl⟩

end Token

theorem Brackets.reads_iff (b : Brackets) (line : Line) {word : String} {leaf : Leaf}
    (hword : ∀ c ∈ word.toList, Token.isDelimiter c = false) :
    b.Reads line word leaf ↔ word ≠ "" ∧ Token.leafOfWord word.toList = .ok leaf := by
  by_cases hne : word = ""
  · subst hne
    have hempty : b.readLine line "" = (b, .ok []) := by
      rw [readLine, Token.scan, String.toList_empty, Token.scanFrom]
      rfl
    simp [Reads, hempty]
  · rw [Reads, b.readLine_word line hne hword]
    cases Token.leafOfWord word.toList <;> simp [hne]

theorem Brackets.reads_text (b : Brackets) (line : Line) {value : Float}
    (h : Decimal.IsFinite value) : b.Reads line (Decimal.text value) (.real value) := by
  obtain ⟨hne, hword, -⟩ := Atom.word_of_isSpellable (a := .real value) h (by simp)
  have htext : (Decimal.text value).toList = Decimal.chars value := String.toList_ofList
  refine (b.reads_iff line fun c hc => by simpa [Token.isWordChar] using hword c hc).2 ⟨?_, ?_⟩
  · rintro hempty
    exact hne (by simp [Atom.text, hempty])
  · rw [htext]
    exact Token.leafOfWord_chars h

theorem Brackets.reads_symbol (b : Brackets) (line : Line) {name : String} (h : IsSymbolWord name) :
    b.Reads line name (.symbol name) := by
  refine (b.reads_iff line fun c hc => by simpa [Token.isWordChar] using h.isWordChar c hc).2
    ⟨?_, ?_⟩
  · rintro rfl
    exact h.ne_nil rfl
  · rw [Token.leafOfWord_of_begins_eq_false h.begins_eq, String.ofList_toList]

/-! ### Trees -/

namespace Atom

/-- The atom that the text of an atom is read as. -/
def reread : Atom → Atom
  | .real value =>
    match Decimal.Shape.ofFloat value with
    | .finite _ => .real value
    | _ => .symbol (Decimal.text value)
  | a => a

theorem reread_of_isFinite {value : Float} (h : Decimal.IsFinite value) :
    (real value).reread = .real value := by
  obtain ⟨scaled, hshape⟩ := h
  rw [reread, hshape]

theorem reread_of_not_isFinite {value : Float} (h : ¬ Decimal.IsFinite value) :
    (real value).reread = .symbol (Decimal.text value) := by
  rw [reread]
  split
  · next scaled hshape => exact absurd ⟨scaled, hshape⟩ h
  · rfl

theorem text_reread (a : Atom) : a.reread.text = a.text := by
  cases a with
  | real value =>
    by_cases h : Decimal.IsFinite value
    · rw [reread_of_isFinite h]
    · rw [reread_of_not_isFinite h]
      rfl
  | _ => rfl

theorem reread_eq_self_iff {a : Atom} :
    a.reread = a ↔ ∀ value, a = .real value → Decimal.IsFinite value := by
  cases a with
  | real value =>
    by_cases h : Decimal.IsFinite value
    · simp [reread_of_isFinite h, h]
    · simp [reread_of_not_isFinite h, h]
  | _ => simp [reread]

theorem isSpellable_reread_ofLeaf {leaf : Leaf}
    (hsymbol : ∀ name, leaf = .symbol name → IsSymbolWord name) :
    (ofLeaf leaf).reread.IsSpellable := by
  by_cases hreal : ∃ value, ofLeaf leaf = .real value ∧ ¬ Decimal.IsFinite value
  · obtain ⟨value, hvalue, hinfinite⟩ := hreal
    rw [hvalue, reread_of_not_isFinite hinfinite]
    exact Decimal.isSymbolWord_text hinfinite
  · have hfinite : ∀ value, ofLeaf leaf = .real value → Decimal.IsFinite value :=
      fun value hvalue => not_not.1 fun h => hreal ⟨value, hvalue, h⟩
    rw [reread_eq_self_iff.2 hfinite]
    exact isSpellable_ofLeaf hsymbol hfinite

end Atom

namespace Tree

mutual

/-- The tree with every atom replaced by the one that its text is read as. -/
def reread : Tree → Tree
  | .atom a location => .atom a.reread location
  | .list items location => .list (rereadAll items) location

/-- The trees with every atom replaced by the one that its text is read as. -/
def rereadAll : List Tree → List Tree
  | [] => []
  | tree :: trees => tree.reread :: rereadAll trees

end

mutual

theorem text_reread (tree : Tree) : tree.reread.text = tree.text := by
  match tree with
  | .atom a location => exact a.text_reread
  | .list items location => rw [reread, text, text, textItems_rereadAll items]

theorem textItems_rereadAll (trees : List Tree) :
    textItems (rereadAll trees) = textItems trees := by
  match trees with
  | [] => rfl
  | [tree] => exact text_reread tree
  | tree :: next :: trees =>
    have hrest : textItems (next.reread :: rereadAll trees) = textItems (next :: trees) :=
      textItems_rereadAll (next :: trees)
    rw [rereadAll, rereadAll, textItems_cons_cons, textItems_cons_cons, text_reread tree, hrest]

end

mutual

theorem mem_marks_reread {tree : Tree} {a : Atom} {location : Location}
    (h : .atom a location ∈ tree.reread.marks) :
    ∃ b, .atom b location ∈ tree.marks ∧ a = b.reread := by
  match tree with
  | .atom b place =>
    obtain ⟨rfl, rfl⟩ : a = b.reread ∧ location = place := by simpa [reread, marks] using h
    exact ⟨b, by simp [marks], rfl⟩
  | .list items place =>
    have hitems : .atom a location ∈ marksAll (rereadAll items) := by
      simpa [reread, marks_list] using h
    obtain ⟨b, hb, rfl⟩ := mem_marksAll_rereadAll hitems
    exact ⟨b, by simp [marks_list, hb], rfl⟩

theorem mem_marksAll_rereadAll {trees : List Tree} {a : Atom} {location : Location}
    (h : .atom a location ∈ marksAll (rereadAll trees)) :
    ∃ b, .atom b location ∈ marksAll trees ∧ a = b.reread := by
  match trees with
  | [] => cases h
  | tree :: trees =>
    rw [rereadAll, marksAll_cons, List.mem_append] at h
    rcases h with h | h
    · obtain ⟨b, hb, rfl⟩ := mem_marks_reread h
      exact ⟨b, by simp [hb], rfl⟩
    · obtain ⟨b, hb, rfl⟩ := mem_marksAll_rereadAll h
      exact ⟨b, by simp [hb], rfl⟩

end

mutual

/-- A tree is read back as itself if its reals are finite, and only then. -/
theorem unplaced_reread_iff (tree : Tree) :
    tree.reread.unplaced = tree.unplaced ↔ tree.HasFiniteReals := by
  match tree with
  | .atom a location =>
    simp only [reread, unplaced, atom.injEq, and_true, Atom.reread_eq_self_iff, HasFiniteReals,
      marks, List.mem_singleton, Mark.atom.injEq]
    exact ⟨fun h value _ hvalue => h value hvalue.1.symm, fun h value hvalue => h value location
      ⟨hvalue.symm, rfl⟩⟩
  | .list items location =>
    simp only [reread, unplaced, list.injEq, and_true, unplacedAll_rereadAll_iff items,
      HasFiniteReals, marks_list]
    simp

theorem unplacedAll_rereadAll_iff (trees : List Tree) :
    unplacedAll (rereadAll trees) = unplacedAll trees ↔
      ∀ value location, .atom (.real value) location ∈ marksAll trees →
        Decimal.IsFinite value := by
  match trees with
  | [] => simp [rereadAll]
  | tree :: trees =>
    simp only [rereadAll, unplacedAll, List.cons.injEq, unplaced_reread_iff tree,
      unplacedAll_rereadAll_iff trees, HasFiniteReals, marksAll_cons, List.mem_append]
    exact ⟨fun h value location hmem => hmem.elim (h.1 value location) (h.2 value location),
      fun h => ⟨fun value location hmem => h value location (.inl hmem),
        fun value location hmem => h value location (.inr hmem)⟩⟩

end

theorem IsRead.isSpellable_reread {tree : Tree} (h : tree.IsRead) : tree.reread.IsSpellable := by
  intro a location hmark
  obtain ⟨b, hb, rfl⟩ := mem_marks_reread hmark
  obtain ⟨line, text, token, htoken, htokenmark⟩ := h.marks_of_scan hb
  obtain ⟨leaf, hkind, rfl, -⟩ := kind_of_mark_eq_atom htokenmark
  refine Atom.isSpellable_reread_ofLeaf ?_
  rintro name rfl
  exact Token.isSymbolWord_of_mem_scanFrom htoken hkind

/-- The quotation of a tree that was read is read as that tree, with symbols in place of the reals
that are not finite. -/
theorem IsRead.parse_quote {tree : Tree} (h : tree.IsRead) (s : Store) :
    ∃ other, parse none ((s.load tree).2.quote (s.load tree).1) = .ok [other] ∧
      other.unplaced = tree.reread.unplaced := by
  have hlist : tree.reread.IsList := by
    obtain ⟨items, location, rfl⟩ := h.isList
    exact ⟨_, _, rfl⟩
  obtain ⟨other, hother, hparse⟩ := parse_text hlist h.isSpellable_reread none
  rw [s.quote_load, ← tree.text_reread]
  exact ⟨other, hparse, hother⟩

end Tree

/-- A word with a point is read as a real whose text is a numeral with a point if the word denotes a
number below the threshold, and only then. The text is read as this real then, and as a symbol
otherwise; so a tree that was read and quoted is read as the same tree again, with symbols in place
of its infinities. -/
theorem real_literals_in_range_are_written_back (b : Brackets) (line : Line) :
    (∀ (word : String) (value : Float),
      (∀ c ∈ word.toList, Token.isDelimiter c = false) → b.Reads line word (.real value) →
      (Numeral.isNumeral (Decimal.text value).toList = true ∧ '.' ∈ (Decimal.text value).toList ↔
        |Numeral.quantity word.toList| < overflowThreshold) ∧
      (|Numeral.quantity word.toList| < overflowThreshold →
        b.Reads line (Decimal.text value) (.real value)) ∧
      (overflowThreshold ≤ |Numeral.quantity word.toList| →
        Decimal.text value = Decimal.infinityText (decide ('-' ∈ word.toList)) ∧
          b.Reads line (Decimal.text value) (.symbol (Decimal.text value)))) ∧
    ∀ (tree : Tree) (s : Store), tree.IsRead →
      ∃ other, parse none ((s.load tree).2.quote (s.load tree).1) = .ok [other] ∧
        other.unplaced = tree.reread.unplaced ∧
        (other.unplaced = tree.unplaced ↔ tree.HasFiniteReals) := by
  constructor
  · intro word value hword hreads
    have htext : (Decimal.text value).toList = Decimal.chars value := String.toList_ofList
    rcases Token.real_cases ((b.reads_iff line hword).1 hreads).2 with
      ⟨hrange, hfinite⟩ | ⟨hrange, hvalue⟩
    · rw [htext]
      refine ⟨iff_of_true ⟨Decimal.isNumeral_chars hfinite, Decimal.point_mem_chars hfinite⟩ hrange,
        fun _ => b.reads_text line hfinite, fun hout => absurd hrange (not_lt.2 hout)⟩
    · have hinfinite : ¬ Decimal.IsFinite value := by
        rintro ⟨scaled, hshape⟩
        rw [hvalue, Decimal.ofFloat_signed_infinityBits] at hshape
        cases hshape
      have hsymbol := (Decimal.isSymbolWord_text hinfinite).1
      refine ⟨iff_of_false ?_ (not_lt.2 hrange), fun hin => absurd hin (not_lt.2 hrange),
        fun _ => ⟨?_, b.reads_symbol line hsymbol⟩⟩
      · rintro ⟨hnumeral, -⟩
        rw [Numeral.isNumeral_eq_false hsymbol.begins_eq] at hnumeral
        cases hnumeral
      · rw [hvalue, Decimal.text_signed_infinityBits]
  · intro tree s hread
    obtain ⟨other, hparse, hother⟩ := hread.parse_quote s
    refine ⟨other, hparse, hother, ?_⟩
    rw [hother, tree.unplaced_reread_iff]

/-! ### At the threshold -/

/-- The digits of a natural, a point and one more digit, with or without a minus. -/
def realLiteral (negative : Bool) (whole : Nat) (digit : Char) : List Char :=
  (if negative then ['-'] else []) ++ (Nat.toDigits 10 whole ++ ['.', digit])

theorem realLiteral_ne_nil (negative : Bool) (whole : Nat) (digit : Char) :
    realLiteral negative whole digit ≠ [] := by
  simp [realLiteral]

section RealLiteral

variable (negative : Bool) (whole : Nat) {digit : Char} (hdigit : Decimal.isDigit digit = true)

include hdigit

theorem isWritten_realLiteral :
    Numeral.IsWritten (realLiteral negative whole digit) (if negative then ['-'] else [])
      ⟨negative, Nat.toDigits 10 whole, some [digit]⟩ where
  front_mem := by cases negative <;> simp [Numeral.Pattern.mem_optionalSign]
  negative_eq := by cases negative <;> rfl
  word_eq := rfl
  whole_digits c hc := Decimal.isDigit_of_mem_toDigits hc
  whole_ne h := by cases h
  fraction_digits fraction h := by
    cases h
    simpa using hdigit

theorem abs_quantity_realLiteral_lt_iff :
    |Numeral.quantity (realLiteral negative whole digit)| < overflowThreshold ↔
      whole < 2 ^ 1024 - 2 ^ 970 := by
  have hplace : Decimal.natOfDigits [digit] < 10 := by
    have hcode := Token.toNat_of_isDigit hdigit
    simp only [Decimal.natOfDigits, List.foldl_cons, List.foldl_nil]
    omega
  have hquantity : |Numeral.quantity (realLiteral negative whole digit)| =
      (10 * whole + Decimal.natOfDigits [digit] : Nat) / 10 := by
    rw [(isWritten_realLiteral negative whole hdigit).abs_quantity_eq rfl,
      Decimal.natOfDigits_append, Decimal.natOfDigits_toDigits]
    simp [div_eq_mul_inv]
  have hle : 2 ^ 970 ≤ 2 ^ 1024 := by decide +kernel
  have hthreshold : overflowThreshold = (2 ^ 1024 - 2 ^ 970 : Nat) := by
    rw [overflowThreshold, Nat.cast_sub hle, Nat.cast_pow, Nat.cast_pow, Nat.cast_ofNat,
      zpow_ofNat, zpow_ofNat]
  rw [hquantity, hthreshold, div_lt_iff₀ (by norm_num)]
  generalize 2 ^ 1024 - 2 ^ 970 = bound
  have hcast : ((10 * whole + Decimal.natOfDigits [digit] : Nat) : ℚ) < bound * 10 ↔
      10 * whole + Decimal.natOfDigits [digit] < bound * 10 := by
    exact_mod_cast Iff.rfl
  rw [hcast]
  omega

theorem isWordChar_realLiteral :
    ∀ c ∈ realLiteral negative whole digit, Token.isWordChar c = true := by
  intro c hc
  simp only [realLiteral, List.mem_append, List.mem_cons, List.not_mem_nil, or_false] at hc
  rcases hc with hc | hc | rfl | rfl
  · cases negative
    · cases hc
    · obtain rfl := List.mem_singleton.1 hc
      rfl
  · exact Token.isWordChar_of_isDigit (Decimal.isDigit_of_mem_toDigits hc)
  · rfl
  · exact Token.isWordChar_of_isDigit hdigit

theorem isDelimiter_realLiteral :
    ∀ c ∈ (String.ofList (realLiteral negative whole digit)).toList,
      Token.isDelimiter c = false := by
  intro c hc
  rw [String.toList_ofList] at hc
  simpa [Token.isWordChar] using isWordChar_realLiteral negative whole hdigit c hc

theorem reads_realLiteral (b : Brackets) (line : Line) :
    b.Reads line (String.ofList (realLiteral negative whole digit))
      (.real (Numeral.real ⟨negative, Nat.toDigits 10 whole, some [digit]⟩ [digit])) := by
  refine (b.reads_iff line (isDelimiter_realLiteral negative whole hdigit)).2 ⟨?_, ?_⟩
  · intro hempty
    have hnil := congrArg String.toList hempty
    rw [String.toList_ofList] at hnil
    exact realLiteral_ne_nil negative whole digit hnil
  · rw [String.toList_ofList]
    exact Token.leafOfWord_of_isWritten (isWritten_realLiteral negative whole hdigit) rfl

end RealLiteral

/-- The literal right below the threshold is read, written and read again; the negative one at the
threshold is written as a symbol. -/
theorem real_literals_in_range_are_written_back_threshold :
    (∃ value,
      Brackets.none.Reads ⟨1, none⟩
        (String.ofList (realLiteral false (2 ^ 1024 - 2 ^ 970 - 1) '9')) (.real value) ∧
      Brackets.none.Reads ⟨1, none⟩ (Decimal.text value) (.real value)) ∧
    ∃ value,
      Brackets.none.Reads ⟨1, none⟩
        (String.ofList (realLiteral true (2 ^ 1024 - 2 ^ 970) '0')) (.real value) ∧
      Brackets.none.Reads ⟨1, none⟩ "-inf" (.symbol "-inf") ∧ Decimal.text value = "-inf" := by
  constructor
  · have hnine : Decimal.isDigit '9' = true := rfl
    have hreads := reads_realLiteral false (2 ^ 1024 - 2 ^ 970 - 1) hnine Brackets.none ⟨1, none⟩
    refine ⟨_, hreads, ((real_literals_in_range_are_written_back _ _).1 _ _
      (isDelimiter_realLiteral _ _ rfl) hreads).2.1 ?_⟩
    rw [String.toList_ofList, abs_quantity_realLiteral_lt_iff _ _ rfl]
    decide +kernel
  · have hzero : Decimal.isDigit '0' = true := rfl
    have hreads := reads_realLiteral true (2 ^ 1024 - 2 ^ 970) hzero Brackets.none ⟨1, none⟩
    obtain ⟨-, -, hout⟩ := (real_literals_in_range_are_written_back _ _).1 _ _
      (isDelimiter_realLiteral _ _ rfl) hreads
    rw [String.toList_ofList] at hout
    obtain ⟨htext, hsymbol⟩ := hout (by
      rw [← not_lt, abs_quantity_realLiteral_lt_iff _ _ rfl]
      exact lt_irrefl _)
    rw [← (isWritten_realLiteral true _ rfl).negative_eq_mem] at htext
    rw [htext] at hsymbol
    exact ⟨_, hreads, hsymbol, htext⟩

/-- A line that holds a list of one word. -/
theorem parse_word {word : List Char} {leaf : Leaf} (hne : word ≠ [])
    (hword : ∀ c ∈ word, Token.isWordChar c = true) (hleaf : Token.leafOfWord word = .ok leaf) :
    parse none (String.ofList ('[' :: (word ++ [']']))) =
      .ok [.list [.atom (.ofLeaf leaf) ⟨1, 2, none⟩] ⟨1, 1, none⟩] := by
  have hend : EndsWord [']'] := by
    rintro _ ⟨⟩
    rfl
  have hscan : Token.scan ⟨1, none⟩ (String.ofList ('[' :: (word ++ [']']))) =
      ⟨[⟨.opening, ⟨1, 1, none⟩⟩, ⟨.leaf leaf, ⟨1, 2, none⟩⟩,
        ⟨.closing, ⟨1, 2 + word.length, none⟩⟩], none⟩ := by
    rw [Token.scan, String.toList_ofList, Tree.scanFrom_opening,
      Token.scanFrom_word hne hword hleaf hend, Tree.scanFrom_closing, Token.scanFrom]
    rfl
  have hnewline : '\n' ∉ (String.ofList ('[' :: (word ++ [']']))).toList := by
    have hnot : '\n' ∉ word := fun hmem => Tree.isWordChar_ne_newline (hword _ hmem) rfl
    simp [hnot]
  rw [parse_eq_ok_iff, Text.lines_of_newline_not_mem hnewline (by simp)]
  simp only [Token.scans, hscan]
  exact ⟨by simp, rfl⟩

/-- A real literal beyond the threshold is read as an infinity, which is quoted as a symbol. -/
theorem large_literal_becomes_symbol :
    let infinity := Decimal.signed false Decimal.infinityBits
    let tree := Tree.list [.atom (.real infinity) ⟨1, 2, none⟩] ⟨1, 1, none⟩
    parse none (String.ofList ('[' :: (realLiteral false (2 * 10 ^ 308) '0' ++ [']']))) =
      .ok [tree] ∧
    (Store.initial.load tree).2.quote (Store.initial.load tree).1 = "[inf]" ∧
    Numeral.isNumeral "inf".toList = false ∧
    parse none "[inf]" = .ok [.list [.atom (.symbol "inf") ⟨1, 2, none⟩] ⟨1, 1, none⟩] := by
  intro infinity tree
  have hzero : Decimal.isDigit '0' = true := rfl
  have hwritten := isWritten_realLiteral false (2 * 10 ^ 308) hzero
  have hleaf := Token.leafOfWord_of_isWritten hwritten rfl
  have hvalue := (Token.real_cases hleaf).resolve_left (by
    rintro ⟨hin, -⟩
    rw [abs_quantity_realLiteral_lt_iff _ _ rfl] at hin
    exact absurd hin (by decide +kernel))
  rw [hvalue.2, ← hwritten.negative_eq_mem] at hleaf
  refine ⟨parse_word (realLiteral_ne_nil _ _ _) (isWordChar_realLiteral _ _ hzero) hleaf, ?_,
    by decide, ?_⟩
  · rw [Store.quote_load]
    simp only [tree, infinity, Tree.text, Tree.textItems, Atom.text,
      Decimal.text_signed_infinityBits]
    rfl
  · have hinf : Token.leafOfWord ['i', 'n', 'f'] = .ok (.symbol "inf") := rfl
    exact parse_word (by simp) (List.all_eq_true.1 rfl) hinf

end BracketScript
