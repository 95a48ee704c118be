import BracketScript.Tree.Printer
import BracketScript.Proofs.Decimal.Text
import BracketScript.Proofs.Grammar

/-!
# Reading back what is written

The text of a tree, scanned on one line, gives the tokens of this tree again. An atom is read back
in front of anything that cannot prolong its word, so the statement for trees speaks about an
arbitrary rest of the line that is empty or begins with a delimiter.

Not every atom can be written: a symbol must be a word that is no numeral and no keyword, and a
real must be finite. `IsSpellable` says so, and what the scanner finds in a text meets it,
finiteness apart.
-/

namespace BracketScript

/-- The name is a word that stands for itself. -/
structure IsSymbolWord (name : String) : Prop where
  ne_nil : name.toList ≠ []
  isWordChar : ∀ c ∈ name.toList, Token.isWordChar c = true
  begins_eq : Numeral.begins name.toList = false

/-- The atom has a text that is read as this atom. -/
def Atom.IsSpellable : Atom → Prop
  | .symbol name => IsSymbolWord name ∧ Keyword.ofName? name = none
  | .real value => Decimal.IsFinite value
  | _ => True

/-- The rest of a line does not prolong a word. -/
def EndsWord (rest : List Char) : Prop :=
  ∀ c ∈ rest.head?, Token.isDelimiter c = true

def Scan.after (tokens : List Token) (scan : Scan) : Scan :=
  ⟨tokens ++ scan.tokens, scan.fault⟩

namespace Token

/-! ### Words -/

theorem isDelimiter_eq_false_iff {c : Char} :
    isDelimiter c = false ↔ Text.isBlank c = false ∧ c ≠ '[' ∧ c ≠ ']' ∧ c ≠ '"' ∧ c ≠ ';' := by
  simp [isDelimiter, and_assoc]

theorem scanFrom_of_isBlank {c : Char} (hc : Text.isBlank c = true) (line : Line) (column : Nat)
    (rest : List Char) : scanFrom line column (c :: rest) = scanFrom line (column + 1) rest := by
  have hsemicolon : c ≠ ';' := by
    rintro rfl
    cases hc
  rw [scanFrom, if_neg hsemicolon, if_pos hc]

theorem scanFrom_leaf {c : Char} {rest : List Char} {leaf : Leaf} (hc : isWordChar c = true)
    (h : leafOfWord (c :: rest.takeWhile isWordChar) = .ok leaf) (line : Line) (column : Nat) :
    scanFrom line column (c :: rest) =
      (scanFrom line (column + (c :: rest.takeWhile isWordChar).length)
        (rest.dropWhile isWordChar)).cons ⟨.leaf leaf, line.locate column⟩ := by
  rw [isWordChar, Bool.not_eq_true', isDelimiter_eq_false_iff] at hc
  obtain ⟨hblank, hopen, hclose, hquote, hsemicolon⟩ := hc
  rw [scanFrom]
  simp only [hsemicolon, hblank, hopen, hclose, hquote, if_false, Bool.false_eq_true, h]

theorem scanFrom_malformed {c : Char} {rest : List Char} {cause : ParseError.Cause}
    (hc : isWordChar c = true)
    (h : leafOfWord (c :: rest.takeWhile isWordChar) = .error cause) (line : Line) (column : Nat) :
    scanFrom line column (c :: rest) = .faulty cause (line.locate column) := by
  rw [isWordChar, Bool.not_eq_true', isDelimiter_eq_false_iff] at hc
  obtain ⟨hblank, hopen, hclose, hquote, hsemicolon⟩ := hc
  rw [scanFrom]
  simp only [hsemicolon, hblank, hopen, hclose, hquote, if_false, Bool.false_eq_true, h]

/-- A word is scanned up to its end. -/
theorem scanFrom_word {word : List Char} (hne : word ≠ [])
    (hword : ∀ c ∈ word, isWordChar c = true) {leaf : Leaf} (hleaf : leafOfWord word = .ok leaf)
    {rest : List Char} (hrest : EndsWord rest) (line : Line) (column : Nat) :
    scanFrom line column (word ++ rest) =
      (scanFrom line (column + word.length) rest).cons ⟨.leaf leaf, line.locate column⟩ := by
  obtain ⟨c, word, rfl⟩ := List.exists_cons_of_ne_nil hne
  obtain ⟨hc, hbehind⟩ := List.forall_mem_cons.1 hword
  have hstop : rest.takeWhile isWordChar = [] ∧ rest.dropWhile isWordChar = rest := by
    cases rest with
    | nil => exact ⟨rfl, rfl⟩
    | cons d rest =>
      have hd : isWordChar d = false := by simpa [isWordChar] using hrest d (by simp)
      simp [hd]
  have htake : (word ++ rest).takeWhile isWordChar = word := by
    rw [List.takeWhile_append_of_pos hbehind, hstop.1, List.append_nil]
  have hdrop : (word ++ rest).dropWhile isWordChar = rest := by
    rw [List.dropWhile_append_of_pos hbehind, hstop.2]
  rw [List.cons_append, scanFrom_leaf hc (by rwa [htake]), htake, hdrop]

theorem leafOfWord_chars {x : Float} (h : Decimal.IsFinite x) :
    leafOfWord (Decimal.chars x) = .ok (.real x) := by
  obtain ⟨n, fraction, hspells⟩ := Decimal.spells_chars h
  simp [leafOfWord, hspells.begins_eq, hspells.read?_eq, leafOfNumeral, hspells.fraction_eq,
    hspells.real_eq]

theorem leafOfWord_toString (value : Int64) :
    leafOfWord (toString value.toInt).toList = .ok (.integer value) := by
  rw [leafOfWord, Decimal.begins_toString, Decimal.read?_toString]
  simp only [if_true, leafOfNumeral]
  rw [Decimal.toInt64?_integer]

theorem leafOfWord_of_begins_eq_false {word : List Char} (h : Numeral.begins word = false) :
    leafOfWord word = .ok (.symbol (String.ofList word)) := by
  simp [leafOfWord, h]

theorem begins_of_leafOfWord {word : List Char} {name : String}
    (h : leafOfWord word = .ok (.symbol name)) :
    name.toList = word ∧ Numeral.begins word = false := by
  rw [leafOfWord] at h
  split at h
  · split at h
    · simp only [leafOfNumeral] at h
      split at h
      · cases h
      · split at h <;> cases h
    · cases h
  · next hbegins =>
    cases h
    exact ⟨String.toList_ofList, by simpa using hbegins⟩

theorem toNat_of_isDigit {c : Char} (h : Decimal.isDigit c = true) :
    48 ≤ c.toNat ∧ c.toNat ≤ 57 := by
  simpa [Decimal.isDigit, Char.le_def, UInt32.le_iff_toNat_le] using h

theorem isWordChar_of_isDigit {c : Char} (h : Decimal.isDigit c = true) : isWordChar c = true := by
  have hcode := toNat_of_isDigit h
  have hblank : Text.isBlank c = false := by
    simp [Text.isBlank]
    omega
  have hother : ∀ d : Char, 57 < d.toNat ∨ d.toNat < 48 → c ≠ d := by
    rintro d hd rfl
    omega
  rw [isWordChar, Bool.not_eq_true', isDelimiter_eq_false_iff]
  exact ⟨hblank, hother _ (by decide), hother _ (by decide), hother _ (by decide),
    hother _ (by decide)⟩

/-! ### What the scanner finds -/

/-- The symbols that the scanner finds are words that stand for themselves. -/
theorem isSymbolWord_of_mem_scanFrom {line : Line} {column : Nat} {cs : List Char} {token : Token}
    (hmem : token ∈ (scanFrom line column cs).tokens) {name : String}
    (hkind : token.kind = .leaf (.symbol name)) : IsSymbolWord name := by
  fun_induction scanFrom line column cs with
  | case1 column => cases hmem
  | case2 column rest => cases hmem
  | case3 column c rest hsemicolon hblank ih => exact ih hmem
  | case4 column rest hsemicolon hblank ih =>
    rcases List.mem_cons.1 hmem with rfl | hmem
    · cases hkind
    · exact ih hmem
  | case5 column rest hsemicolon hblank hopen ih =>
    rcases List.mem_cons.1 hmem with rfl | hmem
    · cases hkind
    · exact ih hmem
  | case6 column rest hsemicolon hblank hopen hclose text after hread hlt ih =>
    rcases List.mem_cons.1 hmem with rfl | hmem
    · cases hkind
    · exact ih hmem
  | case7 column rest hsemicolon hblank hopen hclose e hread => cases hmem
  | case8 column c rest hsemicolon hblank hopen hclose hquote word leaf hleaf hle ih =>
    rcases List.mem_cons.1 hmem with rfl | hmem
    · cases hkind
      obtain ⟨hname, hbegins⟩ := begins_of_leafOfWord hleaf
      refine ⟨by simp [hname, word], fun d hd => ?_, by rw [hname, hbegins]⟩
      rw [hname] at hd
      rcases List.mem_cons.1 hd with rfl | hd
      · simp_all [isWordChar, isDelimiter]
      · exact List.mem_takeWhile_imp hd
    · exact ih hmem
  | case9 column c rest hsemicolon hblank hopen hclose hquote word cause hleaf => cases hmem

end Token

/-! ### Atoms -/

namespace Keyword

theorem mem_all (k : Keyword) : k ∈ all := by
  cases k <;> decide

theorem ofName?_name (k : Keyword) : ofName? k.name = some k := by
  cases k <;> decide +kernel

theorem isSymbolWord_name (k : Keyword) : IsSymbolWord k.name where
  ne_nil := by cases k <;> decide +kernel
  isWordChar := List.all_eq_true.1 (by cases k <;> decide +kernel)
  begins_eq := by cases k <;> decide +kernel

end Keyword

namespace Atom

theorem isSpellable_ofLeaf {leaf : Leaf} (hsymbol : ∀ name, leaf = .symbol name → IsSymbolWord name)
    (hreal : ∀ x, ofLeaf leaf = .real x → Decimal.IsFinite x) : (ofLeaf leaf).IsSpellable := by
  cases leaf with
  | symbol name =>
    cases hname : Keyword.ofName? name with
    | none =>
      simp only [ofLeaf, hname]
      exact ⟨hsymbol name rfl, hname⟩
    | some k =>
      simp only [ofLeaf, hname]
      trivial
  | string text => trivial
  | integer value => trivial
  | real value => exact hreal value rfl

/-- The text of an atom is one word that is read as this atom, unless it is a string. -/
theorem word_of_isSpellable {a : Atom} (h : a.IsSpellable) (hstring : ∀ text, a ≠ .string text) :
    a.text.toList ≠ [] ∧ (∀ c ∈ a.text.toList, Token.isWordChar c = true) ∧
      ∃ leaf, Token.leafOfWord a.text.toList = .ok leaf ∧ ofLeaf leaf = a := by
  cases a with
  | symbol name =>
    obtain ⟨hword, hname⟩ := h
    refine ⟨hword.ne_nil, hword.isWordChar, .symbol name, ?_, by simp only [ofLeaf, hname]⟩
    simp only [text, Token.leafOfWord_of_begins_eq_false hword.begins_eq, String.ofList_toList]
  | keyword k =>
    have hword := k.isSymbolWord_name
    refine ⟨hword.ne_nil, hword.isWordChar, .symbol k.name, ?_, by
      simp only [ofLeaf, k.ofName?_name]⟩
    simp only [text, Token.leafOfWord_of_begins_eq_false hword.begins_eq, String.ofList_toList]
  | string text => exact absurd rfl (hstring text)
  | integer value =>
    refine ⟨?_, fun c hc => ?_, .integer value, Token.leafOfWord_toString value, rfl⟩
    · intro hnil
      have hbegins := Decimal.begins_toString value.toInt
      rw [show (toString value.toInt).toList = [] from hnil] at hbegins
      cases hbegins
    · rcases Decimal.mem_toString_cases hc with rfl | hdigit
      · decide
      · exact Token.isWordChar_of_isDigit hdigit
  | real value =>
    have htext : (text (.real value)).toList = Decimal.chars value := String.toList_ofList
    obtain ⟨n, fraction, hspells⟩ := Decimal.spells_chars h
    rw [htext]
    refine ⟨?_, fun c hc => ?_, .real value, Token.leafOfWord_chars h, rfl⟩
    · simp [hspells.word_eq]
    · rcases hspells.mem_cases hc with rfl | rfl | hdigit
      · decide
      · decide
      · exact Token.isWordChar_of_isDigit hdigit

/-- The text of an atom is scanned as this atom. -/
theorem scanFrom_text {a : Atom} (h : a.IsSpellable) {rest : List Char} (hrest : EndsWord rest)
    (line : Line) (column : Nat) :
    ∃ leaf, ofLeaf leaf = a ∧ Token.scanFrom line column (a.text.toList ++ rest) =
      (Token.scanFrom line (column + a.text.toList.length) rest).cons
        ⟨.leaf leaf, line.locate column⟩ := by
  by_cases hstring : ∃ text, a = .string text
  · obtain ⟨text, rfl⟩ := hstring
    have htext : (Atom.text (.string text)).toList ++ rest =
        '"' :: (text.toList.flatMap Text.escape ++ '"' :: rest) := by
      simp [Atom.text, Text.quoted]
    have hlength : (Atom.text (.string text)).toList.length =
        (text.toList.flatMap Text.escape).length + 2 := by
      simp [Atom.text, Text.quoted]
    refine ⟨.string text, rfl, ?_⟩
    rw [htext, hlength, Token.scanFrom]
    have hblank : Text.isBlank '"' = false := rfl
    simp only [hblank, Bool.false_eq_true, if_false, Char.reduceEq, if_true]
    split
    · next behind after hread =>
      rw [Text.readQuoted_flatMap_escape] at hread
      cases hread
      have hcolumn : column + 1 + ((text.toList.flatMap Text.escape ++ '"' :: rest).length -
          rest.length) = column + ((text.toList.flatMap Text.escape).length + 2) := by
        simp only [List.length_append, List.length_cons]
        omega
      rw [hcolumn, String.ofList_toList]
    · next e hread =>
      rw [Text.readQuoted_flatMap_escape] at hread
      cases hread
  · obtain ⟨hne, hword, leaf, hleaf, rfl⟩ :=
      word_of_isSpellable h fun text htext => hstring ⟨text, htext⟩
    exact ⟨leaf, rfl, Token.scanFrom_word hne hword hleaf hrest line column⟩

end Atom

/-! ### Trees -/

namespace Tree

mutual

/-- The tree without its places, all of which become one and the same. -/
def unplaced : Tree → Tree
  | .atom a _ => .atom a ⟨0, 0, none⟩
  | .list items _ => .list (unplacedAll items) ⟨0, 0, none⟩

def unplacedAll : List Tree → List Tree
  | [] => []
  | tree :: trees => tree.unplaced :: unplacedAll trees

end

def IsSpellable (tree : Tree) : Prop :=
  ∀ a location, .atom a location ∈ tree.marks → a.IsSpellable

theorem isSpellable_list {items : List Tree} {location : Location} :
    (Tree.list items location).IsSpellable ↔
      ∀ a place, .atom a place ∈ marksAll items → a.IsSpellable := by
  simp [IsSpellable, marks_list]

theorem textItems_cons_cons (tree other : Tree) (trees : List Tree) :
    textItems (tree :: other :: trees) = tree.text ++ " " ++ textItems (other :: trees) := rfl

theorem scanFrom_blank (line : Line) (column : Nat) (rest : List Char) :
    Token.scanFrom line column (' ' :: rest) = Token.scanFrom line (column + 1) rest :=
  Token.scanFrom_of_isBlank rfl line column rest

theorem scanFrom_opening (line : Line) (column : Nat) (rest : List Char) :
    Token.scanFrom line column ('[' :: rest) =
      (Token.scanFrom line (column + 1) rest).cons ⟨.opening, line.locate column⟩ := by
  have hblank : Text.isBlank '[' = false := rfl
  rw [Token.scanFrom]
  simp [hblank]

theorem scanFrom_closing (line : Line) (column : Nat) (rest : List Char) :
    Token.scanFrom line column (']' :: rest) =
      (Token.scanFrom line (column + 1) rest).cons ⟨.closing, line.locate column⟩ := by
  have hblank : Text.isBlank ']' = false := rfl
  rw [Token.scanFrom]
  simp [hblank]

mutual

/-- The text of a tree is scanned as the tokens of a tree that differs from it in places only. -/
theorem scanFrom_text (tree : Tree) (h : tree.IsSpellable) {rest : List Char}
    (hrest : EndsWord rest) (line : Line) (column : Nat) :
    ∃ (other : Tree) (row : List Token), other.unplaced = tree.unplaced ∧
      row.map Token.mark = other.marks ∧
      Token.scanFrom line column (tree.text.toList ++ rest) =
        (Token.scanFrom line (column + tree.text.toList.length) rest).after row := by
  match tree with
  | .atom a location =>
    obtain ⟨leaf, hleaf, hscan⟩ :=
      Atom.scanFrom_text (h a location (by simp [marks])) hrest line column
    exact ⟨.atom a (line.locate column), [⟨.leaf leaf, line.locate column⟩], rfl,
      by simp [Token.mark, marks, hleaf], hscan⟩
  | .list items location =>
    obtain ⟨others, row, hothers, hrow, hscan⟩ :=
      scanFrom_textItems items (isSpellable_list.1 h) rest line (column + 1)
    refine ⟨.list others (line.locate column), ⟨.opening, line.locate column⟩ :: row ++
      [⟨.closing, line.locate (column + 1 + (textItems items).toList.length)⟩], ?_, ?_, ?_⟩
    · simp [unplaced, hothers]
    · simp [marks_list, Token.mark, hrow]
    · have htext : (Tree.list items location).text.toList ++ rest =
          '[' :: ((textItems items).toList ++ ']' :: rest) := by
        simp [text]
      have hlength : (Tree.list items location).text.toList.length =
          (textItems items).toList.length + 2 := by
        simp [text]
      have hcolumn : column + ((textItems items).toList.length + 2) =
          column + 1 + (textItems items).toList.length + 1 := by omega
      rw [htext, hlength, hcolumn, scanFrom_opening, hscan, scanFrom_closing]
      simp [Scan.after, Scan.cons]

theorem scanFrom_textItems (items : List Tree)
    (h : ∀ a place, .atom a place ∈ marksAll items → a.IsSpellable) (rest : List Char)
    (line : Line) (column : Nat) :
    ∃ (others : List Tree) (row : List Token), unplacedAll others = unplacedAll items ∧
      row.map Token.mark = marksAll others ∧
      Token.scanFrom line column ((textItems items).toList ++ ']' :: rest) =
        (Token.scanFrom line (column + (textItems items).toList.length)
          (']' :: rest)).after row := by
  have hend : EndsWord (']' :: rest) := by
    intro c hc
    cases hc
    decide
  match items with
  | [] => exact ⟨[], [], rfl, rfl, rfl⟩
  | [tree] =>
    obtain ⟨other, row, hother, hrow, hscan⟩ :=
      scanFrom_text tree (fun a place hmem => h a place (by simpa using hmem)) hend line column
    exact ⟨[other], row, by simp [unplacedAll, hother], by simp [hrow], hscan⟩
  | tree :: next :: trees =>
    obtain ⟨others, row, hothers, hrow, hscan⟩ := scanFrom_textItems (next :: trees)
      (fun a place hmem => h a place (List.mem_append_right _ hmem)) rest line
      (column + tree.text.toList.length + 1)
    have hblank : EndsWord (' ' :: ((textItems (next :: trees)).toList ++ ']' :: rest)) := by
      intro c hc
      cases hc
      decide
    obtain ⟨other, front, hother, hfront, hfirst⟩ := scanFrom_text tree
      (fun a place hmem => h a place (List.mem_append_left _ hmem)) hblank line column
    have htext : (textItems (tree :: next :: trees)).toList =
        tree.text.toList ++ ' ' :: (textItems (next :: trees)).toList := by
      simp [textItems_cons_cons]
    have hcolumn : column + (textItems (tree :: next :: trees)).toList.length =
        column + tree.text.toList.length + 1 + (textItems (next :: trees)).toList.length := by
      simp only [htext, List.length_append, List.length_cons]
      omega
    refine ⟨other :: others, front ++ row, ?_, ?_, ?_⟩
    · rw [unplacedAll, unplacedAll, hother, hothers]
    · rw [List.map_append, hfront, hrow, marksAll_cons]
    · rw [hcolumn, htext, List.append_assoc, List.cons_append, hfirst, scanFrom_blank, hscan]
      simp [Scan.after]

end

/-! ### One line -/

theorem isWordChar_ne_newline {c : Char} (h : Token.isWordChar c = true) : c ≠ '\n' := by
  rintro rfl
  exact absurd h (by decide)

theorem newline_not_mem_escape (c : Char) : '\n' ∉ Text.escape c := by
  unfold Text.escape
  split <;> simp_all [eq_comm]

theorem newline_not_mem_atom {a : Atom} (h : a.IsSpellable) : '\n' ∉ a.text.toList := by
  intro hmem
  by_cases hstring : ∃ text, a = .string text
  · obtain ⟨text, rfl⟩ := hstring
    simp [Atom.text, Text.quoted, newline_not_mem_escape] at hmem
  · obtain ⟨-, hword, -⟩ :=
      Atom.word_of_isSpellable h fun text htext => hstring ⟨text, htext⟩
    exact isWordChar_ne_newline (hword _ hmem) rfl

mutual

theorem newline_not_mem_text (tree : Tree) (h : tree.IsSpellable) : '\n' ∉ tree.text.toList := by
  match tree with
  | .atom a location => exact newline_not_mem_atom (h a location (by simp [marks]))
  | .list items location =>
    have hitems := newline_not_mem_textItems items (isSpellable_list.1 h)
    simp [text, hitems]

theorem newline_not_mem_textItems (items : List Tree)
    (h : ∀ a place, .atom a place ∈ marksAll items → a.IsSpellable) :
    '\n' ∉ (textItems items).toList := by
  match items with
  | [] => simp [textItems]
  | [tree] =>
    exact newline_not_mem_text tree fun a place hmem => h a place (by simpa using hmem)
  | tree :: next :: trees =>
    have hfirst := newline_not_mem_text tree fun a place hmem =>
      h a place (List.mem_append_left _ hmem)
    have hothers := newline_not_mem_textItems (next :: trees) fun a place hmem =>
      h a place (List.mem_append_right _ hmem)
    simp [textItems_cons_cons, hfirst, hothers]

end

end Tree

theorem Text.linesFrom_of_newline_not_mem {collected cs : List Char} (h : '\n' ∉ cs)
    (hne : collected.reverse ++ cs ≠ []) : linesFrom collected cs = [collected.reverse ++ cs] := by
  induction cs generalizing collected with
  | nil =>
    have hcollected : collected ≠ [] := by simpa using hne
    simp [linesFrom, hcollected]
  | cons c cs ih =>
    have hc : c ≠ '\n' := fun hc => h (by simp [hc])
    have hcs : '\n' ∉ cs := fun hcs => h (by simp [hcs])
    rw [linesFrom, if_neg hc, ih hcs (by simp)]
    simp

theorem Text.lines_of_newline_not_mem {text : String} (h : '\n' ∉ text.toList)
    (hne : text.toList ≠ []) : lines text = [text] := by
  rw [lines, linesFrom_of_newline_not_mem h (by simpa using hne)]
  simp

/-- The one expression of a line is the first of those that a reader finishes on it. -/
theorem parseLine_eq (origin : Option String) (number : Nat) (line : String) :
    parseLine origin number line =
      ((Reader.new origin).finish number [line]).map List.head? := by
  simp only [parseLine, Reader.finish]
  rcases (Reader.new origin).submit number line with ⟨next, fault | trees⟩
  · rfl
  · rcases hcomplete : next.complete with ⟨after, fault | _⟩ <;> simp [hcomplete, Except.map]

theorem parseLine_eq_ok_some_iff {origin : Option String} {number : Nat} {line : String}
    {tree : Tree} :
    parseLine origin number line = .ok (some tree) ↔
      (Token.scan ⟨number, origin⟩ line).fault = none ∧
        ∃ trees, Tree.build (Token.scan ⟨number, origin⟩ line).tokens = .ok (tree :: trees) := by
  have hfinish := (Reader.isCoherent_new origin).finish_eq_ok_iff number [line]
  simp only [Token.scans, List.mem_singleton, forall_eq, List.flatMap_cons, List.flatMap_nil,
    List.append_nil, show (Reader.new origin).held = [] from rfl, List.nil_append,
    show (Reader.new origin).origin = origin from rfl] at hfinish
  rw [parseLine_eq, ← exists_and_left]
  simp only [← hfinish]
  cases (Reader.new origin).finish number [line] with
  | error fault => simp [Except.map]
  | ok trees => cases trees <;> simp [Except.map]

end BracketScript
