import BracketScript.Proofs.Loading
import BracketScript.Proofs.Spelling

/-!
# Quoting and reading

Quoting a tree and reading the quotation gives the tree again, up to its places. A tree that was
read has symbols that can be written, since the scanner found them; its reals must be finite, since
a numeral beyond the range of doubles is read as an infinity, which has no numeral.
-/

namespace BracketScript

namespace Tree

def HasFiniteReals (tree : Tree) : Prop :=
  ∀ value location, .atom (.real value) location ∈ tree.marks → Decimal.IsFinite value

/-- The tree is one of those that some text or line is read as. -/
def IsRead (tree : Tree) : Prop :=
  (∃ origin text trees, parse origin text = .ok trees ∧ tree ∈ trees) ∨
    ∃ origin number text, parseLine origin number text = .ok (some tree)

/-- The first tree is the second or lies inside of it. -/
inductive IsPart : Tree → Tree → Prop
  | refl (tree : Tree) : IsPart tree tree
  | item {part item : Tree} {items : List Tree} {location : Location} :
      item ∈ items → IsPart part item → IsPart part (.list items location)

/-! ### Trees that were read -/

theorem mem_marksAll {tree : Tree} {trees : List Tree} (h : tree ∈ trees) {mark : Mark}
    (hmark : mark ∈ tree.marks) : mark ∈ marksAll trees := by
  induction trees with
  | nil => cases h
  | cons other trees ih =>
    rw [marksAll_cons, List.mem_append]
    rcases List.mem_cons.1 h with rfl | h
    · exact .inl hmark
    · exact .inr (ih h)

theorem IsPart.mem_marks {part tree : Tree} (h : part.IsPart tree) {mark : Mark}
    (hmark : mark ∈ part.marks) : mark ∈ tree.marks := by
  induction h with
  | refl => exact hmark
  | item hitem _ ih => simp [marks, mem_marksAll hitem ih]

theorem scan_of_mem_scans {origin : Option String} {number : Nat} {lines : List String}
    {scan : Scan} (h : scan ∈ Token.scans origin number lines) :
    ∃ line text, scan = Token.scan line text := by
  induction lines generalizing number with
  | nil => cases h
  | cons text lines ih =>
    rcases List.mem_cons.1 h with rfl | h
    · exact ⟨⟨number, origin⟩, text, rfl⟩
    · exact ih h

/-- The tokens of a tree that was read are tokens that the scanner found. -/
theorem IsRead.marks_of_scan {tree : Tree} (h : tree.IsRead) {mark : Mark}
    (hmark : mark ∈ tree.marks) :
    ∃ line text token, token ∈ (Token.scan line text).tokens ∧ token.mark = mark := by
  rcases h with ⟨origin, text, trees, hparse, hmem⟩ | ⟨origin, number, text, hparse⟩
  · obtain ⟨-, hbuild⟩ := parse_eq_ok_iff.1 hparse
    have hmark := mem_marksAll hmem hmark
    rw [(build_eq_ok_iff.1 hbuild).2, List.mem_map] at hmark
    obtain ⟨token, htoken, rfl⟩ := hmark
    obtain ⟨scan, hscan, htoken⟩ := List.mem_flatMap.1 htoken
    obtain ⟨line, text, rfl⟩ := scan_of_mem_scans hscan
    exact ⟨line, text, token, htoken, rfl⟩
  · obtain ⟨-, trees, hbuild⟩ := parseLine_eq_ok_some_iff.1 hparse
    have hmark := mem_marksAll (List.mem_cons_self (l := trees)) hmark
    rw [(build_eq_ok_iff.1 hbuild).2, List.mem_map] at hmark
    obtain ⟨token, htoken, rfl⟩ := hmark
    exact ⟨⟨number, origin⟩, text, token, htoken, rfl⟩

theorem IsRead.isSpellable_of_isPart {part tree : Tree} (h : tree.IsRead) (hpart : part.IsPart tree)
    (hfinite : part.HasFiniteReals) : part.IsSpellable := by
  intro a location hmark
  obtain ⟨line, text, token, htoken, htokenmark⟩ := h.marks_of_scan (hpart.mem_marks hmark)
  obtain ⟨leaf, hkind, rfl, -⟩ := kind_of_mark_eq_atom htokenmark
  apply Atom.isSpellable_ofLeaf
  · rintro name rfl
    exact Token.isSymbolWord_of_mem_scanFrom htoken hkind
  · intro value hvalue
    exact hfinite value location (hvalue ▸ hmark)

theorem IsRead.isList {tree : Tree} (h : tree.IsRead) : tree.IsList := by
  rcases h with ⟨origin, text, trees, hparse, hmem⟩ | ⟨origin, number, text, hparse⟩
  · obtain ⟨-, hbuild⟩ := parse_eq_ok_iff.1 hparse
    exact (build_eq_ok_iff.1 hbuild).1 tree hmem
  · obtain ⟨-, trees, hbuild⟩ := parseLine_eq_ok_some_iff.1 hparse
    exact (build_eq_ok_iff.1 hbuild).1 tree (by simp)

/-! ### Reading a written tree -/

/-- The text of a list, scanned as a line, is built into a list that differs from it in places
only. -/
theorem build_scan_text {tree : Tree} (hlist : tree.IsList) (h : tree.IsSpellable) (line : Line) :
    ∃ other : Tree, other.unplaced = tree.unplaced ∧
      (Token.scan line tree.text).fault = none ∧
      build (Token.scan line tree.text).tokens = .ok [other] := by
  have hend : EndsWord [] := by
    intro c hc
    cases hc
  obtain ⟨other, row, hother, hrow, hscan⟩ := tree.scanFrom_text h hend line 1
  rw [List.append_nil, Token.scanFrom] at hscan
  have hotherList : other.IsList := by
    obtain ⟨items, location, rfl⟩ := hlist
    cases other with
    | atom a place => simp [unplaced] at hother
    | list items place => exact ⟨items, place, rfl⟩
  refine ⟨other, hother, ?_, ?_⟩
  · rw [Token.scan, hscan]
    rfl
  · rw [Token.scan, hscan, build_eq_ok_iff]
    simpa [Scan.after, Scan.empty, hrow] using hotherList

theorem text_ne_nil {tree : Tree} (h : tree.IsList) : tree.text.toList ≠ [] := by
  obtain ⟨items, location, rfl⟩ := h
  simp [text]

theorem parse_text {tree : Tree} (hlist : tree.IsList) (h : tree.IsSpellable)
    (origin : Option String) :
    ∃ other : Tree, other.unplaced = tree.unplaced ∧ parse origin tree.text = .ok [other] := by
  obtain ⟨other, hother, hfault, hbuild⟩ := build_scan_text hlist h ⟨1, origin⟩
  refine ⟨other, hother, parse_eq_ok_iff.2 ?_⟩
  rw [Text.lines_of_newline_not_mem (tree.newline_not_mem_text h) (text_ne_nil hlist)]
  simpa [Token.scans, hfault] using hbuild

theorem parseLine_text {tree : Tree} (hlist : tree.IsList) (h : tree.IsSpellable)
    (origin : Option String) (number : Nat) :
    ∃ other : Tree, other.unplaced = tree.unplaced ∧
      parseLine origin number tree.text = .ok (some other) := by
  obtain ⟨other, hother, hfault, hbuild⟩ := build_scan_text hlist h ⟨number, origin⟩
  exact ⟨other, hother, parseLine_eq_ok_some_iff.2 ⟨hfault, [], hbuild⟩⟩

end Tree

/-- Reading the quotation of a tree gives one tree again, and this differs from the quoted one in
places only. -/
theorem parse_quote_of_isRead {tree : Tree} (h : tree.IsRead) (hfinite : tree.HasFiniteReals)
    (s : Store) (number : Nat) :
    let text := (s.load tree).2.quote (s.load tree).1
    (∃ other, parse none text = .ok [other] ∧ other.unplaced = tree.unplaced) ∧
      ∃ other, parseLine none number text = .ok (some other) ∧ other.unplaced = tree.unplaced := by
  intro text
  have hspellable := h.isSpellable_of_isPart (.refl tree) hfinite
  rw [show text = tree.text from s.quote_load tree]
  obtain ⟨other, hother, hparse⟩ := Tree.parse_text h.isList hspellable none
  obtain ⟨other', hother', hparse'⟩ := Tree.parseLine_text h.isList hspellable none number
  exact ⟨⟨other, hparse, hother⟩, other', hparse', hother'⟩

/-- The tree that `[var x -0.0]` is read as. -/
def Tree.negativeZero : Tree :=
  .list [.atom (.keyword .define) ⟨1, 2, none⟩, .atom (.symbol "x") ⟨1, 6, none⟩,
    .atom (.real (Decimal.signed true 0)) ⟨1, 8, none⟩] ⟨1, 1, none⟩

theorem scan_negativeZero :
    Token.scan ⟨1, none⟩ "[var x -0.0]" = ⟨[⟨.opening, ⟨1, 1, none⟩⟩,
      ⟨.leaf (.symbol "var"), ⟨1, 2, none⟩⟩, ⟨.leaf (.symbol "x"), ⟨1, 6, none⟩⟩,
      ⟨.leaf (.real (Decimal.signed true 0)), ⟨1, 8, none⟩⟩, ⟨.closing, ⟨1, 12, none⟩⟩], none⟩ := by
  have hkeyword : Token.leafOfWord ['v', 'a', 'r'] = .ok (.symbol "var") := rfl
  have hsymbol : Token.leafOfWord ['x'] = .ok (.symbol "x") := rfl
  have hreal : Token.leafOfWord ['-', '0', '.', '0'] = .ok (.real (Decimal.signed true 0)) := rfl
  have hend : ∀ c rest, Token.isDelimiter c = true → EndsWord (c :: rest) := by
    rintro c rest hc _ ⟨⟩
    exact hc
  rw [Token.scan, show "[var x -0.0]".toList =
      '[' :: (['v', 'a', 'r'] ++ ' ' :: (['x'] ++ ' ' :: (['-', '0', '.', '0'] ++ [']']))) from rfl,
    Tree.scanFrom_opening,
    Token.scanFrom_word (by decide) (List.all_eq_true.1 rfl) hkeyword (hend _ _ rfl),
    Tree.scanFrom_blank,
    Token.scanFrom_word (by decide) (List.all_eq_true.1 rfl) hsymbol (hend _ _ rfl),
    Tree.scanFrom_blank,
    Token.scanFrom_word (by decide) (List.all_eq_true.1 rfl) hreal (hend _ _ rfl),
    Tree.scanFrom_closing, Token.scanFrom]
  rfl

theorem parse_negativeZero : parse none "[var x -0.0]" = .ok [.negativeZero] := by
  have hlines : Text.lines "[var x -0.0]" = ["[var x -0.0]"] := by decide +kernel
  rw [parse_eq_ok_iff, hlines]
  simp only [Token.scans, scan_negativeZero]
  exact ⟨by simp, rfl⟩

theorem hasFiniteReals_negativeZero : Tree.negativeZero.HasFiniteReals := by
  intro value location hmem
  have hvalue : value = Decimal.signed true 0 := by
    simp [Tree.negativeZero, Tree.marks, Tree.marksAll] at hmem
    exact hmem.1
  exact ⟨⟨true, 0, Decimal.leastExponent⟩, hvalue ▸ by decide +kernel⟩

/-- A symbol next to a negative zero is read, quoted and read again. -/
theorem parse_quote_symbol_negativeZero :
    parse none "[var x -0.0]" = .ok [.negativeZero] ∧ Tree.negativeZero.HasFiniteReals ∧
      let text := (Store.initial.load .negativeZero).2.quote (Store.initial.load .negativeZero).1
      (∃ other, parse none text = .ok [other] ∧ other.unplaced = Tree.negativeZero.unplaced) ∧
        ∃ other, parseLine none 7 text = .ok (some other) ∧
          other.unplaced = Tree.negativeZero.unplaced :=
  ⟨parse_negativeZero, hasFiniteReals_negativeZero,
    parse_quote_of_isRead (.inl ⟨none, _, _, parse_negativeZero, by simp⟩)
      hasFiniteReals_negativeZero .initial 7⟩

end BracketScript
