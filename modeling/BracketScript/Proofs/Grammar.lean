import BracketScript.Reader
import Mathlib.Data.List.Basic

/-!
# The grammar of texts

A row of tokens is read when it is a row of lists in brackets, and nothing of it is lost: written
out again, the trees give the tokens back. The two sides are compared as rows of marks, which keep
everything of a token but the place of a closing bracket.

The builder keeps its open lists on a stack. `written` are the marks of all that it has consumed,
and they do not change when a list is closed; this is what carries the inductions. The reader cuts
the tokens at every line after which no bracket is open, and there the builder has an empty stack,
so that it can begin anew.
-/

namespace BracketScript

/-! ### Marks -/

/-- A token as a tree keeps it. -/
inductive Mark where
  | opening (location : Location)
  | closing
  | atom (a : Atom) (location : Location)

/-- The token without the place of a closing bracket. -/
def Token.mark (token : Token) : Mark :=
  match token.kind with
  | .opening => .opening token.location
  | .closing => .closing
  | .leaf leaf => .atom (.ofLeaf leaf) token.location

/-- A symbol is a keyword only if it is written like this keyword. -/
theorem Keyword.name_of_ofName? {name : String} {k : Keyword} (h : ofName? name = some k) :
    k.name = name := by
  simpa using List.find?_some h

theorem Atom.ofLeaf_injective : Function.Injective Atom.ofLeaf := by
  have hsymbol : ∀ name, ofLeaf (.symbol name) = .symbol name ∨
      ∃ k : Keyword, k.name = name ∧ ofLeaf (.symbol name) = .keyword k := by
    intro name
    cases h : Keyword.ofName? name with
    | none => exact .inl (by simp only [ofLeaf, h])
    | some k => exact .inr ⟨k, Keyword.name_of_ofName? h, by simp only [ofLeaf, h]⟩
  intro leaf leaf' h
  cases leaf with
  | symbol name =>
    cases leaf' with
    | symbol name' =>
      rcases hsymbol name with hname | ⟨k, hk, hname⟩ <;>
        rcases hsymbol name' with hname' | ⟨k', hk', hname'⟩ <;>
        rw [hname, hname'] at h <;> cases h
      · rfl
      · rw [← hk, ← hk']
    | _ =>
      rcases hsymbol name with hname | ⟨k, -, hname⟩ <;> rw [hname] at h <;> cases h
  | _ =>
    cases leaf' with
    | symbol name' =>
      rcases hsymbol name' with hname' | ⟨k, -, hname'⟩ <;> rw [hname'] at h <;> cases h
    | _ => cases h <;> rfl

/-- Tokens with one mark differ at most in the places of closing brackets. -/
theorem Token.mark_eq_iff {token token' : Token} :
    token.mark = token'.mark ↔ token.kind = token'.kind ∧
      (token.kind ≠ .closing → token.location = token'.location) := by
  obtain ⟨kind, location⟩ := token
  obtain ⟨kind', location'⟩ := token'
  cases kind <;> cases kind' <;> simp [mark, Atom.ofLeaf_injective.eq_iff]

namespace Tree

mutual

/-- The marks of a tree: a list is its items between an opening and a closing bracket. -/
def marks : Tree → List Mark
  | .atom a location => [.atom a location]
  | .list items location => .opening location :: (marksAll items ++ [.closing])

def marksAll : List Tree → List Mark
  | [] => []
  | tree :: trees => tree.marks ++ marksAll trees

end

@[simp] theorem marksAll_nil : marksAll [] = [] := rfl

@[simp] theorem marksAll_cons (tree : Tree) (trees : List Tree) :
    marksAll (tree :: trees) = tree.marks ++ marksAll trees := rfl

@[simp] theorem marksAll_append (trees others : List Tree) :
    marksAll (trees ++ others) = marksAll trees ++ marksAll others := by
  induction trees with
  | nil => rfl
  | cons tree trees ih => simp [ih]

theorem marks_list (items : List Tree) (location : Location) :
    (Tree.list items location).marks = .opening location :: (marksAll items ++ [.closing]) := rfl

def IsList (tree : Tree) : Prop :=
  ∃ items location, tree = .list items location

/-! ### The builder -/

def Frame.marks (frame : Frame) : List Mark :=
  .opening frame.location :: marksAll frame.items.reverse

/-- The marks of what the builder has consumed. -/
def written (frames : List Frame) (trees : List Tree) : List Mark :=
  marksAll trees.reverse ++ frames.reverse.flatMap Frame.marks

@[simp] theorem Frame.marks_push (frame : Frame) (tree : Tree) :
    (frame.push tree).marks = frame.marks ++ tree.marks := by
  simp [Frame.marks, Frame.push]

@[simp] theorem Frame.marks_close (frame : Frame) :
    frame.close.marks = frame.marks ++ [.closing] := by
  simp [Frame.marks, Frame.close, marks_list]

theorem Frame.isList_close (frame : Frame) : frame.close.IsList :=
  ⟨_, _, rfl⟩

/-- Each token that the builder consumes adds its mark, whatever is done with the stack. -/
theorem marksAll_of_buildFrom {frames : List Frame} {trees : List Tree} {tokens : List Token}
    {result : List Tree} (h : buildFrom frames trees tokens = .ok result) :
    marksAll result = written frames trees ++ tokens.map Token.mark := by
  fun_induction buildFrom frames trees tokens with
  | case1 trees =>
    cases h
    simp [written]
  | case2 trees frame => cases h
  | case3 trees token tokens frames hkind ih =>
    rw [ih h]
    simp [written, Frame.marks, Token.mark, hkind]
  | case4 trees token tokens hkind => cases h
  | case5 trees token tokens frame hkind ih =>
    rw [ih h]
    simp [written, Token.mark, hkind]
  | case6 trees token tokens frame outer others hkind ih =>
    rw [ih h]
    simp [written, Token.mark, hkind]
  | case7 trees token tokens leaf hkind => cases h
  | case8 trees token tokens leaf frame others hkind ih =>
    rw [ih h]
    simp [written, Token.mark, hkind, marks]

theorem isList_of_buildFrom {frames : List Frame} {trees : List Tree} {tokens : List Token}
    {result : List Tree} (htrees : ∀ tree ∈ trees, tree.IsList)
    (h : buildFrom frames trees tokens = .ok result) : ∀ tree ∈ result, tree.IsList := by
  fun_induction buildFrom frames trees tokens with
  | case1 trees =>
    cases h
    simpa using htrees
  | case2 trees frame => cases h
  | case3 trees token tokens frames hkind ih => exact ih htrees h
  | case4 trees token tokens hkind => cases h
  | case5 trees token tokens frame hkind ih =>
    refine ih ?_ h
    rintro tree (_ | ⟨_, htree⟩)
    · exact frame.isList_close
    · exact htrees tree htree
  | case6 trees token tokens frame outer others hkind ih => exact ih htrees h
  | case7 trees token tokens leaf hkind => cases h
  | case8 trees token tokens leaf frame others hkind ih => exact ih htrees h

theorem kind_of_mark_eq_opening {token : Token} {location : Location}
    (h : token.mark = .opening location) : token.kind = .opening ∧ token.location = location := by
  obtain ⟨kind, place⟩ := token
  cases kind <;> simp_all [Token.mark]

theorem kind_of_mark_eq_closing {token : Token} (h : token.mark = .closing) :
    token.kind = .closing := by
  obtain ⟨kind, place⟩ := token
  cases kind <;> simp_all [Token.mark]

theorem kind_of_mark_eq_atom {token : Token} {a : Atom} {location : Location}
    (h : token.mark = .atom a location) :
    ∃ leaf, token.kind = .leaf leaf ∧ .ofLeaf leaf = a ∧ token.location = location := by
  obtain ⟨kind, place⟩ := token
  cases kind <;> simp_all [Token.mark]

theorem buildFrom_opening {token : Token} (h : token.kind = .opening) (frames : List Frame)
    (trees : List Tree) (tokens : List Token) :
    buildFrom frames trees (token :: tokens) =
      buildFrom (⟨token.location, []⟩ :: frames) trees tokens := by
  simp [buildFrom, h]

theorem row_of_marks_list {items : List Tree} {location : Location} {row : List Token}
    (h : row.map Token.mark = (Tree.list items location).marks) :
    ∃ opening inner closing, row = opening :: (inner ++ [closing]) ∧
      opening.kind = .opening ∧ opening.location = location ∧
      inner.map Token.mark = marksAll items ∧ closing.kind = .closing := by
  rw [marks_list, List.map_eq_cons_iff] at h
  obtain ⟨opening, behind, rfl, hopening, h⟩ := h
  obtain ⟨inner, last, rfl, hitems, hlast⟩ := List.map_eq_append_iff.1 h
  obtain ⟨closing, rfl, hclosing⟩ := List.map_eq_singleton_iff.1 hlast
  obtain ⟨hkind, hlocation⟩ := kind_of_mark_eq_opening hopening
  exact ⟨opening, inner, closing, rfl, hkind, hlocation, hitems, kind_of_mark_eq_closing hclosing⟩

mutual

/-- From the tokens of a tree inside a list, the builder makes this tree. -/
theorem buildFrom_marks (tree : Tree) {row : List Token} (h : row.map Token.mark = tree.marks)
    (frame : Frame) (frames : List Frame) (trees : List Tree) (rest : List Token) :
    buildFrom (frame :: frames) trees (row ++ rest) =
      buildFrom (frame.push tree :: frames) trees rest := by
  match tree with
  | .atom a location =>
    rw [marks, List.map_eq_singleton_iff] at h
    obtain ⟨token, rfl, hmark⟩ := h
    obtain ⟨leaf, hkind, rfl, rfl⟩ := kind_of_mark_eq_atom hmark
    simp [buildFrom, hkind]
  | .list items location =>
    obtain ⟨opening, inner, closing, rfl, hopening, rfl, hitems, hclosing⟩ := row_of_marks_list h
    rw [List.cons_append, List.append_assoc, buildFrom_opening hopening,
      buildFrom_marksAll items hitems]
    simp [buildFrom, hclosing, Frame.close]

theorem buildFrom_marksAll (items : List Tree) {row : List Token}
    (h : row.map Token.mark = marksAll items) (frame : Frame) (frames : List Frame)
    (trees : List Tree) (rest : List Token) :
    buildFrom (frame :: frames) trees (row ++ rest) =
      buildFrom ({ frame with items := items.reverse ++ frame.items } :: frames) trees rest := by
  match items with
  | [] =>
    rw [marksAll_nil, List.map_eq_nil_iff] at h
    subst h
    rfl
  | tree :: items =>
    rw [marksAll_cons, List.map_eq_append_iff] at h
    obtain ⟨front, behind, rfl, htree, hitems⟩ := h
    rw [List.append_assoc, buildFrom_marks tree htree, buildFrom_marksAll items hitems]
    simp [Frame.push]

end

/-- From the tokens of a list outside of all lists, the builder makes this list. -/
theorem buildFrom_list {tree : Tree} (hlist : tree.IsList) {row : List Token}
    (h : row.map Token.mark = tree.marks) (trees : List Tree) (rest : List Token) :
    buildFrom [] trees (row ++ rest) = buildFrom [] (tree :: trees) rest := by
  obtain ⟨items, location, rfl⟩ := hlist
  obtain ⟨opening, inner, closing, rfl, hopening, rfl, hitems, hclosing⟩ := row_of_marks_list h
  rw [List.cons_append, List.append_assoc, buildFrom_opening hopening,
    buildFrom_marksAll items hitems]
  simp [buildFrom, hclosing, Frame.close]

theorem buildFrom_of_marksAll {result : List Tree} (hlists : ∀ tree ∈ result, tree.IsList)
    {tokens : List Token} (h : tokens.map Token.mark = marksAll result) (trees : List Tree) :
    buildFrom [] trees tokens = .ok (trees.reverse ++ result) := by
  induction result generalizing tokens trees with
  | nil =>
    rw [marksAll_nil, List.map_eq_nil_iff] at h
    subst h
    simp [buildFrom]
  | cons tree result ih =>
    rw [marksAll_cons, List.map_eq_append_iff] at h
    obtain ⟨front, behind, rfl, htree, hresult⟩ := h
    rw [buildFrom_list (hlists tree (by simp)) htree,
      ih (fun other hother => hlists other (by simp [hother])) hresult]
    simp

/-- The builder reads a row of tokens as the lists that have its marks. -/
theorem build_eq_ok_iff {tokens : List Token} {trees : List Tree} :
    build tokens = .ok trees ↔
      (∀ tree ∈ trees, tree.IsList) ∧ marksAll trees = tokens.map Token.mark := by
  constructor
  · intro h
    refine ⟨isList_of_buildFrom (by simp) h, ?_⟩
    simpa [written] using marksAll_of_buildFrom h
  · rintro ⟨hlists, hmarks⟩
    exact buildFrom_of_marksAll hlists hmarks.symm []

end Tree

/-! ### The grammar -/

mutual

/-- A list: items between an opening and a closing bracket. -/
inductive DerivesList : List Token → Prop
  | brackets {opening closing : Token} {items : List Token} :
      opening.kind = .opening → DerivesItems items → closing.kind = .closing →
        DerivesList (opening :: (items ++ [closing]))

/-- The items of a list: atoms and lists in any order. -/
inductive DerivesItems : List Token → Prop
  | nil : DerivesItems []
  | atom {token : Token} {leaf : Leaf} {rest : List Token} :
      token.kind = .leaf leaf → DerivesItems rest → DerivesItems (token :: rest)
  | list {front rest : List Token} :
      DerivesList front → DerivesItems rest → DerivesItems (front ++ rest)

end

/-- A text: lists one after the other. -/
inductive DerivesTop : List Token → Prop
  | nil : DerivesTop []
  | list {front rest : List Token} :
      DerivesList front → DerivesTop rest → DerivesTop (front ++ rest)

mutual

theorem DerivesList.exists_tree {row : List Token} (h : DerivesList row) :
    ∃ tree : Tree, tree.IsList ∧ tree.marks = row.map Token.mark := by
  match h with
  | @DerivesList.brackets opening closing items hopening hitems hclosing =>
    obtain ⟨trees, htrees⟩ := hitems.exists_trees
    refine ⟨.list trees opening.location, ⟨_, _, rfl⟩, ?_⟩
    simp [Tree.marks_list, htrees, Token.mark, hopening, hclosing]

theorem DerivesItems.exists_trees {row : List Token} (h : DerivesItems row) :
    ∃ trees : List Tree, Tree.marksAll trees = row.map Token.mark := by
  match h with
  | .nil => exact ⟨[], rfl⟩
  | @DerivesItems.atom token leaf rest hkind hrest =>
    obtain ⟨trees, htrees⟩ := hrest.exists_trees
    refine ⟨.atom (.ofLeaf leaf) token.location :: trees, ?_⟩
    simp [Tree.marks, htrees, Token.mark, hkind]
  | .list hfront hrest =>
    obtain ⟨tree, -, htree⟩ := hfront.exists_tree
    obtain ⟨trees, htrees⟩ := hrest.exists_trees
    exact ⟨tree :: trees, by simp [htree, htrees]⟩

end

theorem DerivesTop.exists_trees {row : List Token} (h : DerivesTop row) :
    ∃ trees : List Tree,
      (∀ tree ∈ trees, tree.IsList) ∧ Tree.marksAll trees = row.map Token.mark := by
  induction h with
  | nil => exact ⟨[], by simp, rfl⟩
  | list hfront _ ih =>
    obtain ⟨tree, hlist, htree⟩ := hfront.exists_tree
    obtain ⟨trees, hlists, htrees⟩ := ih
    refine ⟨tree :: trees, ?_, by simp [htree, htrees]⟩
    rintro other (_ | ⟨_, hother⟩)
    · exact hlist
    · exact hlists other hother

mutual

theorem Tree.derivesItems_marks (tree : Tree) {row rest : List Token}
    (h : row.map Token.mark = tree.marks) (hrest : DerivesItems rest) :
    DerivesItems (row ++ rest) := by
  match tree with
  | .atom a location =>
    rw [Tree.marks, List.map_eq_singleton_iff] at h
    obtain ⟨token, rfl, hmark⟩ := h
    obtain ⟨leaf, hkind, -, -⟩ := Tree.kind_of_mark_eq_atom hmark
    exact .atom hkind hrest
  | .list items location =>
    obtain ⟨opening, inner, closing, rfl, hopening, -, hitems, hclosing⟩ :=
      Tree.row_of_marks_list h
    exact .list (.brackets hopening (derivesItems_marksAll items hitems) hclosing) hrest

theorem Tree.derivesItems_marksAll (items : List Tree) {row : List Token}
    (h : row.map Token.mark = Tree.marksAll items) : DerivesItems row := by
  match items with
  | [] =>
    rw [Tree.marksAll_nil, List.map_eq_nil_iff] at h
    exact h ▸ .nil
  | tree :: items =>
    rw [Tree.marksAll_cons, List.map_eq_append_iff] at h
    obtain ⟨front, behind, rfl, htree, hitems⟩ := h
    exact derivesItems_marks tree htree (derivesItems_marksAll items hitems)

end

theorem Tree.derivesTop_marksAll {trees : List Tree} (hlists : ∀ tree ∈ trees, tree.IsList)
    {row : List Token} (h : row.map Token.mark = Tree.marksAll trees) : DerivesTop row := by
  induction trees generalizing row with
  | nil =>
    rw [Tree.marksAll_nil, List.map_eq_nil_iff] at h
    exact h ▸ .nil
  | cons tree trees ih =>
    rw [Tree.marksAll_cons, List.map_eq_append_iff] at h
    obtain ⟨front, behind, rfl, htree, htrees⟩ := h
    obtain ⟨items, location, rfl⟩ := hlists tree (by simp)
    obtain ⟨opening, inner, closing, rfl, hopening, -, hitems, hclosing⟩ :=
      Tree.row_of_marks_list htree
    have hlist := DerivesList.brackets hopening (Tree.derivesItems_marksAll items hitems) hclosing
    exact .list hlist (ih (fun other hother => hlists other (by simp [hother])) htrees)

/-- The builder succeeds on the rows of tokens that the grammar derives. -/
theorem derivesTop_iff_build {row : List Token} :
    DerivesTop row ↔ ∃ trees, Tree.build row = .ok trees := by
  constructor
  · intro h
    obtain ⟨trees, htrees⟩ := h.exists_trees
    exact ⟨trees, Tree.build_eq_ok_iff.2 htrees⟩
  · rintro ⟨trees, htrees⟩
    obtain ⟨hlists, hmarks⟩ := Tree.build_eq_ok_iff.1 htrees
    exact Tree.derivesTop_marksAll hlists hmarks.symm

/-! ### Brackets and the builder -/

namespace Brackets

def ofFrames (frames : List Tree.Frame) : Brackets :=
  ⟨frames.map Tree.Frame.location⟩

theorem follow_append (b : Brackets) (front behind : List Token) :
    b.follow (front ++ behind) =
      match b.follow front with
      | (after, .none) => after.follow behind
      | (after, some fault) => (after, some fault) := by
  fun_induction follow b front with
  | case1 b => rfl
  | case2 b token tokens hkind ih => simpa [follow, hkind] using ih
  | case3 b token tokens hkind place outer hopened ih => simpa [follow, hkind, hopened] using ih
  | case4 b token tokens hkind hopened => simp [follow, hkind, hopened]
  | case5 b token tokens leaf hkind ih => simpa [follow, hkind] using ih

/-- Where the builder succeeds, every bracket finds its partner. -/
theorem follow_of_buildFrom {frames : List Tree.Frame} {trees : List Tree} {tokens : List Token}
    {result : List Tree} (h : Tree.buildFrom frames trees tokens = .ok result) :
    (ofFrames frames).follow tokens = (.none, .none) := by
  fun_induction Tree.buildFrom frames trees tokens with
  | case1 trees => rfl
  | case2 trees frame => cases h
  | case3 trees token tokens frames hkind ih => simpa [follow, hkind, ofFrames] using ih h
  | case4 trees token tokens hkind => cases h
  | case5 trees token tokens frame hkind ih => simpa [follow, hkind, ofFrames] using ih h
  | case6 trees token tokens frame outer others hkind ih =>
    simpa [follow, hkind, ofFrames, Tree.Frame.push] using ih h
  | case7 trees token tokens leaf hkind => cases h
  | case8 trees token tokens leaf frame others hkind ih =>
    simpa [follow, hkind, ofFrames, Tree.Frame.push] using ih h

theorem follow_of_build {tokens : List Token} {trees : List Tree}
    (h : Tree.build tokens = .ok trees) : none.follow tokens = (none, .none) :=
  follow_of_buildFrom h

end Brackets

/-- Where all brackets are closed, the builder can begin anew. -/
theorem Tree.buildFrom_append {frames : List Frame} {trees : List Tree} {front : List Token}
    (h : (Brackets.ofFrames frames).follow front = (.none, .none)) (behind : List Token) :
    buildFrom frames trees (front ++ behind) =
      match buildFrom frames trees front with
      | .ok result => buildFrom [] result.reverse behind
      | .error fault => .error fault := by
  fun_induction buildFrom frames trees front with
  | case1 trees => simp
  | case2 trees frame => simp [Brackets.follow, Brackets.ofFrames, Brackets.none] at h
  | case3 trees token tokens frames hkind ih =>
    rw [List.cons_append, buildFrom_opening hkind]
    exact ih (by simpa [Brackets.follow, hkind, Brackets.ofFrames] using h)
  | case4 trees token tokens hkind => simp [buildFrom, hkind]
  | case5 trees token tokens frame hkind ih =>
    simpa [buildFrom, hkind] using
      ih (by simpa [Brackets.follow, hkind, Brackets.ofFrames] using h)
  | case6 trees token tokens frame outer others hkind ih =>
    simpa [buildFrom, hkind] using
      ih (by simpa [Brackets.follow, hkind, Brackets.ofFrames, Frame.push] using h)
  | case7 trees token tokens leaf hkind => simp [buildFrom, hkind]
  | case8 trees token tokens leaf frame others hkind ih =>
    simpa [buildFrom, hkind] using
      ih (by simpa [Brackets.follow, hkind, Brackets.ofFrames, Frame.push] using h)

/-- What is complete already stays in front. -/
theorem Tree.buildFrom_trees (frames : List Frame) (trees earlier : List Tree)
    (tokens : List Token) :
    buildFrom frames (trees ++ earlier) tokens =
      (buildFrom frames trees tokens).map (earlier.reverse ++ ·) := by
  fun_induction buildFrom frames trees tokens with
  | case1 trees => simp [buildFrom, Except.map]
  | case2 trees frame => rfl
  | case3 trees token tokens frames hkind ih => simpa [buildFrom, hkind] using ih
  | case4 trees token tokens hkind => simp [buildFrom, hkind, Except.map]
  | case5 trees token tokens frame hkind ih => simpa [buildFrom, hkind] using ih
  | case6 trees token tokens frame outer others hkind ih => simpa [buildFrom, hkind] using ih
  | case7 trees token tokens leaf hkind => simp [buildFrom, hkind, Except.map]
  | case8 trees token tokens leaf frame others hkind ih => simpa [buildFrom, hkind] using ih

theorem Tree.build_append {front : List Token}
    (h : Brackets.none.follow front = (.none, .none)) (behind : List Token) :
    build (front ++ behind) =
      match build front with
      | .ok trees => (build behind).map (trees ++ ·)
      | .error fault => .error fault := by
  have hframes : (Brackets.ofFrames []).follow front = (.none, .none) := h
  rw [build, buildFrom_append hframes, ← build]
  cases build front with
  | error fault => rfl
  | ok trees => simpa [build] using buildFrom_trees [] [] trees.reverse behind

/-! ### The reader -/

theorem exceptMap_eq_ok_iff {ε α β : Type} {x : Except ε α} {f : α → β} {b : β} :
    x.map f = .ok b ↔ ∃ a, x = .ok a ∧ f a = b := by
  cases x <;> simp [Except.map]

theorem Brackets.readLine_of_follow {b after : Brackets} {unmatched : Option ParseError}
    {line : Line} {text : String}
    (h : b.follow (Token.scan line text).tokens = (after, unmatched)) :
    b.readLine line text =
      (after, (unmatched <|> (Token.scan line text).fault).elim (.ok (Token.scan line text).tokens)
        .error) := by
  simp only [readLine, h]
  cases unmatched <|> (Token.scan line text).fault <;> rfl

/-- The scans of lines, the first of which has the given number. -/
def Token.scans (origin : Option String) (number : Nat) : List String → List Scan
  | [] => []
  | line :: lines => scan ⟨number, origin⟩ line :: scans origin (number + 1) lines

/-- The reader holds the tokens whose brackets it has followed, and it holds none when all brackets
are closed. -/
structure Reader.IsCoherent (r : Reader) : Prop where
  follow_held : Brackets.none.follow r.held = (r.brackets, .none)
  held_eq_nil : r.brackets.isBalanced = true → r.held = []

namespace Reader

theorem isCoherent_new (origin : Option String) : (new origin).IsCoherent :=
  ⟨rfl, fun _ => rfl⟩

theorem eq_none_of_isBalanced {b : Brackets} (h : b.isBalanced = true) : b = .none := by
  obtain ⟨opened⟩ := b
  rw [Brackets.isBalanced, List.isEmpty_iff] at h
  exact congrArg Brackets.mk h

/-- What one line does to a reader: it fails, it adds its tokens to those held back, or it
completes them. -/
theorem IsCoherent.submit_cases {r : Reader} (hr : r.IsCoherent) (number : Nat) (line : String) :
    let scan := Token.scan ⟨number, r.origin⟩ line
    let row := r.held ++ scan.tokens
    (∃ fault, r.submit number line = (r.reset, .error fault) ∧
      (scan.fault = none → ∀ behind trees, Tree.build (row ++ behind) ≠ .ok trees)) ∨
    (∃ next, r.submit number line = (next, .ok []) ∧ next.origin = r.origin ∧ next.IsCoherent ∧
      scan.fault = none ∧ next.held = row) ∨
    (∃ next trees, r.submit number line = (next, .ok trees) ∧ next.origin = r.origin ∧
      next.IsCoherent ∧ scan.fault = none ∧ next.held = [] ∧ Tree.build row = .ok trees ∧
      Brackets.none.follow row = (.none, .none)) := by
  intro scan row
  have hrow : Brackets.none.follow row = r.brackets.follow scan.tokens := by
    rw [Brackets.follow_append, hr.follow_held]
  rcases hfollow : Brackets.none.follow row with ⟨after, unmatched⟩
  have hread : r.brackets.readLine ⟨number, r.origin⟩ line =
      (after, (unmatched <|> scan.fault).elim (.ok scan.tokens) .error) :=
    Brackets.readLine_of_follow (hrow.symm.trans hfollow)
  have hheld : (scan.tokens.reverse ++ r.backward).reverse = row := by simp [row, held]
  cases unmatched with
  | some fault =>
    left
    refine ⟨fault, by simp [submit, hread], fun _ behind trees hbuild => ?_⟩
    have hall := Brackets.follow_of_build hbuild
    rw [Brackets.follow_append, hfollow] at hall
    cases hall
  | none =>
    cases hfault : scan.fault with
    | some fault =>
      left
      refine ⟨fault, by simp [submit, hread, hfault], fun h => by cases h⟩
    | none =>
      simp only [hfault, Option.orElse_eq_orElse, Option.orElse_none, Option.elim_none] at hread
      by_cases hpending : (!after.isBalanced || (scan.tokens.reverse ++ r.backward).isEmpty) = true
      · right; left
        refine ⟨⟨r.origin, after, scan.tokens.reverse ++ r.backward⟩,
          by simp only [submit, hread, hpending, if_true], rfl, ⟨?_, ?_⟩, rfl, hheld⟩
        · rw [held, hheld, hfollow]
        · intro hbalanced
          have hbalanced : after.isBalanced = true := hbalanced
          simpa [held, hbalanced, and_comm] using hpending
      · have hbalanced : after = .none := eq_none_of_isBalanced (by
          simp only [Bool.or_eq_true, Bool.not_eq_true', not_or, Bool.not_eq_false] at hpending
          exact hpending.1)
        subst hbalanced
        cases hbuild : Tree.build row with
        | error fault =>
          left
          refine ⟨fault, by simp [submit, hread, hpending, hheld, hbuild], fun _ behind trees => ?_⟩
          rw [Tree.build_append hfollow, hbuild]
          simp
        | ok trees =>
          right; right
          exact ⟨⟨r.origin, .none, []⟩, trees, by simp [submit, hread, hpending, hheld, hbuild],
            rfl, ⟨rfl, fun _ => rfl⟩, rfl, rfl, rfl, rfl⟩

theorem finish_cons {r next : Reader} {number : Nat} {line : String} {trees : List Tree}
    (h : r.submit number line = (next, .ok trees)) (lines : List String) :
    r.finish number (line :: lines) = (next.finish (number + 1) lines).map (trees ++ ·) := by
  simp only [finish, h]
  cases next.finish (number + 1) lines <;> rfl

/-- A reader reads the remaining lines if all of them can be scanned and the builder reads their
tokens behind those held back. -/
theorem IsCoherent.finish_eq_ok_iff {r : Reader} (hr : r.IsCoherent) (number : Nat)
    (lines : List String) (trees : List Tree) :
    r.finish number lines = .ok trees ↔
      (∀ scan ∈ Token.scans r.origin number lines, scan.fault = none) ∧
        Tree.build (r.held ++ (Token.scans r.origin number lines).flatMap Scan.tokens) =
          .ok trees := by
  induction lines generalizing r number trees with
  | nil =>
    simp only [finish, Token.scans, complete, Brackets.innermost?]
    cases hopened : r.brackets.opened with
    | nil =>
      have hheld : r.held = [] := hr.held_eq_nil (by simp [Brackets.isBalanced, hopened])
      simp [hheld, Tree.build, Tree.buildFrom]
    | cons place outer =>
      simp only [List.head?_cons, reduceCtorEq, false_iff, not_and, List.flatMap_nil,
        List.append_nil]
      intro _ hbuild
      have hclosed := Brackets.follow_of_build hbuild
      rw [hr.follow_held] at hclosed
      injection hclosed with hclosed
      rw [hclosed] at hopened
      cases hopened
  | cons line lines ih =>
    simp only [Token.scans, List.mem_cons, forall_eq_or_imp, List.flatMap_cons,
      ← List.append_assoc r.held]
    rcases hr.submit_cases number line with ⟨fault, hsubmit, hfails⟩ |
      ⟨next, hsubmit, horigin, hnext, hfault, hheld⟩ |
      ⟨next, done, hsubmit, horigin, hnext, hfault, hheld, hbuild, hfollow⟩
    · simp only [finish, hsubmit, reduceCtorEq, false_iff, not_and, and_imp]
      intro hfault _
      exact hfails hfault _ _
    · have hrest := ih hnext (number + 1) trees
      rw [hheld, horigin] at hrest
      rw [finish_cons hsubmit, exceptMap_eq_ok_iff]
      simp only [List.nil_append, exists_eq_right, hfault, true_and]
      exact hrest
    · have hrest := ih hnext (number + 1)
      rw [hheld, List.nil_append, horigin] at hrest
      rw [finish_cons hsubmit, exceptMap_eq_ok_iff, Tree.build_append hfollow, hbuild]
      simp only [exceptMap_eq_ok_iff, hrest, and_assoc, exists_and_left, hfault, true_and]

end Reader

theorem parse_eq_ok_iff {origin : Option String} {text : String} {trees : List Tree} :
    parse origin text = .ok trees ↔
      (∀ scan ∈ Token.scans origin 1 (Text.lines text), scan.fault = none) ∧
        Tree.build ((Token.scans origin 1 (Text.lines text)).flatMap Scan.tokens) = .ok trees :=
  (Reader.isCoherent_new origin).finish_eq_ok_iff 1 (Text.lines text) trees

/-- A text is read exactly when all of its lines can be scanned and the grammar derives their
tokens, and it is read as the lists that have the marks of these tokens. A mark is all of a token
but the place of a closing bracket. -/
theorem parse_accepts_grammar (origin : Option String) (text : String) :
    let scans := Token.scans origin 1 (Text.lines text)
    let tokens := scans.flatMap Scan.tokens
    ((∃ trees, parse origin text = .ok trees) ↔
      (∀ scan ∈ scans, scan.fault = none) ∧ DerivesTop tokens) ∧
    (∀ trees, parse origin text = .ok trees ↔
      (∀ scan ∈ scans, scan.fault = none) ∧ (∀ tree ∈ trees, tree.IsList) ∧
        Tree.marksAll trees = tokens.map Token.mark) ∧
    (∀ token token' : Token, token.mark = token'.mark ↔
      token.kind = token'.kind ∧
        (token.kind ≠ .closing → token.location = token'.location)) := by
  intro scans tokens
  refine ⟨?_, fun trees => ?_, fun token token' => Token.mark_eq_iff⟩
  · rw [derivesTop_iff_build, ← exists_and_left]
    exact exists_congr fun trees => parse_eq_ok_iff
  · rw [← Tree.build_eq_ok_iff]
    exact parse_eq_ok_iff

-- A list goes on from one line to the next.
example : parse none "[a\n[1]]" =
    .ok [.list [.atom (.symbol "a") ⟨1, 2, none⟩,
      .list [.atom (.integer 1) ⟨2, 2, none⟩] ⟨2, 1, none⟩] ⟨1, 1, none⟩] := by
  cbv

end BracketScript
