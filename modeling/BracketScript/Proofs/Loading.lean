import BracketScript.Form.Source
import BracketScript.Rendering
import BracketScript.Tree.Printer
import Mathlib.Data.List.Forall2

/-!
# Loaded trees

Loading a tree makes one cell for each node and leaves the cells that were there as they are. The
cell of the root holds the tree: its value is that of the root, and the items of a list hold the
items of the tree. What holds a tree is quoted as the text of this tree, since the store is deeper
than the tree has nodes.
-/

namespace BracketScript

namespace Tree

mutual

def count : Tree → Nat
  | .atom _ _ => 1
  | .list items _ => countAll items + 1

def countAll : List Tree → Nat
  | [] => 0
  | tree :: trees => tree.count + countAll trees

end

theorem textItems_eq (trees : List Tree) : textItems trees = " ".intercalate (trees.map text) := by
  match trees with
  | [] => rfl
  | [tree] => simp [textItems, String.intercalate_singleton]
  | tree :: next :: trees =>
    rw [textItems, textItems_eq (next :: trees)]
    simp [String.intercalate_cons_of_ne_nil]

end Tree

namespace Store

structure Extends (s' s : Store) : Prop where
  size_le : s.itemRows.size ≤ s'.itemRows.size
  row_eq : ∀ id : CellId, id.index < s.itemRows.size → s'.row id = s.row id
  store_eq : s' = { s with itemRows := s'.itemRows }

theorem Extends.refl (s : Store) : s.Extends s :=
  ⟨Nat.le_refl _, fun _ _ => rfl, rfl⟩

theorem Extends.trans {s s' s'' : Store} (h' : s''.Extends s') (h : s'.Extends s) :
    s''.Extends s where
  size_le := Nat.le_trans h.size_le h'.size_le
  row_eq id hid := by rw [h'.row_eq id (Nat.lt_of_lt_of_le hid h.size_le), h.row_eq id hid]
  store_eq := h'.store_eq.trans (by rw [h.store_eq])

theorem extends_newCell (s : Store) (value : Value) (location : Option Location)
    (row : Array Cell) : (s.newCell value location row).2.Extends s where
  size_le := by simp [newCell]
  row_eq id hid := by rw [row_newCell, if_neg (Nat.ne_of_lt hid)]
  store_eq := rfl

/-- The cells that were added to the store have no items. -/
structure AddsLeaves (s' s : Store) : Prop extends s'.Extends s where
  items_eq : ∀ id : CellId, s'.items id = s.items id

theorem AddsLeaves.refl (s : Store) : s.AddsLeaves s :=
  ⟨.refl s, fun _ => rfl⟩

theorem AddsLeaves.trans {s s' s'' : Store} (h' : s''.AddsLeaves s') (h : s'.AddsLeaves s) :
    s''.AddsLeaves s :=
  ⟨h'.toExtends.trans h.toExtends, fun id => (h'.items_eq id).trans (h.items_eq id)⟩

theorem items_of_size_le {s : Store} {id : CellId} (h : s.itemRows.size ≤ id.index) :
    s.items id = [] := by
  rw [items, row, Arena.get_of_size_le _ h]
  rfl

theorem addsLeaves_newCell (s : Store) (value : Value) (location : Option Location) :
    (s.newCell value location #[]).2.AddsLeaves s where
  toExtends := s.extends_newCell value location #[]
  items_eq id := by
    rw [items_newCell]
    split
    · next h => exact (items_of_size_le (Nat.le_of_eq h.symm)).symm
    · rfl

@[simp] theorem size_newCell (s : Store) (value : Value) (location : Option Location)
    (row : Array Cell) :
    (s.newCell value location row).2.itemRows.size = s.itemRows.size + 1 := by
  simp [newCell]

mutual

theorem extends_load (s : Store) (tree : Tree) : (s.load tree).2.Extends s := by
  match tree with
  | .atom a location => exact s.extends_newCell a.value (some location) #[]
  | .list items location =>
    exact ((s.loadAll items).2.extends_newCell _ _ _).trans (s.extends_loadAll items)

theorem extends_loadAll (s : Store) (trees : List Tree) : (s.loadAll trees).2.Extends s := by
  match trees with
  | [] => exact .refl s
  | tree :: trees => exact ((s.load tree).2.extends_loadAll trees).trans (s.extends_load tree)

end

mutual

theorem size_load (s : Store) (tree : Tree) :
    (s.load tree).2.itemRows.size = s.itemRows.size + tree.count := by
  match tree with
  | .atom a location => simp [load, Tree.count]
  | .list items location =>
    simp only [load, size_newCell, s.size_loadAll items, Tree.count]
    omega

theorem size_loadAll (s : Store) (trees : List Tree) :
    (s.loadAll trees).2.itemRows.size = s.itemRows.size + Tree.countAll trees := by
  match trees with
  | [] => rfl
  | tree :: trees =>
    simp only [loadAll, size_loadAll _ trees, s.size_load tree, Tree.countAll]
    omega

end

mutual

/-- The cell holds the tree. -/
def Holds (s : Store) : Tree → Cell → Prop
  | .atom a _, c => c.value = a.value
  | .list items _, c =>
    c.value = .list ∧ c.id.index < s.itemRows.size ∧ s.HoldsAll items (s.items c.id)

def HoldsAll (s : Store) : List Tree → List Cell → Prop
  | [], [] => True
  | tree :: trees, c :: cells => s.Holds tree c ∧ s.HoldsAll trees cells
  | _, _ => False

end

mutual

theorem Holds.of_extends {s s' : Store} (h : s'.Extends s) {tree : Tree} {c : Cell}
    (hc : s.Holds tree c) : s'.Holds tree c := by
  match tree with
  | .atom a location => exact hc
  | .list items location =>
    obtain ⟨hvalue, hid, hitems⟩ := hc
    refine ⟨hvalue, Nat.lt_of_lt_of_le hid h.size_le, ?_⟩
    rw [Store.items, h.row_eq c.id hid]
    exact HoldsAll.of_extends h hitems

theorem HoldsAll.of_extends {s s' : Store} (h : s'.Extends s) {trees : List Tree}
    {cells : List Cell} (hcells : s.HoldsAll trees cells) : s'.HoldsAll trees cells := by
  match trees, cells with
  | [], [] => trivial
  | tree :: trees, c :: cells =>
    exact ⟨Holds.of_extends h hcells.1, HoldsAll.of_extends h hcells.2⟩
  | [], _ :: _ => exact hcells
  | _ :: _, [] => exact hcells

end

mutual

/-- The cell of a loaded tree holds it. -/
theorem holds_load (s : Store) (tree : Tree) :
    (s.load tree).2.Holds tree (s.load tree).1 := by
  match tree with
  | .atom a location => rfl
  | .list items location =>
    have hitems := s.holdsAll_loadAll items
    refine ⟨rfl, by simp [load, newCell], ?_⟩
    have hrow : (s.load (.list items location)).2.items (s.load (.list items location)).1.id =
        (s.loadAll items).1 := by
      simp [load, newCell, Store.items, row, Arena.get_push]
    rw [hrow]
    exact hitems.of_extends ((s.loadAll items).2.extends_newCell _ _ _)

theorem holdsAll_loadAll (s : Store) (trees : List Tree) :
    (s.loadAll trees).2.HoldsAll trees (s.loadAll trees).1 := by
  match trees with
  | [] => trivial
  | tree :: trees =>
    exact ⟨(s.holds_load tree).of_extends ((s.load tree).2.extends_loadAll trees),
      (s.load tree).2.holdsAll_loadAll trees⟩

end

mutual

theorem quoteWithin_of_holds {s : Store} {tree : Tree} {c : Cell} (h : s.Holds tree c)
    {fuel : Nat} (hfuel : tree.count ≤ fuel) : s.quoteWithin fuel c = tree.text := by
  match tree with
  | .atom a location =>
    obtain ⟨fuel, rfl⟩ : ∃ n, fuel = n + 1 := Nat.exists_eq_add_of_le' hfuel
    rw [quoteWithin, show c.value = a.value from h]
    cases a <;> rfl
  | .list items location =>
    obtain ⟨hvalue, -, hitems⟩ := h
    obtain ⟨fuel, rfl⟩ : ∃ n, fuel = n + 1 :=
      Nat.exists_eq_add_of_le' (Nat.le_trans (Nat.le_add_left 1 _) hfuel)
    rw [quoteWithin, hvalue]
    simp only
    rw [quoteWithin_of_holdsAll hitems (Nat.le_of_succ_le_succ hfuel), bracketed, Tree.text,
      Tree.textItems_eq]

theorem quoteWithin_of_holdsAll {s : Store} {trees : List Tree} {cells : List Cell}
    (h : s.HoldsAll trees cells) {fuel : Nat} (hfuel : Tree.countAll trees ≤ fuel) :
    cells.map (s.quoteWithin fuel) = trees.map Tree.text := by
  match trees, cells with
  | [], [] => rfl
  | tree :: trees, c :: cells =>
    simp only [Tree.countAll] at hfuel
    rw [List.map_cons, List.map_cons, quoteWithin_of_holds h.1 (by omega),
      quoteWithin_of_holdsAll h.2 (by omega)]

end

/-- What holds a tree is quoted as its text, if the store has as many cells as the tree has
nodes. -/
theorem quote_of_holds {s : Store} {tree : Tree} {c : Cell} (h : s.Holds tree c)
    (hsize : tree.count ≤ s.itemRows.size) : s.quote c = tree.text :=
  quoteWithin_of_holds h (Nat.le_trans hsize (Nat.le_succ _))

/-- A loaded tree is quoted as its text. -/
theorem quote_load (s : Store) (tree : Tree) :
    (s.load tree).2.quote (s.load tree).1 = tree.text :=
  quote_of_holds (s.holds_load tree) (by rw [s.size_load tree]; exact Nat.le_add_left _ _)

end Store

/-! ### Copies -/

/-- The cell is bound in place of the other: it holds the same and has the same place. -/
def Cell.Copies (d c : Cell) : Prop :=
  d.value = c.value ∧ d.location = c.location

/-- The cell is a copy of the other one, and that one itself if it holds what stays shared. -/
structure Cell.StandsFor (d c : Cell) : Prop where
  copies : d.Copies c
  shared : c.value.isCopied = false → d = c

namespace Eval

theorem copy_done (c : Cell) (s : Store) :
    ∃ d t, copy c s = .done d t ∧ d.StandsFor c ∧ t.AddsLeaves s := by
  rw [copy]
  split
  · next hcopied =>
    exact ⟨_, _, rfl, ⟨⟨rfl, rfl⟩, fun h => by simp [hcopied] at h⟩,
      s.addsLeaves_newCell c.value c.location⟩
  · exact ⟨c, s, rfl, ⟨⟨rfl, rfl⟩, fun _ => rfl⟩, .refl s⟩

theorem copyAll_done (cells : List Cell) (s : Store) :
    ∃ copies t, copyAll cells s = .done copies t ∧
      List.Forall₂ (fun c d => Cell.StandsFor d c) cells copies ∧ t.AddsLeaves s := by
  induction cells generalizing s with
  | nil => exact ⟨[], s, rfl, .nil, .refl s⟩
  | cons c cells ih =>
    obtain ⟨d, t, hcopy, hd, ht⟩ := copy_done c s
    obtain ⟨copies, u, hcopies, hall, hu⟩ := ih t
    refine ⟨d :: copies, u, ?_, .cons hd hall, hu.trans ht⟩
    rw [copyAll, bind_of_done hcopy, bind_of_done hcopies]
    rfl

end Eval

end BracketScript
