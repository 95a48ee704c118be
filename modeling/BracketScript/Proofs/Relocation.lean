import BracketScript.Proofs.Containment
import BracketScript.Proofs.Correspondence.Evaluation
import BracketScript.Proofs.Spelling

/-!
# Stores that differ in identities and places

Two stores are alike if they hold the same, where the cells of the one have identities that are
moved in the other, and places are not compared. A census keeps what is known about the cells of
the first store: how many there are and which part each of them plays. Lists of a program and lists
that were computed are told apart, as are the atoms of programs and everything else that has no
items, so that the body of a lambda never leads back to the lambda.

A store that is alike to itself is thereby known to be well formed: no list contains itself, and the
values that it holds were computed.
-/

namespace BracketScript

open Relation Correspondence

/-- Which part a cell plays: an atom or a list of a program, or a computed list or anything else
that was computed. -/
inductive Role where
  | atom
  | code
  | data
  | leaf

/-- What is known about the cells of a store. -/
structure Census where
  size : Nat
  role : CellId → Role

namespace Census

instance : Preorder Census where
  le w w' := w.size ≤ w'.size ∧ ∀ id : CellId, id.index < w.size → w'.role id = w.role id
  le_refl w := ⟨Nat.le_refl _, fun _ _ => rfl⟩
  le_trans _ _ _ h h' := ⟨h.1.trans h'.1, fun id hid =>
    (h'.2 id (Nat.lt_of_lt_of_le hid h.1)).trans (h.2 id hid)⟩

def add (w : Census) (role : Role) : Census :=
  ⟨w.size + 1, Function.update w.role ⟨w.size⟩ role⟩

theorem add_role_of_lt (w : Census) (role : Role) {id : CellId} (h : id.index < w.size) :
    (w.add role).role id = w.role id :=
  Function.update_of_ne (fun heq => absurd (congrArg CellId.index heq) (Nat.ne_of_lt h)) _ _

theorem add_role_self (w : Census) (role : Role) : (w.add role).role ⟨w.size⟩ = role :=
  Function.update_self _ _ _

theorem le_add (w : Census) (role : Role) : w ≤ w.add role :=
  ⟨Nat.le_succ _, fun _ => w.add_role_of_lt role⟩

end Census

/-- How identities are moved: the first ones stay, and the others make room. -/
structure Shift where
  fixed : Nat
  offset : Nat

def Shift.move (σ : Shift) (id : CellId) : CellId :=
  if id.index < σ.fixed then id else ⟨id.index + σ.offset⟩

theorem Shift.move_of_lt (σ : Shift) {id : CellId} (h : id.index < σ.fixed) : σ.move id = id :=
  if_pos h

theorem Shift.move_of_le (σ : Shift) {id : CellId} (h : σ.fixed ≤ id.index) :
    σ.move id = ⟨id.index + σ.offset⟩ :=
  if_neg (Nat.not_lt.2 h)

theorem Shift.move_injective (σ : Shift) : Function.Injective σ.move := by
  intro id id' heq
  rcases id with ⟨i⟩
  rcases id' with ⟨j⟩
  simp only [Shift.move] at heq
  split at heq <;> split at heq <;> rw [CellId.mk.injEq] at heq ⊢ <;> omega

theorem Shift.index_move_lt (σ : Shift) {id : CellId} {n : Nat} (h : id.index < n) :
    (σ.move id).index < n + σ.offset := by
  simp only [Shift.move]
  split
  · exact Nat.lt_of_lt_of_le h (Nat.le_add_right _ _)
  · exact Nat.add_lt_add_right h _

variable {σ : Shift} {w w' : Census} {c d : Cell}

/-! ### Cells -/

structure CodesAlike (σ : Shift) (w : Census) (c d : Cell) : Prop where
  id_lt : c.id.index < w.size
  id_eq : d.id = σ.move c.id
  value : CodeValues (fun _ => True) c.value d.value
  role_list : c.value = .list → w.role c.id = .code
  role_atom : c.value ≠ .list → w.role c.id = .atom

/-- Computed values that are alike. An atom of a program can be the value that it evaluates to. -/
structure ValuesAlike (σ : Shift) (w : Census) (c d : Cell) : Prop where
  id_lt : c.id.index < w.size
  id_eq : d.id = σ.move c.id
  value : DataValues (fun name => True ∧ Name.isDotted name = false) (CodesAlike σ w) c.value
    d.value
  role_list : c.value = .list → w.role c.id = .data
  role_leaf : c.value ≠ .list → w.role c.id = .leaf ∨ w.role c.id = .atom
  role_lambda : ∀ parameters body scope, c.value = .lambda parameters body scope →
    w.role c.id = .leaf

theorem CodesAlike.mono (h : w ≤ w') (hc : CodesAlike σ w c d) : CodesAlike σ w' c d where
  id_lt := Nat.lt_of_lt_of_le hc.id_lt h.1
  id_eq := hc.id_eq
  value := hc.value
  role_list hlist := (h.2 _ hc.id_lt).trans (hc.role_list hlist)
  role_atom hlist := (h.2 _ hc.id_lt).trans (hc.role_atom hlist)

theorem ValuesAlike.mono (h : w ≤ w') (hc : ValuesAlike σ w c d) : ValuesAlike σ w' c d where
  id_lt := Nat.lt_of_lt_of_le hc.id_lt h.1
  id_eq := hc.id_eq
  value := hc.value.imp_codes fun _ _ => CodesAlike.mono h
  role_list hlist := (h.2 _ hc.id_lt).trans (hc.role_list hlist)
  role_leaf hlist := by
    rw [h.2 _ hc.id_lt]
    exact hc.role_leaf hlist
  role_lambda parameters body scope hlambda :=
    (h.2 _ hc.id_lt).trans (hc.role_lambda parameters body scope hlambda)

/-- What the items of a cell have in common, by the part that the cell plays. -/
def ItemsAlike (σ : Shift) (w : Census) : Role → Cell → Cell → Prop
  | .code => CodesAlike σ w
  | .data => ValuesAlike σ w
  | .atom | .leaf => fun _ _ => False

theorem ItemsAlike.mono (h : w ≤ w') {role : Role} (hc : ItemsAlike σ w role c d) :
    ItemsAlike σ w' role c d := by
  cases role with
  | code => exact CodesAlike.mono h hc
  | data => exact ValuesAlike.mono h hc
  | atom => exact hc
  | leaf => exact hc

theorem ItemsAlike.id_lt {role : Role} (hc : ItemsAlike σ w role c d) : c.id.index < w.size := by
  cases role with
  | code => exact CodesAlike.id_lt hc
  | data => exact ValuesAlike.id_lt hc
  | atom => exact hc.elim
  | leaf => exact hc.elim

/-- The items of all cells are alike, and no cell contains itself. -/
structure RowsAlike (σ : Shift) (w : Census) (rows rows' : Arena (Array Cell)) : Prop where
  size_eq : rows.size = w.size
  size_eq' : rows'.size = w.size + σ.offset
  fixed_le : σ.fixed ≤ w.size
  builtIn : ∀ k : Keyword, k.index < σ.fixed ∧ w.role ⟨k.index⟩ = .leaf
  items : ∀ id : CellId, id.index < w.size →
    List.Forall₂ (ItemsAlike σ w (w.role id)) (rows.get id.index).toList
      (rows'.get (σ.move id).index).toList
  acyclic : IsAcyclic rows

namespace RowsAlike

variable {rows rows' : Arena (Array Cell)} {row row' : Array Cell}

theorem index_lt (h : RowsAlike σ w rows rows') (a b : CellId) (hab : HasItem rows a b) :
    b.index < rows.size := by
  obtain ⟨c, hc, rfl⟩ := hab
  by_cases ha : a.index < w.size
  · obtain ⟨d, -, hcd⟩ := exists_of_mem (h.items a ha) hc
    rw [h.size_eq]
    exact hcd.id_lt
  · rw [rows.get_of_size_le (h.size_eq ▸ Nat.not_lt.1 ha)] at hc
    exact absurd hc List.not_mem_nil

theorem push (h : RowsAlike σ w rows rows') {role : Role}
    (hrow : List.Forall₂ (ItemsAlike σ w role) row.toList row'.toList) :
    RowsAlike σ (w.add role) (rows.push row) (rows'.push row') where
  size_eq := by
    rw [Arena.size_push, h.size_eq]
    rfl
  size_eq' := by
    rw [Arena.size_push, h.size_eq']
    exact Nat.add_right_comm _ _ _
  fixed_le := h.fixed_le.trans (Nat.le_succ _)
  builtIn k := by
    obtain ⟨hlt, hrole⟩ := h.builtIn k
    exact ⟨hlt, (w.add_role_of_lt role (Nat.lt_of_lt_of_le hlt h.fixed_le)).trans hrole⟩
  items id hid := by
    have hle := w.le_add role
    rw [Arena.get_push, Arena.get_push, h.size_eq, h.size_eq']
    -- an old identity is moved to an old one, and the new identity to the new one
    rcases Nat.lt_or_eq_of_le (Nat.le_of_lt_succ hid) with hid | hid
    · rw [if_neg (Nat.ne_of_lt hid), if_neg (Nat.ne_of_lt (σ.index_move_lt hid)),
        w.add_role_of_lt role hid]
      exact (h.items id hid).imp fun _ _ => ItemsAlike.mono hle
    · obtain rfl : id = ⟨w.size⟩ := congrArg CellId.mk hid
      rw [if_pos rfl, σ.move_of_le h.fixed_le, if_pos rfl, w.add_role_self role]
      exact hrow.imp fun _ _ => ItemsAlike.mono hle
  acyclic := by
    refine h.acyclic.push h.index_lt fun c hc => ?_
    obtain ⟨d, -, hcd⟩ := exists_of_mem hrow hc
    rw [h.size_eq]
    exact hcd.id_lt

theorem modify (h : RowsAlike σ w rows rows') {id : CellId}
    (hrow : List.Forall₂ (ItemsAlike σ w (w.role id)) row.toList row'.toList)
    (hapart : ∀ c ∈ row.toList, ¬ReflTransGen (HasItem rows) c.id id) :
    RowsAlike σ w (rows.modify id.index fun _ => row)
      (rows'.modify (σ.move id).index fun _ => row') where
  size_eq := by rw [Arena.size_modify, h.size_eq]
  size_eq' := by rw [Arena.size_modify, h.size_eq']
  fixed_le := h.fixed_le
  builtIn := h.builtIn
  items other hother := by
    rw [Arena.get_modify, Arena.get_modify, h.size_eq, h.size_eq']
    by_cases heq : id = other
    · subst heq
      rw [if_pos ⟨rfl, hother⟩, if_pos ⟨rfl, σ.index_move_lt hother⟩]
      exact hrow
    · have hmove : (σ.move id).index ≠ (σ.move other).index :=
        fun hindex => heq (σ.move_injective (congrArg CellId.mk hindex))
      have hindex : id.index ≠ other.index := fun hindex => heq (congrArg CellId.mk hindex)
      rw [if_neg fun hand => hindex hand.1, if_neg fun hand => hmove hand.1]
      exact h.items other hother
  acyclic := h.acyclic.modify hapart

end RowsAlike

/-! ### Stores -/

structure ArenasAlike {α : Type} [Inhabited α] (R : α → α → Prop) (a a' : Arena α) : Prop where
  size_eq : a.size = a'.size
  get : ∀ i, R (a.get i) (a'.get i)

namespace ArenasAlike

variable {α : Type} [Inhabited α] {R R' : α → α → Prop} {a a' : Arena α}

theorem imp (h : ArenasAlike R a a') (hR : ∀ x y, R x y → R' x y) : ArenasAlike R' a a' :=
  ⟨h.size_eq, fun i => hR _ _ (h.get i)⟩

theorem push (h : ArenasAlike R a a') {x y : α} (hxy : R x y) :
    ArenasAlike R (a.push x) (a'.push y) where
  size_eq := by rw [Arena.size_push, Arena.size_push, h.size_eq]
  get i := by
    rw [Arena.get_push, Arena.get_push, h.size_eq]
    split
    · exact hxy
    · exact h.get i

theorem modify (h : ArenasAlike R a a') {i : Nat} {f f' : α → α}
    (hf : R (f (a.get i)) (f' (a'.get i))) : ArenasAlike R (a.modify i f) (a'.modify i f') where
  size_eq := by rw [Arena.size_modify, Arena.size_modify, h.size_eq]
  get j := by
    rw [Arena.get_modify, Arena.get_modify, h.size_eq]
    split
    · next hij =>
      obtain ⟨rfl, _⟩ := hij
      exact hf
    · exact h.get j

end ArenasAlike

structure ScopesAlike (σ : Shift) (w : Census) (scope scope' : Scope) : Prop where
  outer_eq : scope.outer = scope'.outer
  packages_eq : scope.packages = scope'.packages
  get? : ∀ name, Option.Rel (ValuesAlike σ w) (scope.get? name) (scope'.get? name)

structure TasksAlike (σ : Shift) (w : Census) (task task' : Task) : Prop where
  joinable_eq : task.joinable = task'.joinable
  result : Option.Rel (ValuesAlike σ w) task.result task'.result

structure LaunchesAlike (σ : Shift) (w : Census) (launch launch' : Launch) : Prop where
  task_eq : launch.task = launch'.task
  scope_eq : launch.scope = launch'.scope
  body : CodesAlike σ w launch.body launch'.body

structure StoresAlike (σ : Shift) (w : Census) (s t : Store) : Prop where
  rows : RowsAlike σ w s.itemRows t.itemRows
  scopes : ArenasAlike (ScopesAlike σ w) s.scopes t.scopes
  channels : ArenasAlike (fun q q' => List.Forall₂ (ValuesAlike σ w) q.toList q'.toList)
    s.channels t.channels
  refs : ArenasAlike (Option.Rel (ValuesAlike σ w)) s.refs t.refs
  tasks : ArenasAlike (TasksAlike σ w) s.tasks t.tasks
  running_eq : s.running = t.running
  launches : List.Forall₂ (LaunchesAlike σ w) s.launches t.launches
  used_eq : s.used = t.used
  output_eq : s.output = t.output

theorem ScopesAlike.set {scope scope' : Scope} (h : ScopesAlike σ w scope scope')
    (hc : ValuesAlike σ w c d) (name : String) :
    ScopesAlike σ w (scope.set name c) (scope'.set name d) where
  outer_eq := h.outer_eq
  packages_eq := h.packages_eq
  get? other := by
    rw [Scope.get?_set, Scope.get?_set]
    split
    · exact .some hc
    · exact h.get? other

namespace StoresAlike

variable {s t : Store}

/-- Other rows leave everything else alike, provided the cells that were alike stay so. -/
theorem withRows (h : StoresAlike σ w s t) {σ' : Shift}
    (hcodes : ∀ c d, CodesAlike σ w c d → CodesAlike σ' w' c d)
    (hvalues : ∀ c d, ValuesAlike σ w c d → ValuesAlike σ' w' c d)
    {rows rows' : Arena (Array Cell)} (hrows : RowsAlike σ' w' rows rows') :
    StoresAlike σ' w' { s with itemRows := rows } { t with itemRows := rows' } where
  rows := hrows
  scopes := h.scopes.imp fun _ _ hscope =>
    ⟨hscope.outer_eq, hscope.packages_eq, fun name => optionRel_imp hvalues (hscope.get? name)⟩
  channels := h.channels.imp fun _ _ hqueue => hqueue.imp hvalues
  refs := h.refs.imp fun _ _ => optionRel_imp hvalues
  tasks := h.tasks.imp fun _ _ htask => ⟨htask.joinable_eq, optionRel_imp hvalues htask.result⟩
  running_eq := h.running_eq
  launches := h.launches.imp fun _ _ hlaunch =>
    ⟨hlaunch.task_eq, hlaunch.scope_eq, hcodes _ _ hlaunch.body⟩
  used_eq := h.used_eq
  output_eq := h.output_eq

/-- A new cell of either store plays the same part. -/
theorem newCell (h : StoresAlike σ w s t) (v v' : Value) (place place' : Option Location)
    {role : Role} {row row' : Array Cell}
    (hrow : List.Forall₂ (ItemsAlike σ w role) row.toList row'.toList) :
    StoresAlike σ (w.add role) (s.newCell v place row).2 (t.newCell v' place' row').2 :=
  h.withRows (fun _ _ => CodesAlike.mono (w.le_add role))
    (fun _ _ => ValuesAlike.mono (w.le_add role)) (h.rows.push hrow)

theorem id_newCell (h : StoresAlike σ w s t) (v v' : Value) (place place' : Option Location)
    (row row' : Array Cell) (role : Role) :
    (s.newCell v place row).1.id.index < (w.add role).size ∧
      (t.newCell v' place' row').1.id = σ.move (s.newCell v place row).1.id ∧
      (w.add role).role (s.newCell v place row).1.id = role := by
  have hmove : σ.move ⟨w.size⟩ = ⟨w.size + σ.offset⟩ := σ.move_of_le h.rows.fixed_le
  simp only [Store.newCell, h.rows.size_eq, h.rows.size_eq']
  exact ⟨Nat.lt_succ_self _, hmove.symm, w.add_role_self role⟩

theorem newAtom (h : StoresAlike σ w s t) (a : Atom) (place place' : Option Location) :
    ∃ w', w ≤ w' ∧
      StoresAlike σ w' (s.newCell a.value place #[]).2 (t.newCell a.value place' #[]).2 ∧
      CodesAlike σ w' (s.newCell a.value place #[]).1 (t.newCell a.value place' #[]).1 := by
  obtain ⟨hlt, hmove, hrole⟩ := h.id_newCell a.value a.value place place' #[] #[] .atom
  refine ⟨w.add .atom, w.le_add _, h.newCell _ _ _ _ .nil, hlt, hmove, ?_, fun hlist => ?_,
    fun _ => hrole⟩
  · cases a with
    | symbol name => exact .symbol trivial
    | keyword k => exact .keyword k
    | string text => exact .string text
    | integer n => exact .integer n
    | real x => exact .real x
  · cases a <;> cases hlist

theorem newCodeList (h : StoresAlike σ w s t) (place place' : Option Location)
    {cells cells' : List Cell} (hcells : List.Forall₂ (CodesAlike σ w) cells cells') :
    ∃ w', w ≤ w' ∧ StoresAlike σ w' (s.newCell .list place cells.toArray).2
        (t.newCell .list place' cells'.toArray).2 ∧
      CodesAlike σ w' (s.newCell .list place cells.toArray).1
        (t.newCell .list place' cells'.toArray).1 := by
  obtain ⟨hlt, hmove, hrole⟩ :=
    h.id_newCell .list .list place place' cells.toArray cells'.toArray .code
  exact ⟨w.add .code, w.le_add _, h.newCell _ _ _ _ hcells, hlt, hmove, .list, fun _ => hrole,
    fun hlist => absurd rfl hlist⟩

theorem newLeaf (h : StoresAlike σ w s t) (place place' : Option Location) {v v' : Value}
    (hv : DataValues (fun name => True ∧ Name.isDotted name = false) (CodesAlike σ w) v v')
    (hlist : v ≠ .list) :
    ∃ w', w ≤ w' ∧ StoresAlike σ w' (s.newCell v place #[]).2 (t.newCell v' place' #[]).2 ∧
      ValuesAlike σ w' (s.newCell v place #[]).1 (t.newCell v' place' #[]).1 := by
  obtain ⟨hlt, hmove, hrole⟩ := h.id_newCell v v' place place' #[] #[] .leaf
  refine ⟨w.add .leaf, w.le_add _, h.newCell _ _ _ _ .nil, hlt, hmove, ?_,
    fun hlist' => absurd hlist' hlist, fun _ => .inl hrole, fun _ _ _ _ => hrole⟩
  exact hv.imp_codes fun _ _ => CodesAlike.mono (w.le_add _)

theorem newDataList (h : StoresAlike σ w s t) {cells cells' : List Cell}
    (hcells : List.Forall₂ (ValuesAlike σ w) cells cells') :
    ∃ w', w ≤ w' ∧ StoresAlike σ w' (s.newCell .list none cells.toArray).2
        (t.newCell .list none cells'.toArray).2 ∧
      ValuesAlike σ w' (s.newCell .list none cells.toArray).1
        (t.newCell .list none cells'.toArray).1 := by
  obtain ⟨hlt, hmove, hrole⟩ :=
    h.id_newCell .list .list none none cells.toArray cells'.toArray .data
  exact ⟨w.add .data, w.le_add _, h.newCell _ _ _ _ hcells, hlt, hmove, .list, fun _ => hrole,
    fun hlist => absurd rfl hlist, nofun⟩

mutual

/-- Trees that differ in places only are loaded alike. -/
theorem load {w : Census} {s t : Store} (h : StoresAlike σ w s t) {tree tree' : Tree}
    (htree : tree.unplaced = tree'.unplaced) :
    ∃ w', w ≤ w' ∧ StoresAlike σ w' (s.load tree).2 (t.load tree').2 ∧
      CodesAlike σ w' (s.load tree).1 (t.load tree').1 := by
  match tree, tree' with
  | .atom a place, .atom a' place' =>
    obtain rfl : a = a' := by simpa [Tree.unplaced] using htree
    exact h.newAtom a _ _
  | .list items place, .list items' place' =>
    have hitems : Tree.unplacedAll items = Tree.unplacedAll items' := by
      simpa [Tree.unplaced] using htree
    obtain ⟨w₁, hle₁, hst₁, hcells⟩ := h.loadAll hitems
    obtain ⟨w₂, hle₂, hst₂, hcode⟩ := hst₁.newCodeList (some place) (some place') hcells
    exact ⟨w₂, hle₁.trans hle₂, hst₂, hcode⟩
  | .atom _ _, .list _ _ => simp [Tree.unplaced] at htree
  | .list _ _, .atom _ _ => simp [Tree.unplaced] at htree

theorem loadAll {w : Census} {s t : Store} (h : StoresAlike σ w s t) {trees trees' : List Tree}
    (htrees : Tree.unplacedAll trees = Tree.unplacedAll trees') :
    ∃ w', w ≤ w' ∧ StoresAlike σ w' (s.loadAll trees).2 (t.loadAll trees').2 ∧
      List.Forall₂ (CodesAlike σ w') (s.loadAll trees).1 (t.loadAll trees').1 := by
  match trees, trees' with
  | [], [] => exact ⟨w, le_rfl, h, .nil⟩
  | tree :: trees, tree' :: trees' =>
    obtain ⟨htree, htrees⟩ : tree.unplaced = tree'.unplaced ∧
        Tree.unplacedAll trees = Tree.unplacedAll trees' := by
      simpa [Tree.unplacedAll] using htrees
    obtain ⟨w₁, hle₁, hst₁, hcode⟩ := h.load htree
    obtain ⟨w₂, hle₂, hst₂, hcodes⟩ := hst₁.loadAll htrees
    exact ⟨w₂, hle₁.trans hle₂, hst₂, .cons (hcode.mono hle₂) hcodes⟩
  | [], _ :: _ => simp [Tree.unplacedAll] at htrees
  | _ :: _, [] => simp [Tree.unplacedAll] at htrees

end

/-! ### Paths -/

theorem codeItems (h : StoresAlike σ w s t) (hc : CodesAlike σ w c d) (hlist : c.value = .list) :
    List.Forall₂ (CodesAlike σ w) (s.items c.id) (t.items d.id) := by
  have hitems := h.rows.items c.id hc.id_lt
  rw [hc.role_list hlist, ← hc.id_eq] at hitems
  exact hitems

theorem valueItems (h : StoresAlike σ w s t) (hc : ValuesAlike σ w c d) (hlist : c.value = .list) :
    List.Forall₂ (ValuesAlike σ w) (s.items c.id) (t.items d.id) := by
  have hitems := h.rows.items c.id hc.id_lt
  rw [hc.role_list hlist, ← hc.id_eq] at hitems
  exact hitems

theorem child_code (h : StoresAlike σ w s t) {c' : Cell} (hc : CodesAlike σ w c c')
    (hchild : s.Child c d) :
    HasItem s.itemRows c.id d.id ∧ ∃ d', CodesAlike σ w d d' := by
  cases hchild with
  | item hlist hitem =>
    obtain ⟨d', -, hd⟩ := exists_of_mem (h.codeItems hc hlist) hitem
    exact ⟨⟨d, hitem, rfl⟩, d', hd⟩
  | body hlambda =>
    have hvalue := hc.value
    rw [hlambda] at hvalue
    nomatch hvalue

theorem child_data (h : StoresAlike σ w s t) {c' : Cell} (hc : ValuesAlike σ w c c')
    (hchild : s.Child c d) :
    HasItem s.itemRows c.id d.id ∧ (∃ d', ValuesAlike σ w d d') ∨ ∃ d', CodesAlike σ w d d' := by
  cases hchild with
  | item hlist hitem =>
    obtain ⟨d', -, hd⟩ := exists_of_mem (h.valueItems hc hlist) hitem
    exact .inl ⟨⟨d, hitem, rfl⟩, d', hd⟩
  | body hlambda =>
    have hvalue := hc.value
    rw [hlambda] at hvalue
    generalize c'.value = v' at hvalue
    cases hvalue with
    | lambda _ hbody => exact .inr ⟨_, hbody⟩

theorem path_code (h : StoresAlike σ w s t) {c' : Cell} (hc : CodesAlike σ w c c')
    (hpath : TransGen s.Child c d) :
    TransGen (HasItem s.itemRows) c.id d.id ∧ ∃ d', CodesAlike σ w d d' := by
  induction hpath with
  | single hchild =>
    obtain ⟨hitem, hd⟩ := h.child_code hc hchild
    exact ⟨.single hitem, hd⟩
  | tail _ hchild ih =>
    obtain ⟨hpath, _, hb⟩ := ih
    obtain ⟨hitem, hd⟩ := h.child_code hb hchild
    exact ⟨hpath.tail hitem, hd⟩

/-- A path from a value stays among values or ends in the body of a lambda. -/
theorem path_data (h : StoresAlike σ w s t) {c' : Cell} (hc : ValuesAlike σ w c c')
    (hpath : TransGen s.Child c d) :
    TransGen (HasItem s.itemRows) c.id d.id ∧ (∃ d', ValuesAlike σ w d d') ∨
      ∃ d', CodesAlike σ w d d' := by
  induction hpath with
  | single hchild => exact (h.child_data hc hchild).imp_left fun ⟨hitem, hd⟩ => ⟨.single hitem, hd⟩
  | tail _ hchild ih =>
    rcases ih with ⟨hpath, _, hb⟩ | ⟨_, hb⟩
    · exact (h.child_data hb hchild).imp_left fun ⟨hitem, hd⟩ => ⟨hpath.tail hitem, hd⟩
    · exact .inr (h.child_code hb hchild).2

theorem role_of_child {c' : Cell} (hc : ValuesAlike σ w c c') (hchild : s.Child c d) :
    w.role c.id = .data ∨ w.role c.id = .leaf := by
  cases hchild with
  | item hlist _ => exact .inl (hc.role_list hlist)
  | body hlambda => exact .inr (hc.role_lambda _ _ _ hlambda)

/-- No path returns to where it came from. -/
theorem id_ne_of_path (h : StoresAlike σ w s t)
    (hc : (∃ c', CodesAlike σ w c c') ∨ ∃ c', ValuesAlike σ w c c')
    (hpath : TransGen s.Child c d) : c.id ≠ d.id := by
  intro heq
  rcases hc with ⟨c', hc⟩ | ⟨c', hc⟩
  · have hcycle := (h.path_code hc hpath).1
    rw [← heq] at hcycle
    exact h.rows.acyclic c.id hcycle
  · rcases h.path_data hc hpath with ⟨hcycle, -⟩ | ⟨d', hd⟩
    · rw [← heq] at hcycle
      exact h.rows.acyclic c.id hcycle
    -- the path has entered a lambda, and nothing of a program is also a computed list or lambda
    · obtain ⟨b, hchild, -⟩ := TransGen.head'_iff.1 hpath
      have hrole := role_of_child hc hchild
      rw [heq] at hrole
      by_cases hlist : d.value = .list
      · simp [hd.role_list hlist] at hrole
      · simp [hd.role_atom hlist] at hrole

theorem fits (h : StoresAlike σ w s t)
    (hc : (∃ c', CodesAlike σ w c c') ∨ ∃ c', ValuesAlike σ w c c') : s.Fits s.depth c := by
  refine Store.Fits.mono (Nat.le_succ _)
    (Store.fits_of_irrefl ?_ ?_ (fun _ _ => h.id_ne_of_path) hc)
  · rintro b d (⟨b', hb⟩ | ⟨b', hb⟩) hchild
    · exact .inl (h.child_code hb hchild).2
    · exact (h.child_data hb hchild).elim (fun hd => .inr hd.2) .inl
  · rintro b (⟨b', hb⟩ | ⟨b', hb⟩) <;> exact h.rows.size_eq ▸ hb.id_lt

/-- What a value contains is found by every walk that goes deep enough. -/
theorem reachesWithin_of_path (h : StoresAlike σ w s t) {c' : Cell} (hc : ValuesAlike σ w c c')
    (hpath : ReflTransGen (HasItem s.itemRows) c.id d.id) :
    ∃ n, ∀ m, n ≤ m → s.reachesWithin d m c = true := by
  generalize hid : c.id = id at hpath
  induction hpath using ReflTransGen.head_induction_on generalizing c c' with
  | refl =>
    refine ⟨1, fun m hm => ?_⟩
    obtain ⟨m, rfl⟩ : ∃ k, m = k + 1 := Nat.exists_eq_add_of_le' hm
    simp [Store.reachesWithin_succ, Cell.same, hid]
  | @head id next hstep _ ih =>
    subst hid
    obtain ⟨item, hitem, rfl⟩ := hstep
    have hlist : c.value = .list := by
      by_contra hlist
      obtain ⟨_, -, hcd⟩ := exists_of_mem (h.rows.items c.id hc.id_lt) hitem
      rcases hc.role_leaf hlist with hrole | hrole <;> rw [hrole] at hcd <;> exact hcd
    obtain ⟨item', -, hvalue⟩ := exists_of_mem (h.valueItems hc hlist) hitem
    obtain ⟨n, hn⟩ := ih hvalue rfl
    refine ⟨n + 1, fun m hm => ?_⟩
    obtain ⟨m, rfl⟩ : ∃ k, m = k + 1 :=
      Nat.exists_eq_add_of_le' (Nat.le_trans (Nat.le_add_left 1 n) hm)
    have hany : (s.items c.id).any (fun item => s.reachesWithin d m item) = true :=
      List.any_eq_true.2 ⟨item, hitem, hn m (Nat.le_of_succ_le_succ hm)⟩
    simp [Store.reachesWithin_succ, hlist, Value.isList, hany]

theorem not_path_of_reaches (h : StoresAlike σ w s t) {c' : Cell} (hc : ValuesAlike σ w c c')
    (hreaches : s.reaches c d = false) : ¬ReflTransGen (HasItem s.itemRows) c.id d.id := by
  intro hpath
  obtain ⟨n, hn⟩ := h.reachesWithin_of_path hc hpath
  have hfits := h.fits (.inr ⟨c', hc⟩)
  have hbound := Store.reachesWithin_of_fits (Nat.le_max_left s.depth n) hfits d
  rw [hn _ (Nat.le_max_right _ _)] at hbound
  rw [Store.reaches, ← hbound] at hreaches
  cases hreaches

end StoresAlike

end BracketScript
