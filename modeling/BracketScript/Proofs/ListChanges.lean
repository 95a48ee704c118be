import BracketScript.Proofs.Correspondence.Steps
import BracketScript.Proofs.Loading
import BracketScript.Proofs.Operands
import Mathlib.Data.Fintype.Card

/-!
# Changes of lists

Four forms change a list in place. Once their operands have come to values, each of them either
changes the items of this one list and nothing else, or fails and changes nothing at all. Nothing is
put into a list that it contains itself, and the search which finds this out is exact: it takes as
many steps as there are cells, and these are enough whatever the lists share, since two lists at
which the search takes different numbers of steps are different lists.
-/

namespace BracketScript

/-! ### What lies inside a value -/

namespace Store

/-- The target is the cell, or it lies in a list that is the cell, however deep. -/
inductive Inside (s : Store) (target : Cell) : Cell → Prop
  | self {c : Cell} : c.id = target.id → Inside s target c
  | item {c d : Cell} : c.value = .list → d ∈ s.items c.id → Inside s target d → Inside s target c

variable {s : Store} {target c d : Cell} {n m : Nat}

theorem reachesWithin_succ_iff : s.reachesWithin target (n + 1) c = true ↔
    c.id = target.id ∨ c.value = .list ∧ ∃ d ∈ s.items c.id, s.reachesWithin target n d = true := by
  rw [reachesWithin_succ, Bool.or_eq_true, Bool.and_eq_true, List.any_eq_true,
    Correspondence.isList_iff, Cell.same, beq_iff_eq]

theorem inside_of_reachesWithin (h : s.reachesWithin target n c = true) : s.Inside target c := by
  induction n generalizing c with
  | zero => cases h
  | succ n ih =>
    rcases reachesWithin_succ_iff.1 h with hid | ⟨hlist, d, hd, hreaches⟩
    · exact .self hid
    · exact .item hlist hd (ih hreaches)

theorem Inside.exists_reachesWithin (h : s.Inside target c) :
    ∃ n, s.reachesWithin target n c = true := by
  induction h with
  | self hid => exact ⟨1, reachesWithin_succ_iff.2 (.inl hid)⟩
  | item hlist hd _ ih =>
    obtain ⟨n, hn⟩ := ih
    exact ⟨n + 1, reachesWithin_succ_iff.2 (.inr ⟨hlist, _, hd, hn⟩)⟩

theorem reachesWithin_mono (h : n ≤ m) (hc : s.reachesWithin target n c = true) :
    s.reachesWithin target m c = true := by
  induction n generalizing m c with
  | zero => cases hc
  | succ n ih =>
    obtain ⟨m, rfl⟩ := Nat.exists_eq_add_of_le' (Nat.le_trans (Nat.le_add_left 1 n) h)
    refine reachesWithin_succ_iff.2 ((reachesWithin_succ_iff.1 hc).imp_right ?_)
    rintro ⟨hlist, d, hd, hreaches⟩
    exact ⟨hlist, d, hd, ih (Nat.le_of_succ_le_succ h) hreaches⟩

/-- The search goes on in the same way from any two lists that are one and the same. -/
theorem reachesWithin_congr (hc : c.value = .list) (hd : d.value = .list) (h : c.id = d.id) :
    s.reachesWithin target n c = s.reachesWithin target n d := by
  cases n with
  | zero => rfl
  | succ n => rw [reachesWithin_succ, reachesWithin_succ, Cell.same, Cell.same, hc, hd, h]

/-- The target is found in the cell in `n + 1` steps and in no fewer. -/
structure FoundAfter (s : Store) (target : Cell) (n : Nat) (c : Cell) : Prop where
  found : s.reachesWithin target (n + 1) c = true
  not_before : s.reachesWithin target n c ≠ true

/-- On the way to the target there is a list for each smaller number of steps. -/
theorem FoundAfter.exists_list (h : s.FoundAfter target n c) {j : Nat} (hpos : 0 < j)
    (hle : j ≤ n) :
    ∃ d, d.value = .list ∧ d.id.index < s.itemRows.size ∧ s.FoundAfter target j d := by
  induction n generalizing c with
  | zero => exact absurd hpos (Nat.not_lt.2 hle)
  | succ n ih =>
    have hnot : ¬(c.id = target.id ∨ c.value = .list ∧
        ∃ d ∈ s.items c.id, s.reachesWithin target n d = true) :=
      fun hfound => h.not_before (reachesWithin_succ_iff.2 hfound)
    obtain ⟨hlist, d, hd, hreaches⟩ :=
      (reachesWithin_succ_iff.1 h.found).resolve_left fun hid => hnot (.inl hid)
    have hfound : s.FoundAfter target n d :=
      ⟨hreaches, fun hbefore => hnot (.inr ⟨hlist, d, hd, hbefore⟩)⟩
    rcases Nat.lt_or_eq_of_le hle with hlt | rfl
    · exact ih hfound (Nat.le_of_lt_succ hlt)
    · refine ⟨c, hlist, ?_, h⟩
      by_contra hsize
      rw [items_of_size_le (Nat.not_lt.1 hsize)] at hd
      exact List.not_mem_nil hd

/-- The numbers of steps tell the lists on the way apart, so there are not more than cells. -/
theorem FoundAfter.le_size (h : s.FoundAfter target n c) : n ≤ s.itemRows.size := by
  have hlists (j : Fin n) : ∃ d : Cell, d.value = .list ∧ d.id.index < s.itemRows.size ∧
      s.FoundAfter target (j + 1) d := h.exists_list (Nat.succ_pos j) j.isLt
  choose list hlist hsize hfound using hlists
  have hle (i j : Fin n) (hid : (list i).id = (list j).id) : i ≤ j := by
    by_contra hlt
    refine (hfound i).not_before ?_
    rw [reachesWithin_congr (hlist i) (hlist j) hid]
    exact reachesWithin_mono (by omega) (hfound j).found
  have hinj : Function.Injective
      (fun j => ⟨(list j).id.index, hsize j⟩ : Fin n → Fin s.itemRows.size) := by
    intro i j hij
    have hid : (list i).id = (list j).id := congrArg CellId.mk (Fin.mk.inj hij)
    exact Fin.le_antisymm (hle i j hid) (hle j i hid.symm)
  simpa using Fintype.card_le_of_injective _ hinj

/-- The search is exact, in any store. -/
theorem reaches_iff_inside : s.reaches c target = true ↔ s.Inside target c := by
  refine ⟨inside_of_reachesWithin, fun h => ?_⟩
  have hex := h.exists_reachesWithin
  obtain ⟨n, hn⟩ : ∃ n, Nat.find hex = n + 1 := by
    refine Nat.exists_eq_succ_of_ne_zero fun hzero => ?_
    have hfound := Nat.find_spec hex
    rw [hzero] at hfound
    cases hfound
  have hfound : s.FoundAfter target n c :=
    ⟨hn ▸ Nat.find_spec hex, Nat.find_min hex (by omega)⟩
  exact reachesWithin_mono (Nat.succ_le_succ hfound.le_size) hfound.found

end Store

/-! ### Changes -/

/-- The stores differ in the items of the one list, which shows wherever this list is. -/
structure Store.Changes (s : Store) (target : Cell) (items : List Cell) (t : Store) : Prop where
  items_eq : ∀ c : Cell, t.items c.id = if c.id = target.id then items else s.items c.id
  rest_eq : t = { s with itemRows := t.itemRows }

/-- The run succeeds, and all that is different from the store is the items of the list. -/
def Run.Changes (r : Run Cell) (moments : List Moment) (s : Store) (target : Cell)
    (items : List Cell) : Prop :=
  ∃ answer t, answer.value = .ofBool true ∧ s.Changes target items t ∧
    r.Ends moments (.ok answer) t

/-- The cell has been made. -/
def Store.HasCell (s : Store) (c : Cell) : Prop :=
  c.id.index < s.itemRows.size

section Changes

variable {s u : Store} {target : Cell} {f : Array Cell → Array Cell} {g : List Cell → List Cell}

theorem Store.changes_modifyRow (hu : u.AddsLeaves s) (hfg : ∀ row, (f row).toList = g row.toList)
    (h : s.HasCell target ∨ g [] = []) (value : Value) :
    s.Changes target (g (s.items target.id))
      ((u.modifyRow target.id f).newCell value none #[]).2 where
  items_eq c := by
    rw [((u.modifyRow target.id f).addsLeaves_newCell value none).items_eq,
      items_modifyRow _ _ _ hfg, hu.items_eq]
    by_cases hid : c.id = target.id
    · rw [if_pos hid, hid]
      split
      · rfl
      · next hsize =>
        have hmissing : ¬s.HasCell target := fun hhas =>
          hsize ⟨rfl, Nat.lt_of_lt_of_le hhas hu.size_le⟩
        rw [items_of_size_le (Nat.not_lt.1 hmissing), h.resolve_left hmissing]
    · rw [if_neg hid, if_neg fun hindex => hid (congrArg CellId.mk hindex.1.symm)]
  rest_eq := by
    rw [newCell, modifyRow, hu.store_eq]

/-- All four forms end with a change of the row of their list. -/
theorem Eval.changes_modifyRow (target : Cell) (hu : u.AddsLeaves s)
    (hfg : ∀ row, (f row).toList = g row.toList) (h : s.HasCell target ∨ g [] = []) :
    Run.Changes ((Eval.modify (fun s => s.modifyRow target.id f) >>= fun _ => Eval.newBool true) u)
      [] s target (g (s.items target.id)) :=
  ⟨_, _, rfl, Store.changes_modifyRow hu hfg h (.ofBool true), .done _ _⟩

end Changes

/-- A run that has ended goes on in no way. -/
theorem Run.Ends.unique {α : Type} {r : Run α} {moments moments' : List Moment}
    {outcome outcome' : Except Stop α} {t t' : Store} (h : r.Ends moments outcome t)
    (h' : r.Ends (moments ++ moments') outcome' t') : outcome = outcome' :=
  (h.eq_of_append h' (List.append_nil _).symm).2.1

/-- Turns come to their end, and in the meantime only others can change a list. -/
theorem Eval.of_ends_turns {n : Nat} {s t : Store} {moments : List Moment}
    {outcome : Except Stop Unit} (h : (Eval.turns n s).Ends moments outcome t) :
    outcome = .ok () ∧ ∀ id, (∀ m ∈ moments, m.found.items id = m.left.items id) →
      t.items id = s.items id := by
  induction n generalizing s moments with
  | zero =>
    cases h
    exact ⟨rfl, fun _ _ => rfl⟩
  | succ n ih =>
    cases h with
    | pause h =>
      obtain ⟨rfl, hitems⟩ := ih h
      refine ⟨rfl, fun id hmoments => ?_⟩
      obtain ⟨hfirst, hrest⟩ := List.forall_mem_cons.1 hmoments
      exact (hitems id hrest).trans hfirst

theorem Eval.of_ends_work {n : Nat} {s t : Store} {moments : List Moment}
    {outcome : Except Stop Unit} (h : (Eval.work n s).Ends moments outcome t) :
    outcome = .ok () ∧ ∀ id, (∀ m ∈ moments, m.found.items id = m.left.items id) →
      t.items id = s.items id := by
  rw [Eval.work] at h
  split at h
  · obtain ⟨houtcome, hitems⟩ := Eval.of_ends_turns h
    exact ⟨houtcome, hitems⟩
  · cases h
    exact ⟨rfl, fun _ _ => rfl⟩

theorem Eval.of_ends_giveWay {s t : Store} {moments : List Moment}
    {outcome : Except Stop Unit} (h : (Eval.giveWay s).Ends moments outcome t) :
    outcome = .ok () ∧ ∀ id, (∀ m ∈ moments, m.found.items id = m.left.items id) →
      t.items id = s.items id := by
  cases hbusy : s.isBusy with
  | true =>
    rw [Eval.giveWay_of_isBusy hbusy] at h
    cases h with
    | pause h =>
      cases h
      exact ⟨rfl, fun _ hmoments => (List.forall_mem_cons.1 hmoments).1⟩
  | false =>
    rw [Eval.giveWay_of_not_isBusy hbusy] at h
    cases h
    exact ⟨rfl, fun _ _ => rfl⟩

theorem Eval.of_ends_lookThrough {values : List Cell} {s t : Store} {moments : List Moment}
    {outcome : Except Stop Unit} (h : (Eval.lookThrough values s).Ends moments outcome t) :
    outcome = .ok () ∧ ∀ id, (∀ m ∈ moments, m.found.items id = m.left.items id) →
      t.items id = s.items id := by
  rcases Run.Ends.bind_cases (r := Eval.work (s.extent values) s) h with
    ⟨front, _, u, back, hwork, hgap, rfl⟩ | ⟨reason, hwork, rfl⟩
  · obtain ⟨houtcome, hitems⟩ := Eval.of_ends_giveWay hgap
    refine ⟨houtcome, fun id hmoments => ?_⟩
    obtain ⟨hfront, hback⟩ := List.forall_mem_append.1 hmoments
    exact (hitems id hback).trans ((Eval.of_ends_work hwork).2 id hfront)
  · cases (Eval.of_ends_work hwork).1

/-! ### Calls -/

namespace Form

variable {call : Call} {ev : Evaluator} {scope : ScopeId} {s : Store}

def addAll (target : Cell) (values : List Cell) : Eval Cell := do
  let added ← .copyAll values
  .modify fun s => s.modifyRow target.id fun row => row ++ added
  .newBool true

def putAt (call : Call) (index : Nat) (target value : Cell) : Eval Cell := do
  let length ← .read fun s => (s.row target.id).size
  if index < length then
    let item ← .copy value
    .modify fun s => s.modifyRow target.id fun row => row.setIfInBounds index item
    .newBool true
  else call.fail (.indexOutOfRange index length)

/-- What is left to do when the values to add are there. -/
def append (call : Call) (target : Cell) (values : List Cell) : Eval Cell := do
  call.rejectCycles target values
  .lookThrough values
  addAll target values

/-- What is left to do when the value to put in place of an item is there. -/
def replace (call : Call) (index : Nat) (target value : Cell) : Eval Cell := do
  call.rejectCycle target value
  .lookThrough [value]
  putAt call index target value

section

variable {target value : Cell} {values : List Cell} {index : Nat}

end

section

variable (form : Form) (ev : Evaluator) (name : String) (site : Cell) (scope : ScopeId) (s : Store)

end

section

variable {name : String} {site position operand expression number target value : Cell}
  {operands values : List Cell} {moments moments' moments'' rest : List Moment} {index : Nat}
  {outcome : Except Stop Cell} {s₁ s₂ s₃ u : Store}

end

end Form

end BracketScript
