import BracketScript.Proofs.Relocation

/-!
# Evaluation does not depend on identities and places

Stores that are alike stay so whatever is evaluated in them.
-/

namespace BracketScript

open Relation Correspondence

def relocation (σ : Shift) : Correspondence where
  World := Census
  preorder := inferInstance
  stores := StoresAlike σ
  values := ValuesAlike σ
  codes := CodesAlike σ
  queues w q q' := List.Forall₂ (ValuesAlike σ w) q.toList q'.toList
  isOpen _ _ := True
  isTable _ _ := True
  names _ := True
  places _ _ := True
  sources _ _ := True
  entries _ _ := True
  apart s c d := ¬ReflTransGen (HasItem s.itemRows) c.id d.id
  turns := False

variable {σ : Shift} {w : Census} {s t : Store} {c d : Cell}

theorem CodesAlike.literal (hc : CodesAlike σ w c d) (hlist : c.value ≠ .list)
    (hdata : DataValues (relocation σ).Bindable (CodesAlike σ w) c.value d.value) :
    ValuesAlike σ w c d where
  id_lt := hc.id_lt
  id_eq := hc.id_eq
  value := hdata
  role_list hlist' := absurd hlist' hlist
  role_leaf _ := .inr (hc.role_atom hlist)
  role_lambda parameters body scope hlambda := by
    have hvalue := hc.value
    rw [hlambda] at hvalue
    nomatch hvalue

theorem ValuesAlike.same_eq {c' d' : Cell} (hc : ValuesAlike σ w c d)
    (hc' : ValuesAlike σ w c' d') : c.same c' = d.same d' := by
  rw [Cell.same, Cell.same, hc.id_eq, hc'.id_eq, Bool.eq_iff_iff, beq_iff_eq, beq_iff_eq,
    σ.move_injective.eq_iff]

/-- A new cell without items leads nowhere new. -/
theorem not_reflTransGen_newCell {a b : CellId} (v : Value) (place : Option Location)
    (h : ¬ReflTransGen (HasItem s.itemRows) a b) :
    ¬ReflTransGen (HasItem (s.newCell v place #[]).2.itemRows) a b := by
  change ¬ReflTransGen (HasItem (s.itemRows.push #[])) a b
  rw [hasItem_push_empty]
  exact h

namespace StoresAlike

theorem builtIn (h : StoresAlike σ w s t) (k : Keyword) :
    ValuesAlike σ w (.builtIn k) (.builtIn k) := by
  obtain ⟨hlt, hrole⟩ := h.rows.builtIn k
  exact {
    id_lt := Nat.lt_of_lt_of_le hlt h.rows.fixed_le
    id_eq := (σ.move_of_lt hlt).symm
    value := .procedure (.builtIn k)
    role_list := nofun
    role_leaf := fun _ => .inl hrole
    role_lambda := nofun }

theorem setItems (h : StoresAlike σ w s t) (hc : ValuesAlike σ w c d) (hlist : c.value = .list)
    {cells cells' : List Cell} (hcells : List.Forall₂ (ValuesAlike σ w) cells cells')
    (hapart : ∀ item ∈ cells,
      item ∈ s.items c.id ∨ ¬ReflTransGen (HasItem s.itemRows) item.id c.id) :
    StoresAlike σ w (s.modifyRow c.id fun _ => cells.toArray)
      (t.modifyRow d.id fun _ => cells'.toArray) := by
  have hrow : List.Forall₂ (ItemsAlike σ w (w.role c.id)) cells cells' := by
    rw [hc.role_list hlist]
    exact hcells
  rw [hc.id_eq]
  refine h.withRows (fun _ _ => id) (fun _ _ => id) (h.rows.modify hrow fun item hitem => ?_)
  rcases hapart item hitem with hold | hnew
  · exact h.rows.acyclic.not_reflTransGen ⟨item, hold, rfl⟩
  · exact hnew

theorem depth_le (h : StoresAlike σ w s t) : s.depth ≤ t.depth := by
  rw [Store.depth, Store.depth, h.rows.size_eq, h.rows.size_eq']
  omega

theorem define (h : StoresAlike σ w s t) (hc : ValuesAlike σ w c d) (id : ScopeId) (name : String) :
    StoresAlike σ w (s.define id name c) (t.define id name d) :=
  { h with scopes := h.scopes.modify ((h.scopes.get id.index).set hc name) }

theorem newScope (h : StoresAlike σ w s t) (outer : List ScopeId) :
    StoresAlike σ w (s.newScope outer).2 (t.newScope outer).2 :=
  { h with scopes := h.scopes.push ⟨rfl, rfl, fun _ => .none⟩ }

theorem id_newScope (h : StoresAlike σ w s t) (outer : List ScopeId) :
    (s.newScope outer).1 = (t.newScope outer).1 :=
  congrArg ScopeId.mk h.scopes.size_eq

theorem isBusy_eq (h : StoresAlike σ w s t) : s.isBusy = t.isBusy := by
  rw [Store.isBusy, Store.isBusy, h.running_eq]

theorem newTask (h : StoresAlike σ w s t) {body body' : Cell} (hbody : CodesAlike σ w body body')
    (scope : ScopeId) :
    StoresAlike σ w (s.newTask body scope).2 (t.newTask body' scope).2 where
  rows := h.rows
  scopes := h.scopes
  channels := h.channels
  refs := h.refs
  tasks := h.tasks.push ⟨rfl, .none⟩
  running_eq := congrArg (· + 1) h.running_eq
  launches := List.rel_append h.launches
    (.cons ⟨congrArg TaskId.mk h.tasks.size_eq, rfl, hbody⟩ .nil)
  used_eq := by
    change (if s.isBusy then s.used else 0) = if t.isBusy then t.used else 0
    rw [h.isBusy_eq, h.used_eq]
  output_eq := h.output_eq

end StoresAlike

theorem rel_pop? {q q' : Queue Cell} {R : Cell → Cell → Prop}
    (h : List.Forall₂ R q.toList q'.toList) :
    Option.Rel (fun p p' => R p.1 p'.1 ∧ List.Forall₂ R p.2.toList p'.2.toList) q.pop? q'.pop? := by
  have hpop := q.pop?_eq
  have hpop' := q'.pop?_eq
  generalize q.toList = cells at h hpop
  generalize q'.toList = cells' at h hpop'
  cases h with
  | nil =>
    rw [Option.map_eq_none_iff.1 hpop, Option.map_eq_none_iff.1 hpop']
    exact .none
  | cons hc hcells =>
    obtain ⟨p, hp, heq⟩ := Option.map_eq_some_iff.1 hpop
    obtain ⟨p', hp', heq'⟩ := Option.map_eq_some_iff.1 hpop'
    cases heq
    cases heq'
    rw [hp, hp']
    exact .some ⟨hc, hcells⟩

/-- Evaluation keeps stores alike. -/
theorem lawful_relocation (σ : Shift) : (relocation σ).Lawful where
  values_mono hle hc := ValuesAlike.mono hle hc
  codes_mono hle hc := CodesAlike.mono hle hc
  isOpen_mono _ _ := trivial
  isTable_mono _ _ := trivial
  values_value hc := ValuesAlike.value hc
  codes_value hc := CodesAlike.value hc
  codes_place _ := trivial
  literal hc hlist hdata := CodesAlike.literal hc hlist hdata
  same_eq hc hc' := ValuesAlike.same_eq hc hc'
  names_faultName := trivial
  places_orElse _ _ := trivial
  builtIn k hst := StoresAlike.builtIn hst k
  newCell hst _ hv hlist := StoresAlike.newLeaf hst _ _ hv hlist
  newList hst hcells := StoresAlike.newDataList hst hcells
  load hst _ _ _ := StoresAlike.load hst rfl
  valueItems hst hc hlist := StoresAlike.valueItems hst hc hlist
  codeItems hst hc hlist := StoresAlike.codeItems hst hc hlist
  setItems hst hc hlist hcells hapart :=
    ⟨_, le_rfl, StoresAlike.setItems hst hc hlist hcells hapart⟩
  apart_of_reaches hst _ hitem hreaches := StoresAlike.not_path_of_reaches hst hitem hreaches
  apart_newCell v place _ _ _ hapart := not_reflTransGen_newCell v place hapart
  apart_new {_ s _ _ _ v} place hst hc _ := by
    refine not_reflTransGen_newCell v place
      (not_reflTransGen_of_lt (Nat.le_refl s.itemRows.size) ?_)
    rw [hst.rows.size_eq]
    exact ValuesAlike.id_lt hc
  apart_setUsed _ hapart := hapart
  apart_of_turns hturns := hturns.elim
  fits_value hst hc := .inr ⟨StoresAlike.depth_le hst, StoresAlike.fits hst (.inr ⟨_, hc⟩)⟩
  fits_code hst hc := .inr ⟨StoresAlike.depth_le hst, StoresAlike.fits hst (.inl ⟨_, hc⟩)⟩
  outer_eq id hst := (hst.scopes.get id.index).outer_eq
  packages_eq id hst := (hst.scopes.get id.index).packages_eq
  get? id name hst := (hst.scopes.get id.index).get? name
  childScope {_ s t} parent hst := by
    have hchain : s.chain parent = t.chain parent :=
      congrArg (parent :: ·) (hst.scopes.get parent.index).outer_eq
    rw [Store.childScope, Store.childScope, hchain]
    exact ⟨StoresAlike.id_newScope hst _, _, le_rfl, StoresAlike.newScope hst _, trivial⟩
  newTable hst := ⟨StoresAlike.id_newScope hst [], _, le_rfl, StoresAlike.newScope hst [], trivial⟩
  define hst hc _ := ⟨_, le_rfl, StoresAlike.define hst hc _ _⟩
  redefine hst hc _ := ⟨_, le_rfl, StoresAlike.define hst hc _ _⟩
  queues_toList hq := hq
  queues_empty _ := .nil
  queues_pushAll hq hcells := by
    change List.Forall₂ _ (Queue.toList _) (Queue.toList _)
    rw [Queue.toList_pushAll, Queue.toList_pushAll]
    exact List.rel_append hq hcells
  queues_pop? hq := rel_pop? hq
  channels_size_eq hst := hst.channels.size_eq
  queue id hst := hst.channels.get id.index
  setQueue id hst hq := ⟨_, le_rfl, { hst with channels := hst.channels.modify hq }⟩
  newChannel hst := ⟨congrArg ChannelId.mk hst.channels.size_eq, _, le_rfl,
    { hst with channels := hst.channels.push .nil }⟩
  reference id hst := hst.refs.get id.index
  writeReference id hst hc := ⟨_, le_rfl, { hst with refs := hst.refs.modify (.some hc) }⟩
  newReference hst hc := ⟨congrArg RefId.mk hst.refs.size_eq, _, le_rfl,
    { hst with refs := hst.refs.push hc }⟩
  result id hst := (hst.tasks.get id.index).result
  joinable_eq id hst := (hst.tasks.get id.index).joinable_eq
  release id hst := ⟨_, le_rfl,
    { hst with tasks := hst.tasks.modify ⟨rfl, (hst.tasks.get id.index).result⟩ }⟩
  newTask hst hbody _ := ⟨congrArg TaskId.mk hst.tasks.size_eq, _, le_rfl,
    StoresAlike.newTask hst hbody _⟩
  write text hst := ⟨_, le_rfl, { hst with output_eq := congrArg (· ++ text) hst.output_eq }⟩
  isBusy_eq hst := StoresAlike.isBusy_eq hst
  used_eq hst := hst.used_eq
  setUsed used hst := ⟨_, le_rfl, { hst with used_eq := rfl }⟩

end BracketScript
