import BracketScript.Proofs.Assignment
import Mathlib.Logic.Relation

/-!
# Lexical scoping

Each scope keeps all scopes around it in a list. If scopes are only made on their own or inside
others, this list is what one gets by going from parent to parent, and looking up a name can be
described by such walks: a walk goes past the scopes that do not bind the name and ends at the first
that does. What a write changes is then said for all scopes of a forest at once, namely for those
from which a walk leads to the scope that is written to.
-/

namespace BracketScript

def Eval.rebind (scope : ScopeId) (name : String) (cell : Cell) (location : Option Location) :
    Eval Unit := do
  let slot ← readOr fun s => s.plainSlot scope name location
  modify fun s => s.fill slot cell

namespace Store

def parent? (s : Store) (id : ScopeId) : Option ScopeId :=
  (s.scope id).outer.head?

def HasScope (s : Store) (id : ScopeId) : Prop :=
  id.index < s.scopes.size

/-- The scopes of the store were made one after the other, on their own or inside others, and names
were bound and assigned in them, in any order and with anything else in between. -/
inductive IsGrown : Store → Prop
  | empty {s : Store} : s.scopes = .empty → IsGrown s
  | new {s : Store} : IsGrown s → IsGrown (s.newScope []).2
  | child {s : Store} (parent : ScopeId) :
      IsGrown s → s.HasScope parent → IsGrown (s.childScope parent).2
  | set {s : Store} (id : ScopeId) (name : String) (c : Cell) :
      IsGrown s → s.HasScope id → IsGrown (s.define id name c)
  | assign {s t : Store} {id : ScopeId} {name : String} {c : Cell} {location : Option Location} :
      IsGrown s → Eval.rebind id name c location s = .done () t → IsGrown t
  | other {s t : Store} : IsGrown s → t.scopes = s.scopes → IsGrown t

/-- Looking up the name goes from a scope on to its parent. -/
def Passes (s : Store) (name : String) (id parent : ScopeId) : Prop :=
  (s.scope id).binds name = false ∧ s.parent? id = some parent

/-- Looking up the name from the one scope comes to the other, since no scope nearer than the other
binds it. -/
def Sees (s : Store) (name : String) : ScopeId → ScopeId → Prop :=
  Relation.ReflTransGen (s.Passes name)

/-! ### Forests -/

/-- The scopes lie around each other: there are none, or they are a scope and those around it. -/
inductive IsLineage (s : Store) : List ScopeId → Prop
  | nil : IsLineage s []
  | chain {parent : ScopeId} : s.HasScope parent → IsLineage s (s.chain parent)

def IsForest (s : Store) : Prop :=
  ∀ id, s.IsLineage (s.scope id).outer

variable {s t : Store} {id other owner : ScopeId} {name : String} {c : Cell}
  {location : Option Location}

/-- Scopes stay around each other as long as those that there are keep what is around them. -/
theorem IsLineage.of_outer_eq {outer : List ScopeId} (h : s.IsLineage outer)
    (houter : ∀ id, s.HasScope id → t.HasScope id ∧ (t.scope id).outer = (s.scope id).outer) :
    t.IsLineage outer := by
  cases h with
  | nil => exact .nil
  | @chain parent hparent =>
    obtain ⟨hhas, heq⟩ := houter parent hparent
    rw [Store.chain, ← heq]
    exact .chain hhas

theorem outer_define : ((s.define id name c).scope other).outer = (s.scope other).outer := by
  rw [scope_define]
  split <;> rfl

theorem hasScope_define : (s.define id name c).HasScope other ↔ s.HasScope other := by
  simp [HasScope, define]

theorem IsForest.define (h : s.IsForest) : (s.define id name c).IsForest := by
  intro other
  rw [outer_define]
  exact (h other).of_outer_eq fun _ hhas => ⟨hasScope_define.2 hhas, outer_define⟩

theorem IsForest.newScope (h : s.IsForest) {outer : List ScopeId} (houter : s.IsLineage outer) :
    (s.newScope outer).2.IsForest := by
  intro id
  have hlineage : s.IsLineage ((s.newScope outer).2.scope id).outer := by
    rw [scope_newScope]
    split
    · exact houter
    · exact h id
  refine hlineage.of_outer_eq fun other hhas => ⟨?_, ?_⟩
  · simp only [HasScope, Store.newScope, Arena.size_push]
    exact Nat.lt_succ_of_lt hhas
  · rw [scope_newScope, if_neg (Nat.ne_of_lt hhas)]

theorem IsForest.of_scopes_eq (h : s.IsForest) (hscopes : t.scopes = s.scopes) : t.IsForest := by
  intro id
  rw [scope, hscopes]
  exact (h id).of_outer_eq fun other hhas => by
    rw [HasScope, scope, hscopes]
    exact ⟨hhas, rfl⟩

theorem plainSlot_eq_ok_iff :
    s.plainSlot id name location = .ok ⟨owner, name⟩ ↔ s.owner? id name = some owner := by
  rw [plainSlot]
  cases s.owner? id name with
  | none => simp
  | some found => simp

theorem plainSlot_of_owner?_eq_none (h : s.owner? id name = none) (location : Option Location) :
    s.plainSlot id name location = .error (.unknownName name location) := by
  rw [plainSlot, h]

theorem rebind_of_owner? (h : s.owner? id name = some owner) (c : Cell)
    (location : Option Location) :
    Eval.rebind id name c location s = .done () (s.define owner name c) := by
  have hread : Eval.readOr (fun s => s.plainSlot id name location) s =
      .done ⟨owner, name⟩ s := by rw [Eval.readOr, plainSlot_eq_ok_iff.2 h]
  exact Eval.bind_of_done hread

theorem rebind_of_owner?_eq_none (h : s.owner? id name = none) (c : Cell)
    (location : Option Location) :
    Eval.rebind id name c location s = .stop (.fault (.unknownName name location)) s := by
  have hread : Eval.readOr (fun s => s.plainSlot id name location) s =
      .stop (.fault (.unknownName name location)) s := by
    rw [Eval.readOr, plainSlot_of_owner?_eq_none h]
  exact congrArg (Run.bind · _) hread

theorem exists_owner_of_rebind (h : Eval.rebind id name c location s = .done () t) :
    ∃ owner, s.owner? id name = some owner ∧ t = s.define owner name c := by
  cases howner : s.owner? id name with
  | none =>
    rw [rebind_of_owner?_eq_none howner] at h
    cases h
  | some owner =>
    rw [rebind_of_owner? howner] at h
    cases h
    exact ⟨owner, rfl, rfl⟩

theorem IsGrown.isForest (h : s.IsGrown) : s.IsForest := by
  induction h with
  | @empty s h =>
    intro id
    have hdefault : s.scope id = default := by
      rw [scope, h]
      exact Arena.get_of_size_le _ (Nat.zero_le _)
    rw [hdefault]
    exact .nil
  | new _ ih => exact ih.newScope .nil
  | child parent _ hparent ih => exact ih.newScope (.chain hparent)
  | set id name c _ _ ih => exact ih.define
  | assign _ hdone ih =>
    obtain ⟨owner, -, rfl⟩ := exists_owner_of_rebind hdone
    exact ih.define
  | other _ hscopes ih => exact ih.of_scopes_eq hscopes

/-! ### Walks -/

theorem parent?_define : (s.define id name c).parent? other = s.parent? other := by
  rw [parent?, outer_define, parent?]

theorem IsForest.chain_eq (h : s.IsForest) (id : ScopeId) :
    s.chain id = id :: (s.parent? id).elim [] s.chain := by
  have hlineage := h id
  rw [chain, parent?]
  generalize (s.scope id).outer = outer at hlineage ⊢
  cases hlineage with
  | nil => rfl
  | chain _ => rfl

/-- What each scope takes over from its parent is so of all scopes. -/
theorem IsForest.parent_induction (h : s.IsForest) {motive : ScopeId → Prop}
    (step : ∀ id, (∀ parent, s.parent? id = some parent → motive parent) → motive id)
    (id : ScopeId) : motive id := by
  induction hlength : (s.chain id).length using Nat.strong_induction_on generalizing id with
  | _ n ih =>
    refine step id fun parent hparent => ih _ ?_ parent rfl
    rw [← hlength, h.chain_eq id, hparent]
    exact Nat.lt_succ_self _

theorem IsForest.lookup?_eq (h : s.IsForest) (id : ScopeId) (name : String) :
    s.lookup? id name =
      ((s.scope id).get? name).or ((s.parent? id).bind fun parent => s.lookup? parent name) := by
  rw [lookup?, h.chain_eq, List.findSome?_cons]
  cases (s.scope id).get? name with
  | some c => rfl
  | none => cases s.parent? id <;> rfl

theorem IsForest.owner?_eq (h : s.IsForest) (id : ScopeId) (name : String) :
    s.owner? id name =
      if (s.scope id).binds name then some id
      else (s.parent? id).bind fun parent => s.owner? parent name := by
  rw [owner?, h.chain_eq, List.find?_cons]
  cases (s.scope id).binds name with
  | true => rfl
  | false => cases s.parent? id <;> rfl

/-- A name means what its owner binds it to. -/
theorem lookup?_eq_bind_owner? :
    s.lookup? id name = (s.owner? id name).bind fun owner => (s.scope owner).get? name := by
  rw [lookup?, owner?]
  induction s.chain id with
  | nil => rfl
  | cons i ids ih =>
    rw [List.findSome?_cons, List.find?_cons, Scope.binds]
    cases hget : (s.scope i).get? name with
    | none => exact ih
    | some c => exact hget.symm

/-- The owner of a name is the nearest scope that binds it. -/
theorem IsForest.owner?_eq_some_iff (h : s.IsForest) :
    s.owner? id name = some owner ↔
      s.Sees name id owner ∧ (s.scope owner).binds name = true := by
  induction id using h.parent_induction with
  | step id ih =>
    rw [h.owner?_eq]
    by_cases hbinds : (s.scope id).binds name = true
    · rw [if_pos hbinds]
      constructor
      · rintro ⟨⟩
        exact ⟨.refl, hbinds⟩
      · rintro ⟨hsees, -⟩
        rcases hsees.cases_head with rfl | ⟨parent, hpasses, -⟩
        · rfl
        · exact absurd hbinds (by simp [hpasses.1])
    · rw [if_neg hbinds, Option.bind_eq_some_iff]
      constructor
      · rintro ⟨parent, hparent, howner⟩
        obtain ⟨hsees, howns⟩ := (ih parent hparent).1 howner
        exact ⟨hsees.head ⟨by simpa using hbinds, hparent⟩, howns⟩
      · rintro ⟨hsees, howns⟩
        rcases hsees.cases_head with rfl | ⟨parent, hpasses, hsees⟩
        · exact absurd howns hbinds
        · exact ⟨parent, hpasses.2, (ih parent hpasses.2).2 ⟨hsees, howns⟩⟩

/-! ### Writes -/

theorem binds_eq_false_iff {key : String} :
    (s.scope id).binds key = false ↔ (s.scope id).get? key = none := by
  simp [Scope.binds]

/-- A name that is bound in a scope means the new cell wherever a lookup comes to this scope. -/
theorem IsForest.lookup?_define_of_sees (h : s.IsForest) (hid : s.HasScope id) (c : Cell)
    (hsees : s.Sees name other id) : (s.define id name c).lookup? other name = some c := by
  induction hsees using Relation.ReflTransGen.head_induction_on with
  | refl =>
    rw [h.define.lookup?_eq, get?_define hid, if_pos ⟨rfl, rfl⟩]
    rfl
  | @head other parent hpasses _ ih =>
    rw [h.define.lookup?_eq, get?_define hid, parent?_define, hpasses.2]
    split
    · rfl
    · rw [binds_eq_false_iff.1 hpasses.1]
      exact ih

/-- Binding a name changes the meaning of no other name, and nothing where lookups do not come to
the scope. -/
theorem IsForest.lookup?_define_of_not_sees (h : s.IsForest) (hid : s.HasScope id) (c : Cell)
    {key : String} (hsees : ¬(key = name ∧ s.Sees name other id)) :
    (s.define id name c).lookup? other key = s.lookup? other key := by
  induction other using h.parent_induction with
  | step other ih =>
    have hget : ¬(other = id ∧ key = name) := fun ⟨hother, hkey⟩ =>
      hsees ⟨hkey, hother ▸ .refl⟩
    rw [h.define.lookup?_eq, h.lookup?_eq, get?_define hid, if_neg hget, parent?_define]
    cases hbound : (s.scope other).get? key with
    | some bound => rfl
    | none =>
      cases hparent : s.parent? other with
      | none => rfl
      | some parent =>
        refine ih parent hparent fun ⟨hkey, hpath⟩ => hsees ⟨hkey, hpath.head ⟨?_, hparent⟩⟩
        rw [binds_eq_false_iff, ← hkey, hbound]

/-- In the second store the name means the cell in the given scopes, and all else means what it
meant. -/
structure Updates (s t : Store) (name : String) (c : Cell) (scopes : ScopeId → Prop) : Prop where
  inside : ∀ id, scopes id → t.lookup? id name = some c
  outside : ∀ id key, ¬(key = name ∧ scopes id) → t.lookup? id key = s.lookup? id key

theorem IsForest.updates_define (h : s.IsForest) (hid : s.HasScope id) (name : String) (c : Cell) :
    s.Updates (s.define id name c) name c fun other => s.Sees name other id where
  inside _ hsees := h.lookup?_define_of_sees hid c hsees
  outside _ _ hsees := h.lookup?_define_of_not_sees hid c hsees

/-- A lookup that comes to a scope that binds the name ends there. -/
theorem IsForest.updates_owner (h : s.IsForest) (howner : s.owner? id name = some owner)
    (c : Cell) :
    s.Updates (s.define owner name c) name c fun other => s.owner? other name = some owner := by
  have hbinds := (h.owner?_eq_some_iff.1 howner).2
  have hsees (other : ScopeId) : s.owner? other name = some owner ↔ s.Sees name other owner := by
    rw [h.owner?_eq_some_iff]
    exact and_iff_left hbinds
  simp only [hsees]
  exact h.updates_define (index_lt_of_binds hbinds) name c

end Store

theorem Eval.assign_eq_rebind {name : String} (h : Name.splitLast? name = none) (id : ScopeId)
    (c : Cell) (location : Option Location) :
    Eval.assign id name c location = Eval.rebind id name c location := by
  simp only [assign, rebind, Store.slot_of_splitLast?_eq_none h]

/-- Scopes obey the laws of lexical scoping in every forest of scopes. A name means what its owner
binds it to, and the owner is the nearest scope that binds the name. Assigning to a name changes
what it means in all scopes that have the same owner of it, and an assignment that fails changes
nothing. Binding a name in a scope changes what it means there and in those scopes inside that do
not see a nearer binding. -/
theorem scopes_are_lexical {s : Store} (hs : s.IsGrown) (id : ScopeId) (name : String) (c : Cell)
    (location : Option Location) :
    (∀ read, s.lookup? id name = some read ↔
      ∃ owner, s.plainSlot id name location = .ok ⟨owner, name⟩ ∧
        (s.scope owner).get? name = some read) ∧
    (∀ owner, s.plainSlot id name location = .ok ⟨owner, name⟩ ↔
      s.Sees name id owner ∧ (s.scope owner).binds name = true) ∧
    (∀ owner, s.plainSlot id name location = .ok ⟨owner, name⟩ →
      ∃ t, Eval.rebind id name c location s = .done () t ∧
        s.Updates t name c fun other =>
          s.plainSlot other name location = .ok ⟨owner, name⟩) ∧
    (∀ fault, s.plainSlot id name location = .error fault →
      Eval.rebind id name c location s = .stop (.fault fault) s) ∧
    (s.HasScope id →
      s.Updates (s.define id name c) name c fun other => s.Sees name other id) ∧
    (Name.splitLast? name = none →
      Eval.assign id name c location = Eval.rebind id name c location) := by
  have hforest := hs.isForest
  simp only [Store.plainSlot_eq_ok_iff]
  refine ⟨fun read => ?_, fun owner => hforest.owner?_eq_some_iff, fun owner howner => ?_,
    fun fault hfault => ?_, fun hid => hforest.updates_define hid name c,
    fun hname => Eval.assign_eq_rebind hname id c location⟩
  · rw [Store.lookup?_eq_bind_owner?, Option.bind_eq_some_iff]
  · exact ⟨_, Store.rebind_of_owner? howner c location, hforest.updates_owner howner c⟩
  · cases howner : s.owner? id name with
    | none =>
      rw [Store.plainSlot_of_owner?_eq_none howner] at hfault
      cases hfault
      exact Store.rebind_of_owner?_eq_none howner c location
    | some owner =>
      rw [Store.plainSlot_eq_ok_iff.2 howner] at hfault
      cases hfault

/-- The root binds `x` to the one cell. It has two scopes inside, and a scope inside the first of
these binds `x` to the other cell. -/
def shadowing (one other : Cell) : Store :=
  let outer := (Store.initial.define Store.root "x" one).childScope Store.root
  let inner := outer.2.childScope outer.1
  ((inner.2.define inner.1 "x" other).childScope Store.root).2

theorem isGrown_shadowing (one other : Cell) : (shadowing one other).IsGrown := by
  have hempty : Store.IsGrown { Store.initial with scopes := .empty } := .empty rfl
  have hroot := hempty.new.set Store.root "x" one (show 0 < 1 by decide)
  have houter := hroot.child Store.root (show 0 < 1 by decide)
  have hinner := houter.child ⟨1⟩ (show 1 < 2 by decide)
  have hbound := hinner.set ⟨2⟩ "x" other (show 2 < 3 by decide)
  exact hbound.child Store.root (show 0 < 3 by decide)

/-- An assignment from one of the two scopes is seen in the other one and not in the scope with a
binding of its own. -/
theorem scopes_are_lexical_shadowed :
    let one : Cell := ⟨⟨100⟩, none, .integer 1⟩
    let two : Cell := ⟨⟨101⟩, none, .integer 2⟩
    let five : Cell := ⟨⟨102⟩, none, .integer 5⟩
    (shadowing one two).IsGrown ∧
    ∃ t, Eval.rebind ⟨1⟩ "x" five none (shadowing one two) = .done () t ∧
      t.lookup? ⟨3⟩ "x" = some five ∧ t.lookup? ⟨2⟩ "x" = some two := by
  intro one two five
  have hgrown := isGrown_shadowing one two
  obtain ⟨t, hdone, hupdates⟩ :=
    (scopes_are_lexical hgrown ⟨1⟩ "x" five none).2.2.1 Store.root rfl
  have hsibling : (shadowing one two).plainSlot ⟨3⟩ "x" none = .ok ⟨Store.root, "x"⟩ := rfl
  have hinner : (shadowing one two).plainSlot ⟨2⟩ "x" none ≠ .ok ⟨Store.root, "x"⟩ := by decide
  refine ⟨hgrown, t, hdone, hupdates.inside ⟨3⟩ hsibling, ?_⟩
  rw [hupdates.outside ⟨2⟩ "x" fun h => hinner h.2]
  rfl

end BracketScript
