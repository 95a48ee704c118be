import BracketScript.Arena
import BracketScript.Cell
import Mathlib.Logic.Relation

/-!
# Containment

Which cells have which others among their items, as a relation between positions in the rows of
items. A cell that contains nothing which contains it can be made, and a row can be replaced by one
whose items do not lead back to it: both keep the relation acyclic.
-/

namespace BracketScript

open Relation

/-- Changing where `a` leads to keeps a relation acyclic if nothing that `a` leads to then led back
to `a` before. -/
theorem transGen_irrefl_of_redirect {α : Type} {r r' : α → α → Prop} {a : α}
    (hsame : ∀ x y, x ≠ a → r' x y → r x y) (hback : ∀ y, r' a y → ¬ReflTransGen r y a)
    (hr : ∀ x, ¬TransGen r x x) (x : α) : ¬TransGen r' x x := by
  have hold : ∀ y, ReflTransGen r' y a → ReflTransGen r y a := by
    intro y hy
    induction hy using ReflTransGen.head_induction_on with
    | refl => exact .refl
    | @head y z hstep _ ih =>
      by_cases hya : y = a
      · rw [hya]
      · exact .head (hsame y z hya hstep) ih
  -- a path either never leaves `a` or leaves it somewhere
  have hcases : ∀ y, TransGen r' x y →
      TransGen r x y ∨ ∃ z, ReflTransGen r' x a ∧ r' a z ∧ ReflTransGen r' z y := by
    intro y hy
    induction hy with
    | @single y hstep =>
      by_cases hxa : x = a
      · subst hxa
        exact .inr ⟨y, .refl, hstep, .refl⟩
      · exact .inl (.single (hsame x y hxa hstep))
    | @tail y z hpath hstep ih =>
      rcases ih with hpath' | ⟨first, hto, hleave, hfrom⟩
      · by_cases hya : y = a
        · subst hya
          exact .inr ⟨z, hpath.to_reflTransGen, hstep, .refl⟩
        · exact .inl (hpath'.tail (hsame y z hya hstep))
      · exact .inr ⟨first, hto, hleave, hfrom.tail hstep⟩
  intro hx
  rcases hcases x hx with hpath | ⟨first, hto, hleave, hfrom⟩
  · exact hr x hpath
  · exact hback first hleave (hold first (hfrom.trans hto))

/-- A cell with the second identity is among the items of the first. -/
def HasItem (rows : Arena (Array Cell)) (a b : CellId) : Prop :=
  ∃ c ∈ (rows.get a.index).toList, c.id = b

/-- No cell contains itself, at any depth. -/
def IsAcyclic (rows : Arena (Array Cell)) : Prop :=
  ∀ id, ¬TransGen (HasItem rows) id id

variable {rows : Arena (Array Cell)} {row : Array Cell}

theorem hasItem_push {a b : CellId} :
    HasItem (rows.push row) a b ↔
      if a.index = rows.size then ∃ c ∈ row.toList, c.id = b else HasItem rows a b := by
  rw [HasItem, Arena.get_push]
  split <;> rfl

/-- Nothing leads to a cell that is not there yet. -/
theorem not_reflTransGen_of_size_le (hrows : ∀ a b, HasItem rows a b → b.index < rows.size)
    {a b : CellId} (ha : a.index < rows.size) (hb : rows.size ≤ b.index) :
    ¬ReflTransGen (HasItem rows) a b := by
  intro hpath
  rcases hpath.cases_tail with rfl | ⟨_, _, hstep⟩
  · exact absurd ha (Nat.not_lt.2 hb)
  · exact absurd (hrows _ _ hstep) (Nat.not_lt.2 hb)

/-- A cell that is not there yet leads nowhere. -/
theorem not_reflTransGen_of_lt {a b : CellId} (ha : rows.size ≤ a.index)
    (hb : b.index < rows.size) : ¬ReflTransGen (HasItem rows) a b := by
  intro hpath
  rcases hpath.cases_head with rfl | ⟨_, ⟨c, hc, _⟩, _⟩
  · exact absurd hb (Nat.not_lt.2 ha)
  · rw [rows.get_of_size_le ha] at hc
    exact absurd hc List.not_mem_nil

theorem IsAcyclic.push (h : IsAcyclic rows) (hrows : ∀ a b, HasItem rows a b → b.index < rows.size)
    (hrow : ∀ c ∈ row.toList, c.id.index < rows.size) : IsAcyclic (rows.push row) := by
  refine transGen_irrefl_of_redirect (a := ⟨rows.size⟩) (fun x y hx hxy => ?_) (fun y hy => ?_) h
  · have hx' : x.index ≠ rows.size := fun heq => hx (congrArg CellId.mk heq)
    rwa [hasItem_push, if_neg hx'] at hxy
  · rw [hasItem_push, if_pos rfl] at hy
    obtain ⟨c, hc, rfl⟩ := hy
    exact not_reflTransGen_of_size_le hrows (hrow c hc) (Nat.le_refl _)

/-- What is among the items of a cell never contains that cell. -/
theorem IsAcyclic.not_reflTransGen (h : IsAcyclic rows) {a b : CellId} (hab : HasItem rows a b) :
    ¬ReflTransGen (HasItem rows) b a :=
  fun hpath => h a (.head' hab hpath)

theorem IsAcyclic.modify (h : IsAcyclic rows) {id : CellId}
    (hrow : ∀ c ∈ row.toList, ¬ReflTransGen (HasItem rows) c.id id) :
    IsAcyclic (rows.modify id.index fun _ => row) := by
  refine transGen_irrefl_of_redirect (a := id) (fun x y hx hxy => ?_) (fun y hy => ?_) h
  · have hx' : ¬(id.index = x.index ∧ x.index < rows.size) :=
      fun heq => hx (congrArg CellId.mk heq.1.symm)
    rwa [HasItem, Arena.get_modify, if_neg hx'] at hxy
  · obtain ⟨c, hc, rfl⟩ := hy
    rw [Arena.get_modify] at hc
    split at hc
    · exact hrow c hc
    · exact h.not_reflTransGen ⟨c, hc, rfl⟩

/-- A new cell without items changes nothing about containment. -/
theorem hasItem_push_empty : HasItem (rows.push #[]) = HasItem rows := by
  funext a b
  rw [eq_iff_iff, hasItem_push]
  split
  · next ha =>
    have hrow : rows.get a.index = #[] := rows.get_of_size_le (Nat.le_of_eq ha.symm)
    simp [HasItem, hrow]
  · rfl

end BracketScript
