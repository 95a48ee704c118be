import BracketScript.Rendering
import Mathlib.Data.List.Perm.Subperm
import Mathlib.Data.List.Range
import Mathlib.Logic.Relation

/-!
# How deep a value goes

The walks into a value follow the items of lists and the bodies of lambdas, and each takes a bound
on its steps. `Fits n c` says that every path from `c` has fewer than `n` steps, and then a larger
bound than `n` makes no difference. Where no path returns to a cell, the paths cannot be longer than
there are cells, so that the depth of the store is a bound which is never met. Where one can go on
for ever from an item to another one, the printed text grows with the bound.
-/

namespace BracketScript.Store

/-- The second cell is an item of the first or its body. -/
inductive Child (s : Store) : Cell → Cell → Prop
  | item {c d : Cell} : c.value = .list → d ∈ s.items c.id → Child s c d
  | body {c d : Cell} {parameters : List String} {scope : ScopeId} :
      c.value = .lambda parameters d scope → Child s c d

/-- Every path from the cell has fewer than `n` steps. -/
def Fits (s : Store) : (n : Nat) → Cell → Prop
  | 0, _ => False
  | n + 1, c => ∀ d, s.Child c d → s.Fits n d

variable {s : Store}

theorem Fits.mono {n m : Nat} (h : n ≤ m) {c : Cell} (hc : s.Fits n c) : s.Fits m c := by
  induction n generalizing m c with
  | zero => exact hc.elim
  | succ n ih =>
    obtain ⟨m, rfl⟩ := Nat.exists_eq_add_of_le' (Nat.le_trans (Nat.le_add_left 1 n) h)
    exact fun d hd => ih (Nat.le_of_succ_le_succ h) (hc d hd)

/-- A larger bound than the depth of a cell makes no difference to what the cell reaches. -/
theorem reachesWithin_of_fits {n m : Nat} (h : n ≤ m) {c : Cell} (hc : s.Fits n c)
    (target : Cell) : s.reachesWithin target m c = s.reachesWithin target n c := by
  induction n generalizing m c with
  | zero => exact hc.elim
  | succ n ih =>
    obtain ⟨m, rfl⟩ := Nat.exists_eq_add_of_le' (Nat.le_trans (Nat.le_add_left 1 n) h)
    rw [reachesWithin_succ, reachesWithin_succ]
    by_cases hlist : c.value = .list
    · have hitems : ∀ d ∈ s.items c.id, s.reachesWithin target m d = s.reachesWithin target n d :=
        fun d hd => ih (Nat.le_of_succ_le_succ h) (hc d (.item hlist hd))
      have hany : ((s.items c.id).any fun d => s.reachesWithin target m d) =
          (s.items c.id).any fun d => s.reachesWithin target n d := by
        rw [Bool.eq_iff_iff, List.any_eq_true, List.any_eq_true]
        exact exists_congr fun d => and_congr_right fun hd => by rw [hitems d hd]
      rw [hany]
    · have hvalue : c.value.isList = false := by
        cases hvalue : c.value <;> simp_all [Value.isList]
      simp [hvalue]

/-- A larger bound than the depth of a cell makes no difference to its source text. -/
theorem quoteWithin_of_fits {n m : Nat} (h : n ≤ m) {c : Cell} (hc : s.Fits n c) :
    s.quoteWithin m c = s.quoteWithin n c := by
  induction n generalizing m c with
  | zero => exact hc.elim
  | succ n ih =>
    obtain ⟨m, rfl⟩ := Nat.exists_eq_add_of_le' (Nat.le_trans (Nat.le_add_left 1 n) h)
    rw [quoteWithin, quoteWithin]
    cases hvalue : c.value with
    | list =>
      have hitems : ∀ d ∈ s.items c.id, s.quoteWithin m d = s.quoteWithin n d :=
        fun d hd => ih (Nat.le_of_succ_le_succ h) (hc d (.item hvalue hd))
      simp only [List.map_congr_left hitems]
    | lambda parameters body scope =>
      simp only [ih (Nat.le_of_succ_le_succ h) (hc body (.body hvalue))]
    | _ => rfl

/-! ### Printed texts -/

/-- From the cell one can go `n` times to an item. -/
def GoesDeep (s : Store) : (n : Nat) → Cell → Prop
  | 0, _ => True
  | n + 1, c => c.value = .list ∧ ∃ d ∈ s.items c.id, s.GoesDeep n d

theorem not_goesDeep_of_fits {n : Nat} {c : Cell} (h : s.Fits n c) : ¬s.GoesDeep n c := by
  induction n generalizing c with
  | zero => exact h.elim
  | succ n ih =>
    rintro ⟨hlist, d, hd, hdeep⟩
    exact ih (h d (.item hlist hd)) hdeep

theorem length_le_intercalate {α : Type} {separator row : List α} {rows : List (List α)}
    (h : row ∈ rows) : row.length ≤ (separator.intercalate rows).length := by
  induction rows with
  | nil => exact absurd h List.not_mem_nil
  | cons first rows ih =>
    cases rows with
    | nil =>
      rw [List.mem_singleton.1 h]
      simp [List.intercalate]
    | cons next rows =>
      rw [List.intercalate_cons_cons, List.length_append, List.length_append]
      rcases List.mem_cons.1 h with rfl | h
      · omega
      · have := ih h
        omega

theorem length_lt_bracketed {separator text : String} {texts : List String} (h : text ∈ texts) :
    text.length < (bracketed separator texts).length := by
  have hle : text.toList.length ≤ (separator.intercalate texts).toList.length := by
    rw [String.toList_intercalate]
    exact length_le_intercalate (List.mem_map_of_mem h)
  rw [String.length_toList, String.length_toList] at hle
  have hopen : "[".length = 1 := by decide
  simp only [bracketed, String.length_append]
  omega

theorem exists_mem_of_mapM_ok {α β ε : Type} {f : α → Except ε β} {as : List α} {bs : List β}
    (h : as.mapM f = .ok bs) {a : α} (ha : a ∈ as) : ∃ b ∈ bs, f a = .ok b := by
  induction as generalizing bs with
  | nil => exact absurd ha List.not_mem_nil
  | cons first as ih =>
    rw [List.mapM_cons] at h
    cases hfirst : f first with
    | error e =>
      rw [hfirst] at h
      cases h
    | ok b =>
      rw [hfirst] at h
      cases hrest : as.mapM f with
      | error e =>
        rw [hrest] at h
        cases h
      | ok others =>
        rw [hrest] at h
        cases h
        rcases List.mem_cons.1 ha with rfl | ha
        · exact ⟨b, List.mem_cons_self, hfirst⟩
        · obtain ⟨b', hb', hf⟩ := ih hrest ha
          exact ⟨b', List.mem_cons_of_mem b hb', hf⟩

/-- The deeper one can go, the longer is the text. -/
theorem GoesDeep.le_length {id : ScopeId} {n : Nat} {c : Cell} {text : String}
    (h : s.GoesDeep n c) (htext : s.stringifyWithin id n c = .ok text) : n ≤ text.length := by
  induction n generalizing c text with
  | zero => exact Nat.zero_le _
  | succ n ih =>
    obtain ⟨hlist, d, hd, hdeep⟩ := h
    rw [stringifyWithin, hlist] at htext
    cases htexts : (s.items c.id).mapM fun item => s.stringifyWithin id n item with
    | error fault =>
      rw [htexts] at htext
      cases htext
    | ok texts =>
      rw [htexts] at htext
      cases htext
      obtain ⟨inner, hinner, htext⟩ := exists_mem_of_mapM_ok htexts hd
      exact Nat.lt_of_le_of_lt (ih hdeep htext) (length_lt_bracketed hinner)

/-! ### Paths without return -/

theorem isChain_of_not_fits {n : Nat} {c : Cell} (h : ¬s.Fits n c) :
    ∃ cells : List Cell, cells.length = n ∧ (c :: cells).IsChain s.Child := by
  induction n generalizing c with
  | zero => exact ⟨[], rfl, .singleton c⟩
  | succ n ih =>
    simp only [Fits, not_forall] at h
    obtain ⟨d, hchild, hd⟩ := h
    obtain ⟨cells, hlength, hchain⟩ := ih hd
    exact ⟨d :: cells, by simp [hlength], List.isChain_cons_cons.2 ⟨hchild, hchain⟩⟩

theorem transGen_closed {P : Cell → Prop} (hchild : ∀ c d, P c → s.Child c d → P d) {c d : Cell}
    (hc : P c) (h : Relation.TransGen s.Child c d) : P d := by
  induction h with
  | single hstep => exact hchild _ _ hc hstep
  | tail _ hstep ih => exact hchild _ _ ih hstep

/-- Cells whose paths stay among them and return to none of them fit into their number. -/
theorem fits_of_irrefl {P : Cell → Prop} {n : Nat}
    (hchild : ∀ c d, P c → s.Child c d → P d) (hlt : ∀ c, P c → c.id.index < n)
    (hirrefl : ∀ c d, P c → Relation.TransGen s.Child c d → c.id ≠ d.id) {c : Cell} (hc : P c) :
    s.Fits n c := by
  by_contra hfits
  obtain ⟨cells, hlength, hchain⟩ := isChain_of_not_fits hfits
  have hpaths : (c :: cells).Pairwise (Relation.TransGen s.Child) :=
    (hchain.imp fun _ _ => .single).pairwise
  have hall : ∀ d ∈ c :: cells, P d := by
    intro d hd
    rcases List.mem_cons.1 hd with rfl | hd
    · exact hc
    · exact transGen_closed hchild hc ((List.pairwise_cons.1 hpaths).1 d hd)
  have hnodup : ((c :: cells).map fun d => d.id.index).Nodup := by
    rw [List.nodup_iff_pairwise_ne, List.pairwise_map]
    refine hpaths.imp_of_mem fun {d e} hd _ hpath heq => hirrefl d e (hall d hd) hpath ?_
    exact congrArg CellId.mk heq
  have hle : ((c :: cells).map fun d => d.id.index).length ≤ (List.range n).length := by
    refine (hnodup.subperm fun i hi => ?_).length_le
    obtain ⟨d, hd, rfl⟩ := List.mem_map.1 hi
    exact List.mem_range.2 (hlt d (hall d hd))
  rw [List.length_map, List.length_range, List.length_cons, hlength] at hle
  exact Nat.not_succ_le_self n hle

end BracketScript.Store
