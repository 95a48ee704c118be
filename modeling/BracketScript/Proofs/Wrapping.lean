import Mathlib.Algebra.BigOperators.Group.List.Basic
import Mathlib.Data.Int.ModEq
import BracketScript.Proofs.Operands

/-!
# Arithmetic on integers

The operators on integers fold their operands from the left and wrap around after each step. Sums,
products and differences are exact up to multiples of `2 ^ 64` all the same, since each step is, and
so the order of the operands of a sum or product does not matter. Remainders never leave the 64
bits.

The statements are about calls in the evaluator, by what `Keyword.Returns` says of them.
-/

namespace BracketScript

/-! ### Integers as operands -/

theorem Form.numbers_of_integers (call : Call) {operands cells : List Cell} {ns : List Int64}
    (hlength : cells.length = operands.length)
    (hcells : cells.map Cell.value = ns.map Value.integer) :
    Form.numbers call operands cells = pure (ns.map Number.integer) := by
  induction operands generalizing cells ns with
  | nil =>
    obtain rfl := List.length_eq_zero_iff.1 hlength
    obtain rfl : ns = [] := by simpa using hcells.symm
    rfl
  | cons operand operands ih =>
    obtain ⟨cell, cells, rfl⟩ := List.exists_cons_of_length_eq_add_one hlength
    obtain ⟨n, ns, rfl⟩ : ∃ n rest, ns = n :: rest := by
      cases ns with
      | nil => simp at hcells
      | cons n rest => exact ⟨n, rest, rfl⟩
    obtain ⟨hcell, hrest⟩ := List.cons.inj hcells
    rw [Form.numbers, hcell]
    simp only [Number.ofValue?, ih (Nat.succ.inj hlength) hrest, pure_bind, List.map_cons]

theorem Number.integers?_map (ns : List Int64) :
    Number.integers? (ns.map .integer) = some ns := by
  induction ns with
  | nil => rfl
  | cons n ns ih => simp [integers?, integer?, ih]

theorem ArithmeticOp.apply_integers {op : ArithmeticOp} (hop : op ≠ .divide) (first : Int64)
    (others : List Int64) :
    op.apply (.integer first) (others.map .integer) =
      .integer (others.foldl op.onIntegers first) := by
  have hall : Number.integers? (.integer first :: others.map .integer) = some (first :: others) :=
    Number.integers?_map (first :: others)
  unfold apply
  rw [hall]
  cases op with
  | divide => exact absurd rfl hop
  | add | subtract | multiply | modulo => rfl

/-- The form of an operator folds two or more integers from the left. -/
theorem Form.ends_arithmetic {op : ArithmeticOp} (hop : op ≠ .divide) {ev : Evaluator} {call : Call}
    {scope : ScopeId} {s t : Store} {moments : List Moment} {cells : List Cell} {first : Int64}
    {others : List Int64} (hothers : others ≠ [])
    (h : (ev.evalAll scope call.operands s).Ends moments (.ok cells) t)
    (hcells : cells.map Cell.value = (first :: others).map Value.integer) :
    (Form.arithmetic op ev call scope s).Ends moments
      (.ok (t.newCell (.integer (others.foldl op.onIntegers first)) none #[]).1)
      (t.newCell (.integer (others.foldl op.onIntegers first)) none #[]).2 := by
  have hlength := Evaluator.length_of_evalAll h
  have htwo : 2 ≤ call.operands.length := by
    have hvalues := congrArg List.length hcells
    have hpos := List.length_pos_iff.2 hothers
    simp only [List.length_map, List.length_cons] at hvalues
    omega
  obtain ⟨name, site, operands⟩ := call
  match operands, htwo with
  | c :: d :: rest, _ =>
    rw [← List.append_nil moments]
    refine Run.Ends.bind (t := t) (a := (.integer first, others.map .integer)) ?_ ?_
    · rw [← List.append_nil moments]
      refine h.bind ?_
      rw [numbers_of_integers _ hlength hcells]
      exact .done _ _
    · rw [← ArithmeticOp.apply_integers hop]
      exact .done _ _

/-! ### Wrapping around -/

/-- The integer of 64 bits that stands for a whole number once its higher bits are dropped. -/
structure IsRepresentative (value : Int64) (n : Int) : Prop where
  least_le : -2 ^ 63 ≤ value.toInt
  lt_bound : value.toInt < 2 ^ 63
  modEq : value.toInt ≡ n [ZMOD 2 ^ 64]

namespace IsRepresentative

theorem of_modEq {value : Int64} {n : Int} (h : value.toInt ≡ n [ZMOD 2 ^ 64]) :
    IsRepresentative value n :=
  ⟨value.le_toInt, value.toInt_lt, h⟩

theorem unique {value other : Int64} {n : Int} (h : IsRepresentative value n)
    (h' : IsRepresentative other n) : value = other := by
  have hmod : value.toInt % 2 ^ 64 = other.toInt % 2 ^ 64 := h.modEq.trans h'.modEq.symm
  have hleast := h.least_le
  have hbound := h.lt_bound
  have hleast' := h'.least_le
  have hbound' := h'.lt_bound
  exact Int64.toInt_inj.1 (by omega)

theorem refl (value : Int64) : IsRepresentative value value.toInt :=
  .of_modEq (Int.ModEq.refl value.toInt)

variable {f : Int64 → Int64 → Int64} {g : Int → Int → Int}
  (hwraps : ∀ a b : Int64, (f a b).toInt = (g a.toInt b.toInt).bmod (2 ^ 64))
  (hcongr : ∀ {x y : Int} (z : Int), x ≡ y [ZMOD 2 ^ 64] → g x z ≡ g y z [ZMOD 2 ^ 64])

include hwraps hcongr

/-- A step that wraps around stays exact up to multiples of `2 ^ 64`. -/
theorem step {value : Int64} {x : Int} (h : IsRepresentative value x) (n : Int64) :
    IsRepresentative (f value n) (g x n.toInt) := by
  have hwrapped : (f value n).toInt ≡ g value.toInt n.toInt [ZMOD 2 ^ 64] := by
    rw [hwraps]
    exact Int.bmod_emod
  exact .of_modEq (hwrapped.trans (hcongr n.toInt h.modEq))

theorem foldl (ns : List Int64) {value : Int64} {x : Int} (h : IsRepresentative value x) :
    IsRepresentative (ns.foldl f value) ((ns.map Int64.toInt).foldl g x) := by
  induction ns generalizing value x with
  | nil => exact h
  | cons n ns ih => exact ih (h.step hwraps hcongr n)

end IsRepresentative

namespace ArithmeticOp

variable (first : Int64) (others : List Int64)

theorem isRepresentative_add :
    IsRepresentative (others.foldl (onIntegers .add) first)
      ((first :: others).map Int64.toInt).sum := by
  have hexact (x : Int) (ns : List Int) : ns.foldl (· + ·) x = (x :: ns).sum := by
    rw [List.sum_eq_foldl, List.foldl_cons, zero_add]
  have hfold := (IsRepresentative.refl first).foldl Int64.toInt_add
    (fun z h => h.add_right z) others
  rw [hexact] at hfold
  exact hfold

theorem isRepresentative_multiply :
    IsRepresentative (others.foldl (onIntegers .multiply) first)
      ((first :: others).map Int64.toInt).prod := by
  have hexact (x : Int) (ns : List Int) : ns.foldl (· * ·) x = (x :: ns).prod := by
    rw [List.prod_eq_foldl, List.foldl_cons, one_mul]
  have hfold := (IsRepresentative.refl first).foldl Int64.toInt_mul
    (fun z h => h.mul_right z) others
  rw [hexact] at hfold
  exact hfold

theorem isRepresentative_subtract :
    IsRepresentative (others.foldl (onIntegers .subtract) first)
      (first.toInt - (others.map Int64.toInt).sum) := by
  have hexact (x : Int) (ns : List Int) : ns.foldl (· - ·) x = x - ns.sum := by
    induction ns generalizing x with
    | nil => simp
    | cons n ns ih => rw [List.foldl_cons, ih, List.sum_cons, sub_sub]
  have hfold := (IsRepresentative.refl first).foldl Int64.toInt_sub
    (fun z h => h.sub_right z) others
  rw [hexact] at hfold
  exact hfold

end ArithmeticOp

/-- What is left of a division that drops the digits behind the point; a division by zero leaves
zero. -/
def truncatedRemainder (x y : Int) : Int :=
  if y = 0 then 0 else x - y * x.tdiv y

theorem ArithmeticOp.toInt_modulo (a b : Int64) :
    (onIntegers .modulo a b).toInt = truncatedRemainder a.toInt b.toInt := by
  have hzero : b = 0 ↔ b.toInt = 0 := by rw [← Int64.toInt_inj, Int64.toInt_zero]
  rw [onIntegers, truncatedRemainder]
  by_cases hb : b = 0
  · rw [if_pos hb, if_pos (hzero.1 hb), Int64.toInt_zero]
  · rw [if_neg hb, if_neg (mt hzero.2 hb), Int64.toInt_mod, Int.tmod_def]

theorem ArithmeticOp.toInt_foldl_modulo (first : Int64) (others : List Int64) :
    (others.foldl (onIntegers .modulo) first).toInt =
      (others.map Int64.toInt).foldl truncatedRemainder first.toInt := by
  rw [List.foldl_map]
  exact (List.foldl_hom Int64.toInt fun a b => (toInt_modulo a b).symm).symm

/-! ### Calls of the operators -/

/-- The keyword calls the operator, and the operator keeps integers. -/
structure Keyword.Computes (k : Keyword) (op : ArithmeticOp) : Prop where
  form_eq : k.form = Form.arithmetic op
  ne_divide : op ≠ .divide

theorem Keyword.Computes.returns {k : Keyword} {op : ArithmeticOp} (hk : k.Computes op)
    (first : Int64) {others : List Int64} (hothers : others ≠ []) :
    k.Returns ((first :: others).map .integer)
      (.integer (others.foldl op.onIntegers first)) := by
  refine returns_of_form fun ev call scope s moments cells t h hcells => ?_
  rw [hk.form_eq]
  exact Form.ends_arithmetic hk.ne_divide hothers h hcells

/-- An operator that stands for a whole number no order matters to does not mind the order of its
operands either. -/
theorem Keyword.Computes.exists_returns_of_perm {k : Keyword} {op : ArithmeticOp}
    (hk : k.Computes op) {whole : List Int → Int}
    (hperm : ∀ {xs ys : List Int}, xs.Perm ys → whole xs = whole ys)
    (hwhole : ∀ (first : Int64) (others : List Int64),
      IsRepresentative (others.foldl op.onIntegers first)
        (whole ((first :: others).map Int64.toInt)))
    (first : Int64) {others : List Int64} (hothers : others ≠ []) :
    ∃ total, IsRepresentative total (whole ((first :: others).map Int64.toInt)) ∧
      ∀ operands : List Int64, operands.Perm (first :: others) →
        k.Returns (operands.map .integer) (.integer total) := by
  refine ⟨_, hwhole first others, fun operands hoperands => ?_⟩
  have hpos := List.length_pos_iff.2 hothers
  have hlength := hoperands.length_eq
  match operands with
  | [] => simp at hlength
  | [_] =>
    simp only [List.length_cons, List.length_nil] at hlength
    omega
  | a :: b :: rest =>
    have hsame := hwhole a (b :: rest)
    rw [hperm (hoperands.map Int64.toInt)] at hsame
    rw [(hwhole first others).unique hsame]
    exact hk.returns a (List.cons_ne_nil b rest)

/-- Two or more integers have a sum, a product and a difference that are exact up to multiples of
`2 ^ 64`, the first two in any order, and a remainder that is exact. No call of the four fails. -/
theorem integer_arithmetic_exact (first : Int64) (others : List Int64) (hothers : others ≠ []) :
    (∃ total, IsRepresentative total ((first :: others).map Int64.toInt).sum ∧
      ∀ operands : List Int64, operands.Perm (first :: others) →
        Keyword.add.Returns (operands.map .integer) (.integer total)) ∧
    (∃ product, IsRepresentative product ((first :: others).map Int64.toInt).prod ∧
      ∀ operands : List Int64, operands.Perm (first :: others) →
        Keyword.multiply.Returns (operands.map .integer) (.integer product)) ∧
    (∃ difference,
      IsRepresentative difference (first.toInt - (others.map Int64.toInt).sum) ∧
      Keyword.subtract.Returns ((first :: others).map .integer) (.integer difference)) ∧
    ∃ remainder : Int64,
      remainder.toInt = (others.map Int64.toInt).foldl truncatedRemainder first.toInt ∧
      Keyword.modulo.Returns ((first :: others).map .integer) (.integer remainder) := by
  have hadd : Keyword.add.Computes .add := ⟨rfl, by decide⟩
  have hmultiply : Keyword.multiply.Computes .multiply := ⟨rfl, by decide⟩
  have hsubtract : Keyword.subtract.Computes .subtract := ⟨rfl, by decide⟩
  have hmodulo : Keyword.modulo.Computes .modulo := ⟨rfl, by decide⟩
  refine ⟨?_, ?_, ?_, ?_⟩
  · exact hadd.exists_returns_of_perm List.Perm.sum_eq ArithmeticOp.isRepresentative_add first
      hothers
  · exact hmultiply.exists_returns_of_perm List.Perm.prod_eq ArithmeticOp.isRepresentative_multiply
      first hothers
  · exact ⟨_, ArithmeticOp.isRepresentative_subtract first others, hsubtract.returns first hothers⟩
  · exact ⟨_, ArithmeticOp.toInt_foldl_modulo first others, hmodulo.returns first hothers⟩

/-- The least integer leaves nothing when it is divided by minus one, though the quotient is not
among the integers, and their sum is the greatest integer. -/
theorem integer_arithmetic_exact_least :
    [(-1 : Int64)] ≠ [] ∧
    (∃ c t, (eval ⟨[], [], fun _ => none⟩ 2
        (Keyword.modulo.calling [.integer Int64.minValue, .integer (-1)]).1 Store.root
        (Keyword.modulo.calling [.integer Int64.minValue, .integer (-1)]).2).Ends [] (.ok c) t ∧
      c.value = .integer 0) ∧
    ∃ c t, (eval ⟨[], [], fun _ => none⟩ 2
        (Keyword.add.calling [.integer Int64.minValue, .integer (-1)]).1 Store.root
        (Keyword.add.calling [.integer Int64.minValue, .integer (-1)]).2).Ends [] (.ok c) t ∧
      c.value = .integer Int64.maxValue := by
  obtain ⟨⟨total, htotal, hadd⟩, -, -, remainder, hremainder, hmodulo⟩ :=
    integer_arithmetic_exact Int64.minValue [-1] (by decide)
  have hgreatest : IsRepresentative Int64.maxValue
      ([Int64.minValue, -1].map Int64.toInt).sum := .of_modEq (by decide)
  obtain rfl := htotal.unique hgreatest
  obtain rfl : remainder = 0 := Int64.toInt_inj.1 (hremainder.trans (by decide))
  have hvalues : ∀ value ∈ [Int64.minValue, -1].map Value.integer, value.IsLiteral :=
    List.forall_mem_map.2 fun n _ => Value.isLiteral_integer n
  exact ⟨by decide, hmodulo.exists_ends hvalues, (hadd _ (.refl _)).exists_ends hvalues⟩

end BracketScript
