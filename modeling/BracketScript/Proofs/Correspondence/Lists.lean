import BracketScript.Proofs.Correspondence.Forms

/-!
# Forms on lists

The forms that write to a list look through the new items before they do. What the check of the
items has found is carried along, so that it is there for the store that is written to.
-/

namespace BracketScript.Correspondence

theorem forall₂_set {R : Cell → Cell → Prop} {cells cells' : List Cell}
    (h : List.Forall₂ R cells cells') (i : Nat) {item item' : Cell} (hitem : R item item') :
    List.Forall₂ R (cells.set i item) (cells'.set i item') := by
  induction h generalizing i with
  | nil => exact .nil
  | cons hcd hcells ih =>
    cases i with
    | zero => exact .cons hitem hcells
    | succ i => exact .cons hcd (ih i)

namespace Lawful

variable {A : Correspondence} {w : A.World} (hA : A.Lawful) {ev : Evaluator} {call call' : Call}
  {scope : ScopeId} {c d : Cell} {s t : Store} {α β : Type}

include hA

theorem expectList (hcall : A.Calls w call call') {operand operand' : Cell}
    (hoperand : A.codes w operand operand') (hc : A.values w c d) :
    A.Evals w (fun _ _ _ => c.value = .list) (Form.expectList call operand c)
      (Form.expectList call' operand' d) := by
  have hdata := hA.values_value hc
  rw [Form.expectList, Form.expectList, hcall.name_eq, hdata.kind_eq, ← hdata.isList_eq]
  split
  · next hlist => exact .pure fun _ _ => isList_iff.1 hlist
  · exact hA.failAt hcall hoperand _

theorem indexOf (hcall : A.Calls w call call') {operand operand' : Cell}
    (hoperand : A.codes w operand operand') (hc : A.values w c d) :
    A.Evals w (fun _ => Eq) (Form.indexOf call operand c) (Form.indexOf call' operand' d) := by
  rw [Form.indexOf, Form.indexOf, hcall.name_eq, (hA.values_value hc).integer?_eq]
  cases d.value.integer? with
  | none => exact hA.failAt hcall hoperand _
  | some index =>
    simp only
    split
    · exact .pure fun _ _ => rfl
    · exact hA.failAt hcall hoperand _

/-! ### Reading -/

theorem itemOrNil {found found' : Option Cell} (h : Option.Rel (A.values w) found found') :
    A.Evals w A.values (Form.itemOrNil found) (Form.itemOrNil found') := by
  cases h with
  | none => exact hA.newNil
  | some hvalue => exact hA.pureValue hvalue

theorem onlyList (hev : A.Evaluates ev) (hcall : A.Calls w call call')
    (hscope : A.isOpen w scope) :
    A.Evals w (fun w c d => A.values w c d ∧ c.value = .list) (Form.onlyList ev call scope)
      (Form.onlyList ev call' scope) := by
  obtain ⟨name, site, operands⟩ := call
  obtain ⟨name', site', operands'⟩ := call'
  rcases hcall.operands with _ | ⟨hoperand, _ | _⟩
  · exact hA.failArity hcall _
  · refine (hev.eval hoperand hscope).bind fun w₁ hle target target' htarget => ?_
    refine (hA.expectList (hA.calls_mono hle hcall) (hA.codes_mono hle hoperand) htarget).bind
      fun w₂ hle' _ _ hlist => ?_
    exact .pure fun w₃ hle'' => ⟨hA.values_mono (hle'.trans hle'') htarget, hlist⟩
  · exact hA.failArity hcall _

theorem front : A.Forms Form.front := by
  intro ev hev w call call' scope hcall hscope
  refine (hA.onlyList hev hcall hscope).bind fun w₁ _ target target' htarget => ?_
  refine (Evals.read fun w₂ hle s t hst =>
    hA.item? hst (hA.values_mono hle htarget.1) htarget.2 0).bind fun _ _ found found' hfound => ?_
  exact hA.itemOrNil hfound

theorem back : A.Forms Form.back := by
  intro ev hev w call call' scope hcall hscope
  refine (hA.onlyList hev hcall hscope).bind fun w₁ _ target target' htarget => ?_
  have hread : A.Evals w₁ (fun w => Option.Rel (A.values w))
      (Eval.read fun s => (s.row target.id).back?)
      (Eval.read fun s => (s.row target'.id).back?) := by
    refine .read fun w₂ hle s t hst => ?_
    have hvalue := hA.values_mono hle htarget.1
    rw [Array.back?, Array.back?, hA.size_eq hst hvalue htarget.2]
    exact hA.item? hst hvalue htarget.2 _
  exact hread.bind fun _ _ found found' hfound => hA.itemOrNil hfound

theorem elementAt : A.Forms Form.elementAt := by
  rintro ev hev w ⟨name, site, operands⟩ ⟨name', site', operands'⟩ scope hcall hscope
  rcases hcall.operands with _ | ⟨hposition, _ | ⟨hoperand, _ | _⟩⟩
  · exact hA.failArity hcall _
  · exact hA.failArity hcall _
  · refine (hev.eval hposition hscope).bind fun w₁ hle₁ value value' hvalue => ?_
    refine (hA.indexOf (hA.calls_mono hle₁ hcall) (hA.codes_mono hle₁ hposition) hvalue).bind_eq
      fun w₂ hle₂ index => ?_
    have hle := hle₁.trans hle₂
    refine (hev.eval (hA.codes_mono hle hoperand) (hA.isOpen_mono hle hscope)).bind
      fun w₃ hle₃ target target' htarget => ?_
    have hle := hle.trans hle₃
    refine (hA.expectList (hA.calls_mono hle hcall) (hA.codes_mono hle hoperand) htarget).bind
      fun w₄ hle₄ _ _ hlist => ?_
    refine (Evals.read fun w₅ hle₅ s t hst => hA.item? hst
      (hA.values_mono (hle₄.trans hle₅) htarget) hlist index).bind fun _ _ found found' hfound => ?_
    exact hA.itemOrNil hfound
  · exact hA.failArity hcall _

theorem length : A.Forms Form.length := by
  rintro ev hev w ⟨name, site, operands⟩ ⟨name', site', operands'⟩ scope hcall hscope
  rcases hcall.operands with _ | ⟨hoperand, _ | _⟩
  · exact hA.failArity hcall _
  · refine (hev.eval hoperand hscope).bind fun w₁ hle target target' htarget => ?_
    obtain rfl : name = name' := hcall.name_eq
    have hfail := fun cause => hA.failAt (R := A.values) (hA.calls_mono hle hcall)
      (hA.codes_mono hle hoperand) cause
    have hdata := hA.values_value htarget
    generalize hvalue : target.value = v at hdata
    generalize target'.value = v' at hdata
    cases hdata with
    | list =>
      exact (Evals.read fun w₂ hle' s t hst =>
        hA.size_eq hst (hA.values_mono hle' htarget) hvalue).bind_eq fun _ _ _ => hA.newInteger _
    | string text => exact hA.newInteger _
    | _ => exact hfail _
  · exact hA.failArity hcall _

theorem reverse : A.Forms Form.reverse := by
  rintro ev hev w ⟨name, site, operands⟩ ⟨name', site', operands'⟩ scope hcall hscope
  rcases hcall.operands with _ | ⟨hoperand, _ | _⟩
  · exact hA.failArity hcall _
  · refine (hev.eval hoperand hscope).bind fun w₁ hle target target' htarget => ?_
    obtain rfl : name = name' := hcall.name_eq
    have hfail := fun cause => hA.failAt (R := A.values) (hA.calls_mono hle hcall)
      (hA.codes_mono hle hoperand) cause
    have hdata := hA.values_value htarget
    generalize hvalue : target.value = v at hdata
    generalize target'.value = v' at hdata
    cases hdata with
    | list =>
      refine (Evals.read fun w₂ hle' s t hst =>
        hA.valueItems hst (hA.values_mono hle' htarget) hvalue).bind
          fun _ _ items items' hitems => ?_
      exact hA.newItems (List.rel_reverse hitems)
    | string text => exact hA.newString _
    | _ => exact hfail _
  · exact hA.failArity hcall _

/-! ### Writing -/

theorem list : A.Forms Form.list := by
  intro ev hev w call call' scope hcall hscope
  refine (hA.evalAll hev hscope hcall.operands).bind fun w₁ _ values values' hvalues => ?_
  refine (hA.copyAll hvalues).bind fun w₂ _ items items' hitems => ?_
  exact hA.newItems hitems

theorem pop : A.Forms Form.pop := by
  intro ev hev w call call' scope hcall hscope
  refine (hA.onlyList hev hcall hscope).bind fun w₁ _ target target' htarget => ?_
  refine (Evals.modify fun w₂ hle s t hst => ?_).bind fun _ _ _ _ _ => hA.newBool true
  have hvalue := hA.values_mono hle htarget.1
  refine hA.modifyItems hst hvalue htarget.2 ?_ fun item hitem => .inl ?_
  · have hitems := hA.valueItems hst hvalue htarget.2
    rw [Array.toList_pop, Array.toList_pop, List.dropLast_eq_take, List.dropLast_eq_take,
      ← Store.items, ← Store.items, hitems.length_eq]
    exact List.forall₂_take _ hitems
  · rw [Array.toList_pop] at hitem
    exact List.dropLast_subset _ hitem

theorem clear : A.Forms Form.clear := by
  intro ev hev w call call' scope hcall hscope
  refine (hA.onlyList hev hcall hscope).bind fun w₁ _ target target' htarget => ?_
  refine (Evals.modify fun w₂ hle s t hst => ?_).bind fun _ _ _ _ _ => hA.newBool true
  exact hA.modifyItems hst (hA.values_mono hle htarget.1) htarget.2 .nil
    fun item hitem => absurd hitem List.not_mem_nil

/-- What follows the check of new items runs in a store in which they are apart from the list. -/
theorem checkedAll {R : A.World → α → β → Prop} {k : Eval α} {k' : Eval β}
    {values values' : List Cell} (hcall : A.Calls w call call') (hc : A.values w c d)
    (hvalues : List.Forall₂ (A.values w) values values')
    (hk : ∀ w', w ≤ w' → ∀ s t, A.stores w' s t → (∀ item ∈ values, A.apart s item c) →
      A.Runs R w' (k s) (k' t)) :
    A.Evals w R (call.rejectCycles c values >>= fun _ => Eval.lookThrough values >>= fun _ => k)
      (call'.rejectCycles d values' >>= fun _ => Eval.lookThrough values' >>= fun _ => k') := by
  intro w' hle s t hst
  have hc := hA.values_mono hle hc
  have hvalues := hA.forall₂_values_mono hle hvalues
  have hany := any_eq hvalues fun _ _ hitem => hA.reaches_eq hst hc hitem
  simp only [bind, rejectCycles_eq, ← hany]
  cases hreaches : values.any fun item => s.reaches item c with
  | true =>
    rw [hcall.name_eq]
    exact .stop le_rfl hst (.fault (.failure _ (hA.codes_place (hA.codes_mono hle hcall.site))))
  | false =>
    exact hA.lookThrough_runs hst hvalues (hA.apart_of_any hst hc hvalues hreaches)
      fun w'' hle' => hk w'' (hle.trans hle')

theorem checked {R : A.World → α → β → Prop} {k : Eval α} {k' : Eval β} {value value' : Cell}
    (hcall : A.Calls w call call') (hc : A.values w c d) (hvalue : A.values w value value')
    (hk : ∀ w', w ≤ w' → ∀ s t, A.stores w' s t → A.apart s value c → A.Runs R w' (k s) (k' t)) :
    A.Evals w R (call.rejectCycle c value >>= fun _ => Eval.lookThrough [value] >>= fun _ => k)
      (call'.rejectCycle d value' >>= fun _ => Eval.lookThrough [value'] >>= fun _ => k') := by
  -- one item is checked like a list with this item only
  have hall := hA.checkedAll hcall hc (.cons hvalue .nil) fun w' hle s t hst hapart =>
    hk w' hle s t hst (hapart value List.mem_cons_self)
  intro w' hle s t hst
  have hrun := hall w' hle s t hst
  simp only [bind, rejectCycles_eq, List.any_cons, List.any_nil, Bool.or_false] at hrun
  simp only [bind, rejectCycle_eq]
  exact hrun

/-- Adding values to a list, all of which are apart from it. -/
theorem append (hst : A.stores w s t) (hc : A.values w c d) (hlist : c.value = .list)
    {values values' : List Cell} (hvalues : List.Forall₂ (A.values w) values values')
    (hapart : ∀ item ∈ values, A.apart s item c) :
    A.Runs A.values w
      ((Eval.copyAll values >>= fun added => do
        Eval.modify fun s => s.modifyRow c.id fun row => row ++ added
        Eval.newBool true) s)
      ((Eval.copyAll values' >>= fun added => do
        Eval.modify fun s => s.modifyRow d.id fun row => row ++ added
        Eval.newBool true) t) := by
  obtain ⟨w₁, added, added', s₁, t₁, hle₁, hcopy, hcopy', hst₁, hadded, hcopied⟩ :=
    hA.copyAll_done hst hvalues
  simp only [bind, hcopy, hcopy']
  have hc₁ := hA.values_mono hle₁ hc
  obtain ⟨w₂, hle₂, hst₂⟩ : ∃ w₂, w₁ ≤ w₂ ∧ A.stores w₂
      (s₁.modifyRow c.id fun row => row ++ added)
      (t₁.modifyRow d.id fun row => row ++ added') := by
    refine hA.modifyItems hst₁ hc₁ hlist ?_ fun item hitem => ?_
    · rw [Array.toList_appendList, Array.toList_appendList]
      exact List.rel_append (hA.valueItems hst₁ hc₁ hlist) hadded
    · rw [Array.toList_appendList, List.mem_append] at hitem
      exact hitem.imp id ((hcopied c d hc).1 hapart item)
  exact (hA.newBool true w₂ le_rfl _ _ hst₂).of_le (hle₁.trans hle₂)

theorem push : A.Forms Form.push := by
  rintro ev hev w ⟨name, site, operands⟩ ⟨name', site', operands'⟩ scope hcall hscope
  rcases hcall.operands with _ | ⟨hoperand, _ | ⟨hfirst, hothers⟩⟩
  · exact hA.failArity hcall _
  · exact hA.failArity hcall _
  · refine (hev.eval hoperand hscope).bind fun w₁ hle₁ target target' htarget => ?_
    refine (hA.expectList (hA.calls_mono hle₁ hcall) (hA.codes_mono hle₁ hoperand) htarget).bind
      fun w₂ hle₂ _ _ hlist => ?_
    have hle := hle₁.trans hle₂
    refine (hA.evalAll hev (hA.isOpen_mono hle hscope)
      (hA.forall₂_codes_mono hle (.cons hfirst hothers))).bind
      fun w₃ hle₃ values values' hvalues => ?_
    have htarget := hA.values_mono (hle₂.trans hle₃) htarget
    exact hA.checkedAll (hA.calls_mono (hle.trans hle₃) hcall) htarget hvalues
      fun w₄ hle₄ s t hst hapart => hA.append hst (hA.values_mono hle₄ htarget) hlist
        (hA.forall₂_values_mono hle₄ hvalues) hapart

/-- Replacing an item of a list by one that is apart from it. -/
theorem setItem (hst : A.stores w s t) (hc : A.values w c d) (hlist : c.value = .list)
    {item item' : Cell} (hitem : A.values w item item') (hapart : A.apart s item c) (i : Nat) :
    ∃ w', w ≤ w' ∧ A.stores w' (s.modifyRow c.id fun row => row.setIfInBounds i item)
      (t.modifyRow d.id fun row => row.setIfInBounds i item') := by
  refine hA.modifyItems hst hc hlist ?_ fun other hother => ?_
  · rw [Array.toList_setIfInBounds, Array.toList_setIfInBounds]
    exact forall₂_set (hA.valueItems hst hc hlist) i hitem
  · rw [Array.toList_setIfInBounds] at hother
    rcases List.mem_or_eq_of_mem_set hother with hother | rfl
    · exact .inl hother
    · exact .inr hapart

/-- Replacing an item of a list by a copy of a value that is apart from it. -/
theorem replace (hst : A.stores w s t) (hc : A.values w c d) (hlist : c.value = .list)
    {value value' : Cell} (hvalue : A.values w value value') (hapart : A.apart s value c)
    (index : Nat) :
    A.Runs A.values w
      ((Eval.copy value >>= fun item => do
        Eval.modify fun s => s.modifyRow c.id fun row => row.setIfInBounds index item
        Eval.newBool true) s)
      ((Eval.copy value' >>= fun item => do
        Eval.modify fun s => s.modifyRow d.id fun row => row.setIfInBounds index item
        Eval.newBool true) t) := by
  obtain ⟨w₁, item, item', s₁, t₁, hle₁, hcopy, hcopy', hst₁, hitem, hcopied⟩ :=
    hA.copy_done hst hvalue
  simp only [bind, hcopy, hcopy']
  obtain ⟨w₂, hle₂, hst₂⟩ := hA.setItem hst₁ (hA.values_mono hle₁ hc) hlist hitem
    ((hcopied c d hc).1 hapart) index
  exact (hA.newBool true w₂ le_rfl _ _ hst₂).of_le (hle₁.trans hle₂)

theorem setAt : A.Forms Form.setAt := by
  rintro ev hev w ⟨name, site, operands⟩ ⟨name', site', operands'⟩ scope hcall hscope
  rcases hcall.operands with _ | ⟨hposition, _ | ⟨hoperand, _ | ⟨hexpression, _ | _⟩⟩⟩
  · exact hA.failArity hcall _
  · exact hA.failArity hcall _
  · exact hA.failArity hcall _
  · refine (hev.eval hposition hscope).bind fun w₁ hle₁ number number' hnumber => ?_
    refine (hA.indexOf (hA.calls_mono hle₁ hcall) (hA.codes_mono hle₁ hposition) hnumber).bind_eq
      fun w₂ hle₂ index => ?_
    have hle := hle₁.trans hle₂
    refine (hev.eval (hA.codes_mono hle hoperand) (hA.isOpen_mono hle hscope)).bind
      fun w₃ hle₃ target target' htarget => ?_
    have hle := hle.trans hle₃
    refine (hA.expectList (hA.calls_mono hle hcall) (hA.codes_mono hle hoperand) htarget).bind
      fun w₄ hle₄ _ _ hlist => ?_
    have hle := hle.trans hle₄
    refine (hev.eval (hA.codes_mono hle hexpression) (hA.isOpen_mono hle hscope)).bind
      fun w₅ hle₅ value value' hvalue => ?_
    have hcall := hA.calls_mono (hle.trans hle₅) hcall
    have htarget := hA.values_mono (hle₄.trans hle₅) htarget
    refine hA.checked hcall htarget hvalue fun w₆ hle₆ s t hst hapart => ?_
    have htarget := hA.values_mono hle₆ htarget
    change A.Runs A.values w₆ ((if index < (s.row target.id).size then _ else _ : Eval Cell) s)
      ((if index < (t.row target'.id).size then _ else _ : Eval Cell) t)
    simp only [hA.size_eq hst htarget hlist]
    split
    · exact hA.replace hst htarget hlist (hA.values_mono hle₆ hvalue) hapart index
    · exact hA.fail (hA.calls_mono hle₆ hcall) _ w₆ le_rfl s t hst
  · exact hA.failArity hcall _

end Lawful

end BracketScript.Correspondence
