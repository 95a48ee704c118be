import BracketScript.Proofs.Correspondence.Steps

/-!
# Forms

Each form keeps every lawful correspondence, provided the evaluator that it is given does.
-/

namespace BracketScript.Correspondence

variable {A : Correspondence} {w w' : A.World} {α β : Type} {R : A.World → α → β → Prop}

structure Calls (A : Correspondence) (w : A.World) (call call' : Call) : Prop where
  name_eq : call.name = call'.name
  site : A.codes w call.site call'.site
  operands : List.Forall₂ (A.codes w) call.operands call'.operands

/-- The evaluator keeps the correspondence. It provides no packages, and what it knows about files
is what may be found in them. -/
structure Evaluates (A : Correspondence) (ev : Evaluator) : Prop where
  packages_eq : ev.host.packages = []
  entries {path : String} {entry : Entry} : ev.host.known path = some entry → A.entries path entry
  eval {w : A.World} {c d : Cell} {scope : ScopeId} :
    A.codes w c d → A.isOpen w scope → A.Evals w A.values (ev.eval c scope) (ev.eval d scope)

def Forms (A : Correspondence) (form : Form) : Prop :=
  ∀ ⦃ev : Evaluator⦄, A.Evaluates ev → ∀ ⦃w : A.World⦄ ⦃call call' : Call⦄ ⦃scope : ScopeId⦄,
    A.Calls w call call' → A.isOpen w scope →
      A.Evals w A.values (form ev call scope) (form ev call' scope)

namespace Lawful

variable (hA : A.Lawful) {ev : Evaluator} {call call' : Call} {scope : ScopeId} {c d : Cell}

include hA

/-! ### Calls and their faults -/

theorem calls_mono (h : w ≤ w') (hcall : A.Calls w call call') : A.Calls w' call call' where
  name_eq := hcall.name_eq
  site := hA.codes_mono h hcall.site
  operands := hA.forall₂_codes_mono h hcall.operands

theorem fail (hcall : A.Calls w call call') (cause : Fault.Cause) :
    A.Evals w R (call.fail cause) (call'.fail cause) :=
  .fail (.failure cause (hA.codes_place hcall.site))

theorem placeOf (hcall : A.Calls w call call') {c d : Cell} (hc : A.codes w c d) :
    A.places (call.placeOf c) (call'.placeOf d) :=
  hA.places_orElse (hA.codes_place hc) (hA.codes_place hcall.site)

theorem failAt (hcall : A.Calls w call call') {c d : Cell} (hc : A.codes w c d)
    (cause : Fault.Cause) : A.Evals w R (call.failAt c cause) (call'.failAt d cause) :=
  .fail (.failure cause (hA.placeOf hcall hc))

theorem failArity (hcall : A.Calls w call call') (expected : Arity) :
    A.Evals w R (call.failArity expected) (call'.failArity expected) := by
  rw [Call.failArity, Call.failArity, hcall.name_eq, hcall.operands.length_eq]
  exact hA.fail hcall _

/-! ### Operands -/

theorem evalAll (hev : A.Evaluates ev) (hscope : A.isOpen w scope) {cells cells' : List Cell}
    (h : List.Forall₂ (A.codes w) cells cells') :
    A.Evals w (fun w => List.Forall₂ (A.values w)) (ev.evalAll scope cells)
      (ev.evalAll scope cells') := by
  induction cells generalizing w cells' with
  | nil =>
    cases h
    exact .pure fun _ _ => .nil
  | cons c cells ih =>
    cases h with
    | cons hc hcells =>
    refine (hev.eval hc hscope).bind fun w₁ hle value value' hvalue => ?_
    refine (ih (hA.isOpen_mono hle hscope) (hA.forall₂_codes_mono hle hcells)).bind
      fun w₂ hle' values values' hvalues => ?_
    exact .pure fun w₃ hle'' => .cons (hA.values_mono (hle'.trans hle'') hvalue)
      (hA.forall₂_values_mono hle'' hvalues)

theorem evalLast? (hev : A.Evaluates ev) (hscope : A.isOpen w scope) {cells cells' : List Cell}
    (h : List.Forall₂ (A.codes w) cells cells') :
    A.Evals w (fun w => Option.Rel (A.values w)) (ev.evalLast? scope cells)
      (ev.evalLast? scope cells') := by
  induction cells generalizing w cells' with
  | nil =>
    cases h
    exact .pure fun _ _ => .none
  | cons c cells ih =>
    rcases h with _ | ⟨hc, hcells⟩
    have heval := hev.eval hc hscope
    rcases hcells with _ | ⟨hnext, hcells⟩
    · exact heval.map fun _ _ _ _ hvalue _ hle => .some (hA.values_mono hle hvalue)
    · exact heval.bind fun _ hle _ _ _ =>
        ih (hA.isOpen_mono hle hscope) (hA.forall₂_codes_mono hle (.cons hnext hcells))

theorem truth (hc : A.values w c d) :
    A.Evals w (fun _ => Eq) (Eval.read fun s => s.isTruthy c)
      (Eval.read fun s => s.isTruthy d) :=
  .read fun _ hle _ _ hst => hA.isTruthy_eq hst (hA.values_mono hle hc)

/-- A branch by the truth of a value. -/
theorem branch (hc : A.values w c d) {m₁ m₂ : Eval α} {m₁' m₂' : Eval β}
    (h₁ : A.Evals w R m₁ m₁') (h₂ : A.Evals w R m₂ m₂') :
    A.Evals w R (do if ← Eval.read fun s => s.isTruthy c then m₁ else m₂)
      (do if ← Eval.read fun s => s.isTruthy d then m₁' else m₂') := by
  refine (hA.truth hc).bind_eq fun w' hle b => ?_
  cases b with
  | true => exact h₁.mono hle
  | false => exact h₂.mono hle

/-! ### Numbers -/

theorem numbers (hcall : A.Calls w call call') {operands operands' values values' : List Cell}
    (hoperands : List.Forall₂ (A.codes w) operands operands')
    (hvalues : List.Forall₂ (A.values w) values values') :
    A.Evals w (fun _ => Eq) (Form.numbers call operands values)
      (Form.numbers call' operands' values') := by
  induction hoperands generalizing values values' with
  | nil => exact .pure fun _ _ => rfl
  | cons hoperand _ ih =>
    cases hvalues with
    | nil => exact .pure fun _ _ => rfl
    | @cons value value' values values' hvalue hvalues =>
      have hdata := hA.values_value hvalue
      have hnumber : Number.ofValue? value.value = Number.ofValue? value'.value :=
        hdata.congr fun _ _ _ _ => rfl
      rw [Form.numbers, Form.numbers, hnumber, hcall.name_eq, hdata.kind_eq]
      cases Number.ofValue? value'.value with
      | none => exact hA.failAt hcall hoperand _
      | some n => exact (ih hvalues).bind_eq fun _ _ ns => .pure fun _ _ => rfl

theorem integers (hcall : A.Calls w call call') {operands operands' values values' : List Cell}
    (hoperands : List.Forall₂ (A.codes w) operands operands')
    (hvalues : List.Forall₂ (A.values w) values values') :
    A.Evals w (fun _ => Eq) (Form.integers call operands values)
      (Form.integers call' operands' values') := by
  induction hoperands generalizing values values' with
  | nil => exact .pure fun _ _ => rfl
  | cons hoperand _ ih =>
    cases hvalues with
    | nil => exact .pure fun _ _ => rfl
    | @cons value value' values values' hvalue hvalues =>
      rw [Form.integers, Form.integers, (hA.values_value hvalue).integer?_eq, hcall.name_eq]
      cases value'.value.integer? with
      | none => exact hA.failAt hcall hoperand _
      | some n => exact (ih hvalues).bind_eq fun _ _ ns => .pure fun _ _ => rfl

theorem numberOperands (hev : A.Evaluates ev) (hcall : A.Calls w call call')
    (hscope : A.isOpen w scope) :
    A.Evals w (fun _ => Eq) (Form.numberOperands ev call scope)
      (Form.numberOperands ev call' scope) := by
  obtain ⟨name, site, operands⟩ := call
  obtain ⟨name', site', operands'⟩ := call'
  have hoperands := hcall.operands
  rcases hcall.operands with _ | ⟨_, _ | ⟨_, _⟩⟩
  · exact hA.failArity hcall _
  · exact hA.failArity hcall _
  · refine (hA.evalAll hev hscope hoperands).bind fun w₁ hle values values' hvalues => ?_
    refine (hA.numbers (hA.calls_mono hle hcall) (hA.forall₂_codes_mono hle hoperands)
      hvalues).bind_eq fun w₂ hle' ns => ?_
    cases ns with
    | nil => exact hA.failArity (hA.calls_mono (hle.trans hle') hcall) _
    | cons n ns => exact .pure fun _ _ => rfl

theorem arithmetic (op : ArithmeticOp) : A.Forms (Form.arithmetic op) := by
  intro ev hev w call call' scope hcall hscope
  refine (hA.numberOperands hev hcall hscope).bind_eq fun w₁ _ ⟨n, ns⟩ => ?_
  have happly : DataValues A.Bindable (A.codes w₁) (op.apply n ns) (op.apply n ns) ∧
      op.apply n ns ≠ .list := by
    unfold ArithmeticOp.apply
    split
    · exact ⟨.real _, nofun⟩
    · exact ⟨.real _, nofun⟩
    · exact ⟨.real _, nofun⟩
    · exact ⟨.integer _, nofun⟩
  exact hA.newValue happly.1 happly.2

theorem comparison (op : ComparisonOp) : A.Forms (Form.comparison op) := by
  intro ev hev w call call' scope hcall hscope
  exact (hA.numberOperands hev hcall hscope).bind_eq fun _ _ _ => hA.newBool _

theorem logic (op : LogicOp) : A.Forms (Form.logic op) := by
  intro ev hev w call call' scope hcall hscope
  exact (hA.numberOperands hev hcall hscope).bind_eq fun _ _ _ => hA.newBool _

theorem negation : A.Forms Form.negation := by
  rintro ev hev w ⟨name, site, operands⟩ ⟨name', site', operands'⟩ scope hcall hscope
  rcases hcall.operands with _ | ⟨hoperand, _ | _⟩
  · exact hA.failArity hcall _
  · refine (hev.eval hoperand hscope).bind fun w₁ hle value value' hvalue => ?_
    exact (hA.truth hvalue).bind_eq fun _ _ _ => hA.newBool _
  · exact hA.failArity hcall _

theorem bitwise (op : BitOp) : A.Forms (Form.bitwise op) := by
  rintro ev hev w ⟨name, site, operands⟩ ⟨name', site', operands'⟩ scope hcall hscope
  have hoperands := hcall.operands
  rcases hcall.operands with _ | ⟨_, _ | ⟨_, _⟩⟩
  · exact hA.failArity hcall _
  · exact hA.failArity hcall _
  · refine (hA.evalAll hev hscope hoperands).bind fun w₁ hle values values' hvalues => ?_
    refine (hA.integers (hA.calls_mono hle hcall) (hA.forall₂_codes_mono hle hoperands)
      hvalues).bind_eq fun w₂ hle' ns => ?_
    cases ns with
    | nil => exact hA.failArity (hA.calls_mono (hle.trans hle') hcall) _
    | cons n ns => exact hA.newInteger _

theorem shift (op : ShiftOp) : A.Forms (Form.shift op) := by
  rintro ev hev w ⟨name, site, operands⟩ ⟨name', site', operands'⟩ scope hcall hscope
  have hoperands := hcall.operands
  rcases hcall.operands with _ | ⟨_, _ | ⟨_, _ | _⟩⟩
  · exact hA.failArity hcall _
  · exact hA.failArity hcall _
  · refine (hA.evalAll hev hscope hoperands).bind fun w₁ hle values values' hvalues => ?_
    have hcall₁ := hA.calls_mono hle hcall
    refine (hA.integers hcall₁ (hA.forall₂_codes_mono hle hoperands) hvalues).bind_eq
      fun w₂ hle' ns => ?_
    have hcall₂ := hA.calls_mono hle' hcall₁
    obtain rfl : name = name' := hcall.name_eq
    match ns with
    | [] => exact hA.failArity hcall₂ _
    | [_] => exact hA.failArity hcall₂ _
    | _ :: _ :: _ :: _ => exact hA.failArity hcall₂ _
    | [value, amount] =>
      simp only
      cases ShiftOp.amount? amount with
      | none => exact hA.fail hcall₂ _
      | some places => exact hA.newInteger _
  · exact hA.failArity hcall _

theorem bitNot : A.Forms Form.bitNot := by
  rintro ev hev w ⟨name, site, operands⟩ ⟨name', site', operands'⟩ scope hcall hscope
  rcases hcall.operands with _ | ⟨hoperand, _ | _⟩
  · exact hA.failArity hcall _
  · refine (hev.eval hoperand hscope).bind fun w₁ hle value value' hvalue => ?_
    obtain rfl : name = name' := hcall.name_eq
    simp only [(hA.values_value hvalue).integer?_eq]
    cases value'.value.integer? with
    | none => exact hA.failAt (hA.calls_mono hle hcall) (hA.codes_mono hle hoperand) _
    | some n => exact hA.newInteger _
  · exact hA.failArity hcall _

/-! ### Conversions and output -/

theorem constant {value : Value} (hvalue : ∀ w, DataValues A.Bindable (A.codes w) value value)
    (hlist : value ≠ .list) : A.Forms (Form.constant value) := by
  rintro ev hev w ⟨name, site, operands⟩ ⟨name', site', operands'⟩ scope hcall hscope
  rcases hcall.operands with _ | ⟨_, _⟩
  · exact hA.newValue (hvalue w) hlist
  · exact hA.failArity hcall _

theorem onlyOperand (hev : A.Evaluates ev) (hcall : A.Calls w call call')
    (hscope : A.isOpen w scope) :
    A.Evals w A.values (Form.onlyOperand ev call scope) (Form.onlyOperand ev call' scope) := by
  obtain ⟨name, site, operands⟩ := call
  obtain ⟨name', site', operands'⟩ := call'
  rcases hcall.operands with _ | ⟨hoperand, _ | _⟩
  · exact hA.failArity hcall _
  · exact hev.eval hoperand hscope
  · exact hA.failArity hcall _

theorem isNil : A.Forms Form.isNil := by
  intro ev hev w call call' scope hcall hscope
  refine (hA.onlyOperand hev hcall hscope).bind fun w₁ _ value value' hvalue => ?_
  rw [(hA.values_value hvalue).isNil_eq]
  exact hA.newBool _

theorem typeOf : A.Forms Form.typeOf := by
  intro ev hev w call call' scope hcall hscope
  refine (hA.onlyOperand hev hcall hscope).bind fun w₁ _ value value' hvalue => ?_
  rw [(hA.values_value hvalue).kind_eq]
  exact hA.newString _

theorem asInteger : A.Forms Form.asInteger := by
  intro ev hev w call call' scope hcall hscope
  refine (hA.onlyOperand hev hcall hscope).bind fun w₁ hle value value' hvalue => ?_
  have hdata := hA.values_value hvalue
  have hinteger : Form.toInteger? value.value = Form.toInteger? value'.value :=
    hdata.congr fun _ _ _ _ => rfl
  rw [hinteger, hdata.kind_eq]
  cases Form.toInteger? value'.value with
  | none => exact hA.fail (hA.calls_mono hle hcall) _
  | some n => exact hA.newInteger _

theorem asReal : A.Forms Form.asReal := by
  intro ev hev w call call' scope hcall hscope
  refine (hA.onlyOperand hev hcall hscope).bind fun w₁ hle value value' hvalue => ?_
  have hdata := hA.values_value hvalue
  have hreal : Form.toReal? value.value = Form.toReal? value'.value :=
    hdata.congr fun _ _ _ _ => rfl
  rw [hreal, hdata.kind_eq]
  cases Form.toReal? value'.value with
  | none => exact hA.fail (hA.calls_mono hle hcall) _
  | some x => exact hA.newValue (.real x) nofun

theorem asString : A.Forms Form.asString := by
  intro ev hev w call call' scope hcall hscope
  refine (hA.onlyOperand hev hcall hscope).bind fun w₁ _ value value' hvalue => ?_
  exact (hA.text hvalue scope).bind_eq fun _ _ text => hA.newString text

theorem textComparison (same : Bool) : A.Forms (Form.textComparison same) := by
  rintro ev hev w ⟨name, site, operands⟩ ⟨name', site', operands'⟩ scope hcall hscope
  rcases hcall.operands with _ | ⟨hfirst, _ | ⟨hsecond, _ | _⟩⟩
  · exact hA.failArity hcall _
  · exact hA.failArity hcall _
  · refine (hev.eval hfirst hscope).bind fun w₁ hle₁ value₁ value₁' hvalue₁ => ?_
    refine (hA.text hvalue₁ scope).bind_eq fun w₂ hle₂ left => ?_
    have hle := hle₁.trans hle₂
    refine (hev.eval (hA.codes_mono hle hsecond) (hA.isOpen_mono hle hscope)).bind
      fun w₃ _ value₂ value₂' hvalue₂ => ?_
    exact (hA.text hvalue₂ scope).bind_eq fun _ _ right => hA.newBool _
  · exact hA.failArity hcall _

theorem output (ending : String) : A.Forms (Form.output ending) := by
  intro ev hev w call call' scope hcall hscope
  refine (hA.evalAll hev hscope hcall.operands).bind fun w₁ _ values values' hvalues => ?_
  refine (hA.texts hvalues scope).bind_eq fun w₂ _ texts => ?_
  exact (Evals.modify fun _ _ _ _ hst => hA.write _ hst).bind fun _ _ _ _ _ => hA.newBool true

end Lawful

end BracketScript.Correspondence
