import Mathlib.Tactic.Choose
import BracketScript.Evaluator

/-!
# Operands

Most forms evaluate operands first and do what they are there for afterwards. In between they only
check what they have got. `Value.operandsOf` lists, for each callee, the operands that it evaluates
in this way, and `Sequenced` says what that means. An operand that comes to no value is then the
last thing that happens in its call: the call stops for the same reason and in the same store.

An evaluation may give way to other tasks, which change the store. `Run.Ends` therefore keeps each
moment at which an evaluation gave way, with the answer and the store that it went on with.
-/

namespace BracketScript

variable {α β : Type}

/-! ### Ends -/

/-- An evaluation gave way and went on. -/
structure Moment where
  need : Need
  /-- The store that the evaluation left. -/
  left : Store
  answer : need.Answer
  /-- The store that the evaluation found when it went on. -/
  found : Store

/-- With these moments at which it gives way, the run ends with the outcome in the store. -/
inductive Run.Ends : Run α → List Moment → Except Stop α → Store → Prop
  | done (a : α) (s : Store) : Ends (.done a s) [] (.ok a) s
  | stop (reason : Stop) (s : Store) : Ends (.stop reason s) [] (.error reason) s
  | pause {need : Need} {s s' t : Store} {resume : need.Answer → Store → Run α}
      {answer : need.Answer} {moments : List Moment} {outcome : Except Stop α} :
      Ends (resume answer s') moments outcome t →
        Ends (.pause need s resume) (⟨need, s, answer, s'⟩ :: moments) outcome t

theorem Run.ends_done_iff {a : α} {s t : Store} {moments : List Moment}
    {outcome : Except Stop α} :
    (Run.done a s).Ends moments outcome t ↔ moments = [] ∧ outcome = .ok a ∧ t = s := by
  constructor
  · intro h
    cases h
    exact ⟨rfl, rfl, rfl⟩
  · rintro ⟨rfl, rfl, rfl⟩
    exact .done _ _

namespace Run.Ends

variable {r : Run α} {f : α → Store → Run β} {moments moments' : List Moment} {t u : Store}

theorem bind {a : α} {outcome : Except Stop β} (h : r.Ends moments (.ok a) t)
    (hf : (f a t).Ends moments' outcome u) : (r.bind f).Ends (moments ++ moments') outcome u := by
  induction r generalizing moments with
  | done b s =>
    cases h
    exact hf
  | stop reason s => cases h
  | pause need s resume ih =>
    cases h with
    | pause h => exact .pause (ih _ _ h)

/-- A run that stops does not go on. -/
theorem bind_error {reason : Stop} (h : r.Ends moments (.error reason) t) :
    (r.bind f).Ends moments (.error reason) t := by
  induction r generalizing moments with
  | done b s => cases h
  | stop reason s =>
    cases h
    exact .stop _ _
  | pause need s resume ih =>
    cases h with
    | pause h => exact .pause (ih _ _ h)

/-- A run that goes on has ended in its first part or in its second. -/
theorem bind_cases {outcome : Except Stop β} (h : (r.bind f).Ends moments outcome t) :
    (∃ front a u back, r.Ends front (.ok a) u ∧ (f a u).Ends back outcome t ∧
      moments = front ++ back) ∨
    ∃ reason, r.Ends moments (.error reason) t ∧ outcome = .error reason := by
  induction r generalizing moments with
  | done a s => exact .inl ⟨[], a, s, moments, .done a s, h, rfl⟩
  | stop reason s =>
    cases h
    exact .inr ⟨reason, .stop _ _, rfl⟩
  | pause need s resume ih =>
    cases h with
    | pause h =>
      rcases ih _ _ h with ⟨front, a, u, back, hr, hf, rfl⟩ | ⟨reason, hr, rfl⟩
      · exact .inl ⟨_ :: front, a, u, back, .pause hr, hf, rfl⟩
      · exact .inr ⟨reason, .pause hr, rfl⟩

/-- What a run does depends on what it finds when it goes on, and on nothing else. -/
theorem eq_of_append {more more' : List Moment} {outcome outcome' : Except Stop α} {t' : Store}
    (h : r.Ends moments outcome t) (h' : r.Ends moments' outcome' t')
    (heq : moments ++ more = moments' ++ more') :
    moments = moments' ∧ outcome = outcome' ∧ t = t' := by
  induction h generalizing moments' with
  | done a s =>
    cases h'
    exact ⟨rfl, rfl, rfl⟩
  | stop reason s =>
    cases h'
    exact ⟨rfl, rfl, rfl⟩
  | pause _ ih =>
    cases h' with
    | pause h' =>
      obtain ⟨hmoment, hrest⟩ := List.cons.inj heq
      cases hmoment
      obtain ⟨rfl, rfl, rfl⟩ := ih h' hrest
      exact ⟨rfl, rfl, rfl⟩

end Run.Ends

/-! ### Checks -/

namespace Form

def labelOf (call : Call) (label : Cell) : Eval String :=
  match label.value.string? with
  | some text => pure text
  | none => call.failAt label .labelNotString

def expectHolds (call : Call) (label : String) (condition value : Cell) : Eval Unit :=
  match holds? value.value with
  | some true => pure ()
  | some false => .fail (.assertion label (call.placeOf condition))
  | none => call.failAt condition (.conditionKind value.value.kind)

theorem assertEach_cons (ev : Evaluator) (call : Call) (label : String) (scope : ScopeId)
    (condition : Cell) (conditions : List Cell) :
    assertEach ev call label scope (condition :: conditions) =
      ev.eval condition scope >>= fun value =>
        expectHolds call label condition value >>= fun _ =>
          assertEach ev call label scope conditions := by
  rw [assertEach]
  congr 1
  funext value
  rw [expectHolds]
  cases holds? value.value with
  | none => rfl
  | some b => cases b <;> rfl

end Form

/-- What a form does between its operands, and before the first: it checks a name, a label or a
value, it prints a value, or it makes a scope to evaluate operands in. -/
inductive Between : {β : Type} → Eval β → Prop
  | bindingName (call : Call) (c : Cell) : Between (call.bindingName c)
  | assignedName (call : Call) (c : Cell) : Between (Form.assignedName call c)
  | labelOf (call : Call) (c : Cell) : Between (Form.labelOf call c)
  | expectList (call : Call) (operand value : Cell) : Between (Form.expectList call operand value)
  | indexOf (call : Call) (operand value : Cell) : Between (Form.indexOf call operand value)
  | expectHolds (call : Call) (label : String) (condition value : Cell) :
      Between (Form.expectHolds call label condition value)
  | stringify (scope : ScopeId) (value : Cell) : Between (.stringify scope value)
  | childScope (parent : ScopeId) : Between (.childScope parent)

/-! ### Evaluations that begin with operands -/

/-- The cells are evaluated one after the other, and beside them there are checks only. -/
inductive Prepares : List Cell → (Evaluator → Eval β) → Prop
  | ready (b : β) : Prepares [] fun _ => pure b
  | between {γ : Type} {cells : List Cell} {m : Eval γ} {f : γ → Evaluator → Eval β} :
      Between m → (∀ a, Prepares cells (f a)) → Prepares cells fun ev => m >>= fun a => f a ev
  | operand (c : Cell) (scope : ScopeId) {cells : List Cell} {f : Cell → Evaluator → Eval β} :
      (∀ v, Prepares cells (f v)) →
        Prepares (c :: cells) fun ev => ev.eval c scope >>= fun v => f v ev

/-- The cells are evaluated one after the other with checks in between, and whatever else there is
to do comes after the last of them. -/
inductive Sequenced : List Cell → (Evaluator → Eval α) → Prop
  | effect (m : Evaluator → Eval α) : Sequenced [] m
  | between {γ : Type} {cells : List Cell} {m : Eval γ} {f : γ → Evaluator → Eval α} :
      Between m → (∀ a, Sequenced cells (f a)) → Sequenced cells fun ev => m >>= fun a => f a ev
  | operand (c : Cell) (scope : ScopeId) {cells : List Cell} {f : Cell → Evaluator → Eval α} :
      (∀ v, Sequenced cells (f v)) →
        Sequenced (c :: cells) fun ev => ev.eval c scope >>= fun v => f v ev

structure Point (α : Type) where
  /-- The scope of the operand. -/
  scope : ScopeId
  /-- How the evaluation goes on with the value of the operand. -/
  resume : Cell → Evaluator → Eval α

/-- In the evaluation, `before` leads up to the operand `c`, and for this it evaluates `front`. -/
structure LeadsTo (m : Evaluator → Eval α) (front : List Cell) (c : Cell)
    (before : Evaluator → Eval (Point α)) : Prop where
  prepares : Prepares front before
  eq : ∀ ev, m ev = before ev >>= fun p => ev.eval c p.scope >>= fun v => p.resume v ev

def Evaluator.AgreeOn (ev ev' : Evaluator) (cells : List Cell) : Prop :=
  ∀ c ∈ cells, ev.eval c = ev'.eval c

theorem Evaluator.AgreeOn.mono {ev ev' : Evaluator} {cells cells' : List Cell}
    (h : ev.AgreeOn ev' cells) (hsub : cells' ⊆ cells) : ev.AgreeOn ev' cells' :=
  fun c hc => h c (hsub hc)

/-- What leads up to an operand depends on the operands before it only. -/
theorem Prepares.eq_of_agreeOn {cells : List Cell} {before : Evaluator → Eval β}
    (h : Prepares cells before) {ev ev' : Evaluator} (hagree : ev.AgreeOn ev' cells) :
    before ev = before ev' := by
  induction h with
  | ready b => rfl
  | @between γ cells m f _ _ ih =>
    change (m >>= fun a => f a ev) = m >>= fun a => f a ev'
    exact congrArg _ (funext fun a => ih a hagree)
  | @operand c scope cells f _ ih =>
    change (ev.eval c scope >>= fun v => f v ev) = ev'.eval c scope >>= fun v => f v ev'
    rw [hagree c List.mem_cons_self]
    exact congrArg _ (funext fun v => ih v (hagree.mono (List.subset_cons_self c cells)))

/-- An operand that stops stops the evaluation, whatever is made of the cells behind it. -/
theorem LeadsTo.ends {m : Evaluator → Eval α} {front : List Cell} {c : Cell}
    {before : Evaluator → Eval (Point α)} (h : LeadsTo m front c before) {ev ev' : Evaluator}
    (hagree : ev.AgreeOn ev' (front ++ [c])) {s t u : Store} {moments moments' : List Moment}
    {point : Point α} {reason : Stop} (hbefore : (before ev s).Ends moments (.ok point) t)
    (hstop : (ev.eval c point.scope t).Ends moments' (.error reason) u) :
    (m ev' s).Ends (moments ++ moments') (.error reason) u := by
  rw [h.prepares.eq_of_agreeOn (hagree.mono (List.subset_append_left front [c]))] at hbefore
  rw [hagree c (by simp)] at hstop
  rw [h.eq ev']
  exact hbefore.bind hstop.bind_error

namespace Sequenced

/-- Each of the cells divides the evaluation into what leads up to it, itself and the rest. -/
theorem exists_before {m : Evaluator → Eval α} {cells front back : List Cell} {c : Cell}
    (h : Sequenced cells m) (hcells : cells = front ++ c :: back) :
    ∃ before, LeadsTo m front c before := by
  induction h generalizing front with
  | effect m => exact absurd hcells (by simp)
  | between hm _ ih =>
    choose before hbefore using fun a => ih a hcells
    refine ⟨fun ev => _ >>= fun a => before a ev, .between hm fun a => (hbefore a).prepares,
      fun ev => ?_⟩
    rw [bind_assoc]
    exact congrArg _ (funext fun a => (hbefore a).eq ev)
  | @operand d scope cells f _ ih =>
    cases front with
    | nil =>
      obtain ⟨rfl, rfl⟩ := List.cons.inj hcells
      exact ⟨fun _ => pure ⟨scope, f⟩, .ready _, fun ev => (pure_bind _ _).symm⟩
    | cons e front =>
      obtain ⟨rfl, htail⟩ := List.cons.inj hcells
      choose before hbefore using fun v => ih v htail
      refine ⟨fun ev => ev.eval d scope >>= fun v => before v ev,
        .operand d scope fun v => (hbefore v).prepares, fun ev => ?_⟩
      rw [bind_assoc]
      exact congrArg _ (funext fun v => (hbefore v).eq ev)

/-- What is done with the result comes after all operands. -/
theorem andThen {cells : List Cell} {m : Evaluator → Eval α} (h : Sequenced cells m)
    (f : α → Evaluator → Eval β) : Sequenced cells fun ev => m ev >>= fun a => f a ev := by
  induction h with
  | effect m => exact .effect _
  | between hm _ ih =>
    simp only [bind_assoc]
    exact .between hm ih
  | operand c scope _ ih =>
    simp only [bind_assoc]
    exact .operand c scope ih

theorem evalAll (scope : ScopeId) (cells : List Cell) {f : List Cell → Evaluator → Eval α}
    {later : List Cell} (h : ∀ values, Sequenced later (f values)) :
    Sequenced (cells ++ later) fun ev => ev.evalAll scope cells >>= fun values => f values ev := by
  induction cells generalizing f with
  | nil =>
    simp only [Evaluator.evalAll, pure_bind]
    exact h []
  | cons c cells ih =>
    simp only [Evaluator.evalAll, bind_assoc, pure_bind]
    exact .operand c scope fun v => ih fun values => h (v :: values)

/-- All cells are evaluated before anything is done. -/
theorem evalAll_effect (scope : ScopeId) (cells : List Cell) (f : List Cell → Evaluator → Eval α) :
    Sequenced cells fun ev => ev.evalAll scope cells >>= fun values => f values ev := by
  have h : Sequenced (cells ++ []) fun ev => ev.evalAll scope cells >>= fun values => f values ev :=
    evalAll scope cells fun _ => .effect _
  rwa [List.append_nil] at h

end Sequenced

/-! ### The operands of each callee -/

/-- The cells, if there are at least two. -/
def twoOrMore : List Cell → List Cell
  | cells@(_ :: _ :: _) => cells
  | _ => []

/-- The cells, if there are so many. -/
def exactly (n : Nat) (cells : List Cell) : List Cell :=
  if cells.length = n then cells else []

/-- The operands that a form evaluates before it does anything else, in the order in which it does.
With a wrong number of operands, it evaluates none. -/
def Keyword.operandsOf (k : Keyword) (operands : List Cell) : List Cell :=
  match k with
  | .list | .put | .putLine => operands
  | .push | .add | .subtract | .divide | .multiply | .modulo | .equal | .notEqual | .atMost
  | .atLeast | .below | .above | .and | .or | .xor | .bitAnd | .bitOr | .bitXor =>
    twoOrMore operands
  | .shiftLeft | .shiftRight | .sameText | .otherText | .elementAt => exactly 2 operands
  | .setAt => exactly 3 operands
  | .front | .back | .pop | .clear | .length | .reverse | .not | .bitNot | .isNil | .typeOf
  | .asInteger | .asReal | .asString | .raise | .yieldUp | .decompose | .exitProcess | .reference =>
    exactly 1 operands
  | .define | .assign | .box => (exactly 2 operands).drop 1
  | .ifElse => (exactly 2 operands ++ exactly 3 operands).take 1
  | .assertAll => (twoOrMore operands).drop 1
  | .iterate => ((exactly 3 operands).drop 1).take 1
  | .loop => (exactly 4 operands).take 1
  | .lambda | .block | .importModule | .usePackage | .breakOut | .compose | .truth | .falsity | .nil
  | .tryOr | .spawnAsync | .spawnThread | .channel => []

/-- The operands that a method evaluates before it does anything else. -/
def Method.operandsOf (m : Method) (operands : List Cell) : List Cell :=
  match m with
  | .send _ => operands
  | .write _ => exactly 1 operands
  | _ => []

/-- The operands that are evaluated first when the value is called. -/
def Value.operandsOf (value : Value) (operands : List Cell) : List Cell :=
  match value with
  | .lambda _ _ _ => operands
  | .procedure (.builtIn k) => k.operandsOf operands
  | .procedure (.method m) => m.operandsOf operands
  | _ => []

namespace Sequenced

variable (name : String) (site : Cell) (operands : List Cell) (scope : ScopeId)

/-! ### Forms on numbers -/

theorem numberOperands :
    Sequenced (twoOrMore operands) fun ev =>
      Form.numberOperands ev ⟨name, site, operands⟩ scope := by
  match operands with
  | [] | [_] => exact .effect _
  | c :: d :: cells => exact evalAll_effect scope (c :: d :: cells) _

theorem arithmetic (op : ArithmeticOp) :
    Sequenced (twoOrMore operands) fun ev => Form.arithmetic op ev ⟨name, site, operands⟩ scope :=
  (numberOperands name site operands scope).andThen _

theorem comparison (op : ComparisonOp) :
    Sequenced (twoOrMore operands) fun ev => Form.comparison op ev ⟨name, site, operands⟩ scope :=
  (numberOperands name site operands scope).andThen _

theorem logic (op : LogicOp) :
    Sequenced (twoOrMore operands) fun ev => Form.logic op ev ⟨name, site, operands⟩ scope :=
  (numberOperands name site operands scope).andThen _

theorem bitwise (op : BitOp) :
    Sequenced (twoOrMore operands) fun ev => Form.bitwise op ev ⟨name, site, operands⟩ scope := by
  match operands with
  | [] | [_] => exact .effect _
  | c :: d :: cells => exact evalAll_effect scope (c :: d :: cells) _

theorem shift (op : ShiftOp) :
    Sequenced (exactly 2 operands) fun ev => Form.shift op ev ⟨name, site, operands⟩ scope := by
  match operands with
  | [] | [_] | _ :: _ :: _ :: _ => exact .effect _
  | [c, d] => exact evalAll_effect scope [c, d] _

/-! ### Forms with one operand -/

/-- A form that begins with its only operand. -/
theorem single (form : Form) {f : Cell → Cell → Evaluator → Eval Cell}
    (h : ∀ c ev, form ev ⟨name, site, [c]⟩ scope = ev.eval c scope >>= fun v => f c v ev) :
    Sequenced (exactly 1 operands) fun ev => form ev ⟨name, site, operands⟩ scope := by
  match operands with
  | [] | _ :: _ :: _ => exact .effect _
  | [c] =>
    simp only [h c]
    exact .operand c scope fun v => .effect _

theorem onlyOperand :
    Sequenced (exactly 1 operands) fun ev => Form.onlyOperand ev ⟨name, site, operands⟩ scope := by
  match operands with
  | [] | _ :: _ :: _ => exact .effect _
  | [c] =>
    have h : Sequenced [c] fun ev => ev.eval c scope >>= fun v => (pure v : Eval Cell) :=
      .operand c scope fun v => .effect _
    simp only [bind_pure] at h
    exact h

theorem onlyList :
    Sequenced (exactly 1 operands) fun ev => Form.onlyList ev ⟨name, site, operands⟩ scope :=
  single name site operands scope Form.onlyList fun _ _ => rfl

/-! ### Forms on lists, texts and names -/

theorem push :
    Sequenced (twoOrMore operands) fun ev => Form.push ev ⟨name, site, operands⟩ scope := by
  match operands with
  | [] | [_] => exact .effect _
  | c :: d :: cells =>
    exact .operand c scope fun target => .between (.expectList _ c target) fun _ =>
      evalAll_effect scope (d :: cells) _

theorem elementAt :
    Sequenced (exactly 2 operands) fun ev => Form.elementAt ev ⟨name, site, operands⟩ scope := by
  match operands with
  | [] | [_] | _ :: _ :: _ :: _ => exact .effect _
  | [c, d] =>
    exact .operand c scope fun position => .between (.indexOf _ c position) fun _ =>
      .operand d scope fun _ => .effect _

theorem setAt :
    Sequenced (exactly 3 operands) fun ev => Form.setAt ev ⟨name, site, operands⟩ scope := by
  match operands with
  | [] | [_] | [_, _] | _ :: _ :: _ :: _ :: _ => exact .effect _
  | [c, d, e] =>
    exact .operand c scope fun position => .between (.indexOf _ c position) fun _ =>
      .operand d scope fun target => .between (.expectList _ d target) fun _ =>
        .operand e scope fun _ => .effect _

theorem textComparison (same : Bool) :
    Sequenced (exactly 2 operands) fun ev =>
      Form.textComparison same ev ⟨name, site, operands⟩ scope := by
  match operands with
  | [] | [_] | _ :: _ :: _ :: _ => exact .effect _
  | [c, d] =>
    exact .operand c scope fun left => .between (.stringify scope left) fun _ =>
      .operand d scope fun _ => .effect _

theorem define :
    Sequenced ((exactly 2 operands).drop 1) fun ev =>
      Form.define ev ⟨name, site, operands⟩ scope := by
  match operands with
  | [] | [_] | _ :: _ :: _ :: _ => exact .effect _
  | [c, d] => exact .between (.bindingName _ c) fun _ => .operand d scope fun _ => .effect _

theorem assign :
    Sequenced ((exactly 2 operands).drop 1) fun ev =>
      Form.assign ev ⟨name, site, operands⟩ scope := by
  match operands with
  | [] | [_] | _ :: _ :: _ :: _ => exact .effect _
  | [c, d] => exact .between (.assignedName _ c) fun _ => .operand d scope fun _ => .effect _

theorem box :
    Sequenced ((exactly 2 operands).drop 1) fun ev =>
      Form.box ev ⟨name, site, operands⟩ scope := by
  match operands with
  | [] | [_] | _ :: _ :: _ :: _ => exact .effect _
  | [c, d] =>
    exact .between (.bindingName _ c) fun _ => .between (.childScope scope) fun members =>
      .operand d members fun _ => .effect _

/-! ### Forms that steer the evaluation -/

theorem ifElse :
    Sequenced ((exactly 2 operands ++ exactly 3 operands).take 1) fun ev =>
      Form.ifElse ev ⟨name, site, operands⟩ scope := by
  match operands with
  | [] | [_] | _ :: _ :: _ :: _ :: _ => exact .effect _
  | [c, _] | [c, _, _] => exact .operand c scope fun _ => .effect _

theorem assertEach (call : Call) (label : String) (conditions : List Cell) :
    Sequenced conditions fun ev => Form.assertEach ev call label scope conditions := by
  induction conditions with
  | nil => exact .effect _
  | cons c conditions ih =>
    simp only [Form.assertEach_cons]
    exact .operand c scope fun value => .between (.expectHolds call label c value) fun _ => ih

theorem assertAll :
    Sequenced ((twoOrMore operands).drop 1) fun ev =>
      Form.assertAll ev ⟨name, site, operands⟩ scope := by
  match operands with
  | [] | [_] => exact .effect _
  | c :: d :: cells =>
    have hform (ev : Evaluator) : Form.assertAll ev ⟨name, site, c :: d :: cells⟩ scope =
        Form.labelOf ⟨name, site, c :: d :: cells⟩ c >>= fun text =>
          Form.assertEach ev ⟨name, site, c :: d :: cells⟩ text scope (d :: cells) >>= fun _ =>
            .newBool true := by
      simp only [Form.assertAll, Form.labelOf]
      cases c.value.string? <;> rfl
    simp only [hform]
    exact .between (.labelOf _ c) fun text => (assertEach scope _ text (d :: cells)).andThen _

theorem iterate :
    Sequenced (((exactly 3 operands).drop 1).take 1) fun ev =>
      Form.iterate ev ⟨name, site, operands⟩ scope := by
  match operands with
  | [] | [_] | [_, _] | _ :: _ :: _ :: _ :: _ => exact .effect _
  | [c, d, _] => exact .between (.bindingName _ c) fun _ => .operand d scope fun _ => .effect _

theorem loop :
    Sequenced ((exactly 4 operands).take 1) fun ev =>
      Form.loop ev ⟨name, site, operands⟩ scope := by
  match operands with
  | [] | [_] | [_, _] | [_, _, _] | _ :: _ :: _ :: _ :: _ :: _ => exact .effect _
  | [c, _, _, _] =>
    exact .between (.childScope scope) fun outer => .operand c outer fun _ => .effect _

/-! ### Calls -/

theorem form (k : Keyword) :
    Sequenced (k.operandsOf operands) fun ev => k.form ev ⟨name, site, operands⟩ scope := by
  cases k with
  | list | put | putLine => exact evalAll_effect scope operands _
  | push => exact push name site operands scope
  | add | subtract | divide | multiply | modulo => exact arithmetic name site operands scope _
  | equal | notEqual | atMost | atLeast | below | above =>
    exact comparison name site operands scope _
  | and | or | xor => exact logic name site operands scope _
  | bitAnd | bitOr | bitXor => exact bitwise name site operands scope _
  | shiftLeft | shiftRight => exact shift name site operands scope _
  | sameText | otherText => exact textComparison name site operands scope _
  | elementAt => exact elementAt name site operands scope
  | setAt => exact setAt name site operands scope
  | front | back | pop | clear => exact (onlyList name site operands scope).andThen _
  | isNil | typeOf | asInteger | asReal | asString =>
    exact (onlyOperand name site operands scope).andThen _
  | length => exact single name site operands scope Form.length fun _ _ => rfl
  | reverse => exact single name site operands scope Form.reverse fun _ _ => rfl
  | not => exact single name site operands scope Form.negation fun _ _ => rfl
  | bitNot => exact single name site operands scope Form.bitNot fun _ _ => rfl
  | raise => exact single name site operands scope Form.raise fun _ _ => rfl
  | yieldUp => exact single name site operands scope Form.yieldUp fun _ _ => rfl
  | decompose => exact single name site operands scope Form.decompose fun _ _ => rfl
  | exitProcess => exact single name site operands scope Form.exitProcess fun _ _ => rfl
  | reference => exact single name site operands scope Form.reference fun _ _ => rfl
  | define => exact define name site operands scope
  | assign => exact assign name site operands scope
  | box => exact box name site operands scope
  | ifElse => exact ifElse name site operands scope
  | assertAll => exact assertAll name site operands scope
  | iterate => exact iterate name site operands scope
  | loop => exact loop name site operands scope
  | _ => exact .effect _

theorem method (m : Method) :
    Sequenced (m.operandsOf operands) fun ev =>
      Form.method m ev ⟨name, site, operands⟩ scope := by
  cases m with
  | send channel =>
    match operands with
    | [] => exact .effect _
    | c :: cells => exact evalAll_effect scope (c :: cells) _
  | write reference => exact single name site operands scope (Form.method _) fun _ _ => rfl
  | _ => exact .effect _

/-- Each call evaluates the operands that are listed for its callee first. -/
theorem apply (callee : Cell) :
    Sequenced (callee.value.operandsOf operands) fun ev =>
      ev.apply site callee operands scope := by
  simp only [Evaluator.apply]
  cases callee.value with
  | lambda parameters body captured => exact evalAll_effect scope operands _
  | procedure p =>
    cases p with
    | builtIn k => exact form _ site operands scope k
    | method m => exact method _ site operands scope m
    | native package member shown => exact .effect _
  | _ => exact .effect _

end Sequenced

/-! ### Lists, calls and loops -/

namespace Evaluator

variable {c head : Cell} {operands : List Cell} {s : Store}

/-- A list is evaluated by evaluating its first item and calling the value of that. -/
theorem step_of_items (ev : Evaluator) (scope : ScopeId) (hc : c.value = .list)
    (hitems : s.items c.id = head :: operands) :
    ev.step c scope s =
      (ev.eval head scope s).bind fun callee => ev.apply c callee operands scope := by
  rw [step, hc]
  have hread : Eval.read (fun s => s.items c.id) s = .done (head :: operands) s :=
    congrArg (Run.done · s) hitems
  exact Eval.bind_of_done hread

end Evaluator

/-- A list that calls the keyword with operands that evaluate to these values comes to the result,
in a cell that is made for it right after. -/
def Keyword.Returns (k : Keyword) (values : List Value) (result : Value) : Prop :=
  ∀ (ev : Evaluator) (c : Cell) (scope : ScopeId) (s : Store) (head : Cell) (operands : List Cell),
    c.value = .list → s.items c.id = head :: operands →
    ∀ moments callee s₀, (ev.eval head scope s).Ends moments (.ok callee) s₀ →
      callee.value = .procedure (.builtIn k) →
    ∀ moments' cells t, (ev.evalAll scope operands s₀).Ends moments' (.ok cells) t →
      cells.map Cell.value = values →
      (ev.step c scope s).Ends (moments ++ moments')
        (.ok (t.newCell result none #[]).1) (t.newCell result none #[]).2

/-- It is enough to know what the form of the keyword does. -/
theorem Keyword.returns_of_form {k : Keyword} {values : List Value} {result : Value}
    (h : ∀ (ev : Evaluator) (call : Call) (scope : ScopeId) (s : Store) moments cells t,
      (ev.evalAll scope call.operands s).Ends moments (.ok cells) t →
      cells.map Cell.value = values →
      ((k.form ev call scope) s).Ends moments (.ok (t.newCell result none #[]).1)
        (t.newCell result none #[]).2) :
    k.Returns values result := by
  intro ev c scope s head operands hc hitems moments callee s₀ hhead hcallee moments' cells t hcells
    hvalues
  rw [ev.step_of_items scope hc hitems]
  refine hhead.bind ?_
  rw [Evaluator.apply, hcallee]
  exact h ev ⟨_, c, operands⟩ scope s₀ moments' cells t hcells hvalues

theorem Evaluator.length_of_evalAll {ev : Evaluator} {scope : ScopeId} {operands cells : List Cell}
    {s t : Store} {moments : List Moment}
    (h : (ev.evalAll scope operands s).Ends moments (.ok cells) t) :
    cells.length = operands.length := by
  induction operands generalizing cells s t moments with
  | nil =>
    obtain ⟨-, hcells, -⟩ := Run.ends_done_iff.1 h
    cases hcells
    rfl
  | cons operand operands ih =>
    rcases h.bind_cases with ⟨_, value, u, _, -, h, -⟩ | ⟨_, -, hstop⟩
    · rcases h.bind_cases with ⟨_, rest, v, _, hrest, h, -⟩ | ⟨_, -, hstop⟩
      · obtain ⟨-, hcells, -⟩ := Run.ends_done_iff.1 h
        cases hcells
        rw [List.length_cons, List.length_cons, ih hrest]
      · cases hstop
    · cases hstop

theorem Evaluator.exists_of_evalAll_singleton {ev : Evaluator} {scope : ScopeId} {operand : Cell}
    {cells : List Cell} {s t : Store} {moments : List Moment}
    (h : (ev.evalAll scope [operand] s).Ends moments (.ok cells) t) :
    ∃ value, cells = [value] ∧ (ev.eval operand scope s).Ends moments (.ok value) t := by
  rcases h.bind_cases with ⟨front, value, u, back, hvalue, hrest, rfl⟩ | ⟨_, -, hstop⟩
  · obtain ⟨rfl, hcells, rfl⟩ := Run.ends_done_iff.1 hrest
    cases hcells
    exact ⟨value, rfl, by rwa [List.append_nil]⟩
  · cases hstop

/-- A call of the keyword with the values in a new list, and the store with that list. -/
def Keyword.calling (k : Keyword) (values : List Value) : Cell × Store :=
  Store.initial.newCell .list none
    (⟨⟨0⟩, none, .keyword k⟩ :: values.map fun value => ⟨⟨0⟩, none, value⟩).toArray

/-- A cell with the value is evaluated to itself. -/
def Value.IsLiteral (value : Value) : Prop :=
  ∀ (ev : Evaluator) (c : Cell) (scope : ScopeId), c.value = value → ev.step c scope = pure c

theorem Value.isLiteral_integer (n : Int64) : (Value.integer n).IsLiteral := by
  intro ev c scope hc
  rw [Evaluator.step, hc]

theorem Value.isLiteral_string (text : String) : (Value.string text).IsLiteral := by
  intro ev c scope hc
  rw [Evaluator.step, hc]

/-- A call with literals is evaluated to its result. -/
theorem Keyword.Returns.exists_ends {k : Keyword} {values : List Value} {result : Value}
    (h : k.Returns values result) (hvalues : ∀ value ∈ values, value.IsLiteral) :
    ∃ c t, (BracketScript.eval ⟨[], [], fun _ => none⟩ 2 (k.calling values).1 Store.root
      (k.calling values).2).Ends [] (.ok c) t ∧ c.value = result := by
  let ev := evaluator ⟨[], [], fun _ => none⟩ 1
  have hall (cells : List Cell) (hcells : ∀ c ∈ cells, c.value ∈ values) (s : Store) :
      ev.evalAll Store.root cells s = .done cells s := by
    induction cells with
    | nil => rfl
    | cons c cells ih =>
      obtain ⟨hc, hcells⟩ := List.forall_mem_cons.1 hcells
      have hvalue : ev.eval c Store.root s = .done c s :=
        congrFun (hvalues _ hc ⟨_, _, 0⟩ c Store.root rfl) s
      rw [Evaluator.evalAll, Eval.bind_of_done hvalue, Eval.bind_of_done (ih hcells)]
      rfl
  let operands : List Cell := values.map fun value => ⟨⟨0⟩, none, value⟩
  have hoperands (s : Store) :
      (ev.evalAll Store.root operands s).Ends [] (.ok operands) s := by
    rw [hall operands (by simp [operands])]
    exact .done _ _
  refine ⟨_, _, h ev (k.calling values).1 Store.root (k.calling values).2 ⟨⟨0⟩, none, .keyword k⟩
    operands rfl ?_ [] _ _ (.done _ _) rfl [] _ _ (hoperands _) ?_, rfl⟩
  · rw [calling, Store.items_newCell]
    exact if_pos rfl
  · rw [List.map_map]
    exact List.map_id values

/-- So many rounds of a loop lead from one store to the other, and another round is to follow. -/
inductive Form.Rounds (ev : Evaluator) (condition post body : Cell) (outer : ScopeId) :
    Nat → Store → List Moment → Store → Prop
  | zero (s : Store) : Rounds ev condition post body outer 0 s [] s
  | succ {n : Nat} {s t u : Store} {moments moments' : List Moment} :
      (loopRound ev condition post body outer () s).Ends moments (.ok (.again ())) t →
        Rounds ev condition post body outer n t moments' u →
          Rounds ev condition post body outer (n + 1) s (moments ++ moments') u

/-- A round that stops stops its loop. -/
theorem Form.Rounds.ends_loop {ev : Evaluator} {condition post body : Cell} {outer : ScopeId}
    {n : Nat} {s t u : Store} {moments moments' : List Moment} {reason : Stop}
    (h : Rounds ev condition post body outer n s moments t)
    (hround : (loopRound ev condition post body outer () t).Ends moments' (.error reason) u)
    {rounds : Nat} (hn : n < rounds) :
    (Eval.loop (loopRound ev condition post body outer) rounds () s).Ends (moments ++ moments')
      (.error reason) u := by
  obtain ⟨rounds, rfl⟩ := Nat.exists_eq_add_of_lt hn
  induction h with
  | zero s =>
    rw [Nat.zero_add, Eval.loop_succ]
    exact hround.bind_error
  | @succ n s t' _ moments₁ moments₂ hfirst _ ih =>
    rw [Nat.add_right_comm n 1 rounds, Eval.loop_succ, List.append_assoc]
    exact hfirst.bind (ih hround (by omega))

namespace Form

variable {ev : Evaluator} {pre condition post body : Cell} {outer inner scope : ScopeId}
  {s t u : Store} {moments : List Moment} {reason : Stop}

/-- A condition that stops stops its round, whatever is made of the other parts of the loop. -/
theorem ends_loopRound (hinner : s.childScope outer = (inner, t))
    (hstop : (ev.eval condition inner t).Ends moments (.error reason) u) {ev' : Evaluator}
    (hagree : ev.AgreeOn ev' [condition]) :
    (loopRound ev' condition post body outer () s).Ends moments (.error reason) u := by
  have hscope : Eval.childScope outer s = .done inner t := by
    rw [Eval.childScope, Eval.make, hinner]
  rw [hagree condition List.mem_cons_self] at hstop
  rw [loopRound, Eval.bind_of_done hscope]
  exact hstop.bind_error

/-- A loop evaluates its first operand in a scope of its own and then does its rounds there. -/
theorem ends_loop (name : String) (site : Cell) {value : Cell} {moments' : List Moment} {t' : Store}
    (houter : s.childScope scope = (outer, t))
    (hpre : (ev.eval pre outer t).Ends moments (.ok value) t')
    (hloop : (Eval.loop (loopRound ev condition post body outer) ev.rounds () t').Ends moments'
      (.error reason) u) :
    (loop ev ⟨name, site, [pre, condition, post, body]⟩ scope s).Ends (moments ++ moments')
      (.error reason) u := by
  have hscope : Eval.childScope scope s = .done outer t := by
    rw [Eval.childScope, Eval.make, houter]
  have hform : loop ev ⟨name, site, [pre, condition, post, body]⟩ scope =
      Eval.childScope scope >>= fun outer => ev.eval pre outer >>= fun _ =>
        Eval.loop (loopRound ev condition post body outer) ev.rounds () := rfl
  rw [hform, Eval.bind_of_done hscope]
  exact hpre.bind hloop

end Form

/-- An operand that is evaluated in operand position and comes to no value stops its call, for the
same reason and in the store that it stopped in. It does not matter to this how any operand behind
it is evaluated. The first item of a list is such an operand, and so is the condition of a loop in
each of its rounds. -/
theorem stops_pass_through_operands (ev : Evaluator) {c head : Cell} {operands : List Cell}
    {s : Store} (scope : ScopeId) (hc : c.value = .list)
    (hitems : s.items c.id = head :: operands) :
    (∀ moments reason u, (ev.eval head scope s).Ends moments (.error reason) u →
      ∀ ev' : Evaluator, ev.AgreeOn ev' [head] →
        (ev'.step c scope s).Ends moments (.error reason) u) ∧
    ∀ moments callee s₀, (ev.eval head scope s).Ends moments (.ok callee) s₀ →
      (∀ front operand back, callee.value.operandsOf operands = front ++ operand :: back →
        (∃ before, LeadsTo (fun ev => ev.apply c callee operands scope) front operand before) ∧
        ∀ before, LeadsTo (fun ev => ev.apply c callee operands scope) front operand before →
        ∀ moments₁ point t, (before ev s₀).Ends moments₁ (.ok point) t →
        ∀ moments₂ reason u, (ev.eval operand point.scope t).Ends moments₂ (.error reason) u →
        ∀ ev' : Evaluator, ev.AgreeOn ev' (head :: (front ++ [operand])) →
          (ev'.step c scope s).Ends (moments ++ (moments₁ ++ moments₂)) (.error reason) u) ∧
      ∀ pre condition post body, callee.value = .procedure (.builtIn .loop) →
        operands = [pre, condition, post, body] →
        ∀ outer s₁, s₀.childScope scope = (outer, s₁) →
        ∀ moments₁ value t₀, (ev.eval pre outer s₁).Ends moments₁ (.ok value) t₀ →
        ∀ n moments₂ t, Form.Rounds ev condition post body outer n t₀ moments₂ t → n < ev.rounds →
        ∀ inner t₁, t.childScope outer = (inner, t₁) →
        ∀ moments₃ reason u, (ev.eval condition inner t₁).Ends moments₃ (.error reason) u →
          (∀ ev' : Evaluator, ev.AgreeOn ev' [condition] →
            (Form.loopRound ev' condition post body outer () t).Ends moments₃ (.error reason) u) ∧
          (ev.step c scope s).Ends (moments ++ (moments₁ ++ (moments₂ ++ moments₃)))
            (.error reason) u := by
  refine ⟨fun moments reason u hstop ev' hagree => ?_, fun moments callee s₀ hhead => ⟨?_, ?_⟩⟩
  · rw [ev'.step_of_items scope hc hitems, ← hagree head List.mem_cons_self]
    exact hstop.bind_error
  · intro front operand back hcells
    refine ⟨(Sequenced.apply c operands scope callee).exists_before hcells, ?_⟩
    intro before hbefore moments₁ point t hpoint moments₂ reason u hstop ev' hagree
    rw [ev'.step_of_items scope hc hitems, ← hagree head List.mem_cons_self]
    exact hhead.bind (hbefore.ends (hagree.mono (List.subset_cons_self _ _)) hpoint hstop)
  · intro pre condition post body hloop hoperands outer s₁ houter moments₁ value t₀ hpre n moments₂
      t hrounds hn inner t₁ hinner moments₃ reason u hstop
    have hround {ev' : Evaluator} (hagree : ev.AgreeOn ev' [condition]) :
        (Form.loopRound ev' condition post body outer () t).Ends moments₃ (.error reason) u :=
      Form.ends_loopRound hinner hstop hagree
    refine ⟨fun ev' => hround, ?_⟩
    rw [ev.step_of_items scope hc hitems, hoperands]
    refine hhead.bind ?_
    rw [Evaluator.apply, hloop]
    exact Form.ends_loop (Procedure.builtIn .loop).name c houter hpre
      (hrounds.ends_loop (hround fun _ _ => rfl) hn)

/-- The tree of `[list [put "a"] [break] [put "b"]]`. -/
def breakingTree : Tree :=
  .list [.atom (.keyword .list) ⟨1, 2, none⟩,
    .list [.atom (.keyword .put) ⟨1, 8, none⟩, .atom (.string "a") ⟨1, 12, none⟩] ⟨1, 7, none⟩,
    .list [.atom (.keyword .breakOut) ⟨1, 18, none⟩] ⟨1, 17, none⟩,
    .list [.atom (.keyword .put) ⟨1, 26, none⟩, .atom (.string "b") ⟨1, 30, none⟩] ⟨1, 25, none⟩]
    ⟨1, 1, none⟩

def breakingStore : Cell × Store :=
  Store.initial.load breakingTree

/-- A list with a break among its items is left at the break. What stands before the break has been
printed, and what stands behind it is not looked at. -/
theorem stops_pass_through_operands_break :
    let ev := evaluator ⟨[], [], fun _ => none⟩ 3
    ∃ u, u.output = "a" ∧
      ∀ ev' : Evaluator,
        ev.AgreeOn ev' ((breakingStore.2.items breakingStore.1.id).take 3) →
          (ev'.step breakingStore.1 Store.root breakingStore.2).Ends [] (.error .breakOut) u := by
  intro ev
  obtain ⟨head, first, second, third, hitems, hhead, v, t, u, hfirst, hsecond, houtput⟩ :
      ∃ head first second third,
        breakingStore.2.items breakingStore.1.id = [head, first, second, third] ∧
        ev.eval head Store.root breakingStore.2 = .done (.builtIn .list) breakingStore.2 ∧
        ∃ v t u, ev.eval first Store.root breakingStore.2 = .done v t ∧
          ev.eval second Store.root t = .stop .breakOut u ∧ u.output = "a" :=
    ⟨_, _, _, _, rfl, rfl, _, _, _, rfl, rfl, rfl⟩
  have hlist : breakingStore.1.value = .list := rfl
  refine ⟨u, houtput, fun ev' hagree => ?_⟩
  rw [hitems] at hagree
  have hhead' : (ev.eval head Store.root breakingStore.2).Ends [] (.ok (.builtIn .list))
      breakingStore.2 := by
    rw [hhead]
    exact .done _ _
  have hsecond' : (ev.eval second Store.root t).Ends [] (.error .breakOut) u := by
    rw [hsecond]
    exact .stop _ _
  let point (v : Cell) : Point Cell :=
    ⟨Store.root, fun w ev => ev.evalAll Store.root [third] >>= fun values =>
      Eval.copyAll (v :: w :: values) >>= Eval.newList⟩
  let before (ev : Evaluator) : Eval (Point Cell) :=
    ev.eval first Store.root >>= fun v => pure (point v)
  have hbefore : LeadsTo
      (fun ev => ev.apply breakingStore.1 (.builtIn .list) [first, second, third] Store.root)
      [first] second before := by
    refine ⟨.operand first Store.root fun v => .ready _, fun ev => ?_⟩
    change (ev.evalAll Store.root [first, second, third] >>= fun values =>
      Eval.copyAll values >>= Eval.newList) = _
    simp only [before, point, Evaluator.evalAll, bind_assoc, pure_bind]
  have hpoint : (before ev breakingStore.2).Ends [] (.ok (point v)) t := by
    have hrun : before ev breakingStore.2 = .done (point v) t := Eval.bind_of_done hfirst
    rw [hrun]
    exact .done _ _
  have hcall := (stops_pass_through_operands ev Store.root hlist hitems).2 _ _ _ hhead'
  exact (hcall.1 [first] second [third] rfl).2 before hbefore _ _ _ hpoint _ _ _ hsecond' ev' hagree

end BracketScript
