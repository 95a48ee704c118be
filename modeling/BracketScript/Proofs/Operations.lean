import BracketScript.Evaluator

/-!
# What evaluations are made of

An evaluation is a row of operations on the store: it makes cells and scopes, writes to lists,
channels, references and tasks, binds names and waits. `Composed` says so, and what all operations
keep is kept by every evaluation. Packages of the host bring in evaluations of their own, which are
not looked into; which ones they are is a parameter.

Names are bound in two ways. A name that is bound already can be bound anew wherever its binding
is, and a new name is bound in an open scope only. The scope at hand is open, and so is each scope
that is made on the way; which other scopes are open is a parameter.
-/

namespace BracketScript

/-- What is read does not depend on how much of the turn is used up. -/
def Store.IsBlind {α : Type} (f : Store → α) : Prop :=
  ∀ s used, f { s with used } = f s

/-- A change of the store that makes no scope. -/
inductive Operation (isOpen : ScopeId → Prop) : {α : Type} → (Store → α × Store) → Prop
  | newCell (value : Value) (location : Option Location) (row : Array Cell) :
      Operation isOpen fun s => s.newCell value location row
  | load (tree : Tree) : Operation isOpen fun s => s.load tree
  | modifyRow (id : CellId) (f : Array Cell → Array Cell) :
      Operation isOpen fun s => ((), s.modifyRow id f)
  | define {scope : ScopeId} (name : String) (cell : Cell) :
      isOpen scope → Operation isOpen fun s => ((), s.define scope name cell)
  | newChannel : Operation isOpen fun s => s.newChannel
  | newReference (initial : Option Cell) : Operation isOpen fun s => s.newReference initial
  | writeReference (id : RefId) (cell : Cell) :
      Operation isOpen fun s => ((), s.writeReference id cell)
  | newTask (body : Cell) (scope : ScopeId) : Operation isOpen fun s => s.newTask body scope
  | modifyTask (id : TaskId) (f : Task → Task) :
      Operation isOpen fun s => ((), s.modifyTask id f)
  | write (text : String) : Operation isOpen fun s => ((), s.write text)

/-- Evaluations that packages of the host bring in. -/
abbrev Foreign := (α : Type) → Eval α → Prop

def Foreign.none : Foreign := fun _ _ => False

/-- An evaluation that is made of operations and of what packages bring in, and binds new names in
open scopes only. -/
inductive Composed (isOpen : ScopeId → Prop) (foreign : Foreign) : {α : Type} → Eval α → Prop
  | pure {α : Type} (a : α) : Composed isOpen foreign (pure a)
  | bind {α β : Type} {m : Eval α} {f : α → Eval β} :
      Composed isOpen foreign m → (∀ a, Composed isOpen foreign (f a)) →
        Composed isOpen foreign (m >>= f)
  | stop {α : Type} (reason : Stop) : Composed isOpen foreign (.stop reason : Eval α)
  | flow {m : Eval Cell} : Composed isOpen foreign m → Composed isOpen foreign m.flow
  | attempt {α : Type} {m : Eval α} : Composed isOpen foreign m → Composed isOpen foreign m.attempt
  | await (need : Need) : Composed isOpen foreign (.await need)
  | work (rounds : Nat) : Composed isOpen foreign (.work rounds)
  | read {α : Type} {f : Store → α} : Store.IsBlind f → Composed isOpen foreign (.read f)
  | readOr {α : Type} {f : Store → Except Fault α} :
      Store.IsBlind f → Composed isOpen foreign (.readOr f)
  | operation {α : Type} {f : Store → α × Store} :
      Operation isOpen f → Composed isOpen foreign (.make f)
  /-- Bind a name anew where it is bound. -/
  | assign (scope : ScopeId) (name : String) (cell : Cell) (location : Option Location) :
      Composed isOpen foreign (.assign scope name cell location)
  /-- Make a scope and go on with it as an open one. -/
  | childScope {α : Type} (parent : ScopeId) {f : ScopeId → Eval α} :
      (∀ id, isOpen id → Composed isOpen foreign (f id)) →
        Composed isOpen foreign (.childScope parent >>= f)
  | newTable {α : Type} {f : ScopeId → Eval α} :
      (∀ id, isOpen id → Composed isOpen foreign (f id)) →
        Composed isOpen foreign ((.make fun s => s.newScope []) >>= f)
  | foreign {α : Type} {m : Eval α} : foreign α m → Composed isOpen foreign m

/-- Bind the cell of a package under its name and mark the package as loaded. -/
def Form.bindPackage (scope : ScopeId) (name : String) (cell : Cell) : Eval Unit := do
  .define scope name cell
  .modify fun s => s.markLoaded scope name

/-- An evaluator whose evaluations are made of operations and of what its packages bring in. -/
structure Evaluator.IsComposed (isOpen : ScopeId → Prop) (foreign : Foreign) (ev : Evaluator) :
    Prop where
  eval : ∀ c {scope}, isOpen scope → Composed isOpen foreign (ev.eval c scope)
  bindPackage : ∀ package ∈ ev.host.packages, ∀ {scope}, isOpen scope →
    ∀ cell, foreign Unit (Form.bindPackage scope package.name cell)
  native : ∀ package ∈ ev.host.packages, ∀ procedure ∈ package.procedures, ∀ call {scope},
    isOpen scope → Composed isOpen foreign (procedure.2.run ev.eval call scope)

/-! ### Reading -/

namespace Store

theorem isBlind_reachesWithin (target : Cell) (fuel : Nat) (c : Cell) :
    IsBlind fun s => s.reachesWithin target fuel c := by
  intro s used
  induction fuel generalizing c with
  | zero => rfl
  | succ fuel ih =>
    simp only [reachesWithin_succ, ih]
    rfl

theorem isBlind_reaches (c target : Cell) : IsBlind fun s => s.reaches c target :=
  fun s used => isBlind_reachesWithin target s.depth c s used

theorem isBlind_extent (cells : List Cell) : IsBlind fun s => s.extent cells := by
  intro s used
  induction cells with
  | nil => rfl
  | cons c cells ih =>
    simp only [extent, ih]
    rfl

theorem isBlind_follow (name : String) (location : Option Location) (c : Cell)
    (segments : List String) : IsBlind fun s => s.follow name location c segments := by
  intro s used
  induction segments generalizing c with
  | nil => rfl
  | cons segment segments ih =>
    simp only [follow]
    cases c.value.members? with
    | none => rfl
    | some members =>
      simp only
      rw [show ({ s with used } : Store).scope members = s.scope members from rfl]
      cases (s.scope members).get? segment with
      | none => rfl
      | some member => exact ih member

theorem isBlind_resolve (id : ScopeId) (name : String) (location : Option Location) :
    IsBlind fun s => s.resolve id name location := by
  intro s used
  simp only [resolve]
  rw [show ({ s with used } : Store).lookup? id (Name.segments name).1 =
    s.lookup? id (Name.segments name).1 from rfl]
  cases s.lookup? id (Name.segments name).1 with
  | none => rfl
  | some c => exact isBlind_follow name location c _ s used

theorem isBlind_stringifyWithin (id : ScopeId) (fuel : Nat) (c : Cell) :
    IsBlind fun s => s.stringifyWithin id fuel c := by
  intro s used
  induction fuel generalizing c with
  | zero => rfl
  | succ fuel ih =>
    simp only [stringifyWithin]
    cases c.value with
    | symbol name =>
      simp only [isBlind_resolve id name c.location s used, ih]
    | list =>
      simp only [ih]
      rfl
    | _ => rfl

theorem isBlind_stringify (id : ScopeId) (c : Cell) : IsBlind fun s => s.stringify id c :=
  fun s used => isBlind_stringifyWithin id s.depth c s used

theorem isBlind_quoteWithin (fuel : Nat) (c : Cell) : IsBlind fun s => s.quoteWithin fuel c := by
  intro s used
  induction fuel generalizing c with
  | zero => rfl
  | succ fuel ih =>
    simp only [quoteWithin]
    cases c.value with
    | list =>
      simp only [ih]
      rfl
    | lambda parameters body scope => simp only [ih]
    | _ => rfl

theorem isBlind_quote (c : Cell) : IsBlind fun s => s.quote c :=
  fun s used => isBlind_quoteWithin s.depth c s used

end Store

namespace Host

theorem mem_of_package {host : Host} {name : String} {package : Package}
    (h : host.package name = .ok package) : package ∈ host.packages ∧ package.name = name := by
  rw [Host.package] at h
  split at h
  · next found hfound =>
    cases h
    exact ⟨List.mem_of_find?_eq_some hfound, by simpa using List.find?_some hfound⟩
  · cases h

theorem exists_of_native? {host : Host} {package member : String} {native : Native}
    (h : host.native? package member = some native) :
    ∃ found ∈ host.packages, ∃ procedure ∈ found.procedures, procedure.2 = native := by
  obtain ⟨found, hfound, hlookup⟩ := Option.bind_eq_some_iff.1 h
  obtain ⟨front, back, hprocedures, -⟩ := List.lookup_eq_some_iff.1 hlookup
  have hmem : (member, native) ∈ found.procedures.reverse := by simp [hprocedures]
  exact ⟨found, List.mem_of_find?_eq_some hfound, _, List.mem_reverse.1 hmem, rfl⟩

end Host

namespace Composed

variable {isOpen : ScopeId → Prop} {foreign : Foreign} {α β σ : Type}

/-! ### Steps -/

theorem map {m : Eval α} (h : Composed isOpen foreign m) (f : α → β) :
    Composed isOpen foreign (f <$> m) :=
  h.bind fun a => .pure (f a)

theorem newCell (value : Value) : Composed isOpen foreign (.newCell value) :=
  .operation (.newCell value none #[])

theorem newList (items : List Cell) : Composed isOpen foreign (.newList items) :=
  .operation (.newCell .list none items.toArray)

theorem newNil : Composed isOpen foreign .newNil :=
  newCell _

theorem newBool (b : Bool) : Composed isOpen foreign (.newBool b) :=
  newCell _

theorem copy (c : Cell) : Composed isOpen foreign (.copy c) := by
  rw [Eval.copy]
  split
  · exact .operation (.newCell c.value c.location #[])
  · exact .pure c

theorem copyAll (cells : List Cell) : Composed isOpen foreign (.copyAll cells) := by
  induction cells with
  | nil => exact .pure []
  | cons c cells ih => exact (copy c).bind fun d => ih.bind fun ds => .pure (d :: ds)

theorem define {scope : ScopeId} (h : isOpen scope) (name : String) (cell : Cell) :
    Composed isOpen foreign (.define scope name cell) :=
  .operation (.define name cell h)

theorem modifyRow (id : CellId) (f : Array Cell → Array Cell) :
    Composed isOpen foreign (.modify fun s => s.modifyRow id f) :=
  .operation (.modifyRow id f)

theorem settle {m : Eval Cell} (h : Composed isOpen foreign m) :
    Composed isOpen foreign (.settle m) := by
  refine h.flow.bind fun flow => ?_
  cases flow with
  | value c => exact .pure c
  | breakOut => exact newNil
  | yieldUp c => exact .pure c

/-- A loop is made of operations if each of its rounds is. -/
theorem loop {round : σ → Eval (Round σ α)} (h : ∀ state, Composed isOpen foreign (round state))
    (rounds : Nat) (state : σ) : Composed isOpen foreign (Eval.loop round rounds state) := by
  induction rounds generalizing state with
  | zero => exact .stop .exhausted
  | succ rounds ih =>
    rw [Eval.loop_succ]
    refine (h state).bind fun r => ?_
    cases r with
    | again next => exact ih next
    | finish result => exact .pure result

theorem stringify (scope : ScopeId) (c : Cell) : Composed isOpen foreign (.stringify scope c) :=
  .bind (.readOr (Store.isBlind_stringify scope c)) fun text =>
    .bind (.work _) fun _ => .pure text

theorem stringifyAll (scope : ScopeId) (cells : List Cell) :
    Composed isOpen foreign (.stringifyAll scope cells) := by
  induction cells with
  | nil => exact .pure []
  | cons c cells ih =>
    exact (stringify scope c).bind fun text => ih.bind fun texts => .pure (text :: texts)

theorem rejectCycle (call : Call) (target value : Cell) :
    Composed isOpen foreign (call.rejectCycle target value) := by
  refine .bind (.read (Store.isBlind_reaches value target)) fun reaches => ?_
  cases reaches with
  | false => exact .pure ()
  | true => exact .stop _

theorem rejectCycles (call : Call) (target : Cell) (values : List Cell) :
    Composed isOpen foreign (call.rejectCycles target values) := by
  induction values with
  | nil => exact .pure ()
  | cons value values ih => exact (rejectCycle call target value).bind fun _ => ih

theorem giveWay : Composed isOpen foreign .giveWay := by
  refine .bind (.read fun _ _ => rfl) fun isBusy => ?_
  cases isBusy with
  | true => exact .await _
  | false => exact .pure ()

theorem lookThrough (values : List Cell) : Composed isOpen foreign (.lookThrough values) :=
  .bind (.read (Store.isBlind_extent values)) fun rounds => (work rounds).bind fun _ => giveWay

theorem bindingName (call : Call) (c : Cell) : Composed isOpen foreign (call.bindingName c) := by
  rw [Call.bindingName]
  split
  · split
    · exact .stop _
    · exact .pure _
  · exact .stop _
  · exact .stop _

theorem look {host : Host} (path : String) : Composed isOpen foreign (host.look path) := by
  rw [Host.look]
  split
  · exact .pure _
  · exact .await _

theorem firstFile (host : Host) (paths : List String) :
    Composed isOpen foreign (Search.firstFile host.look paths) := by
  induction paths with
  | nil => exact .pure none
  | cons path paths ih =>
    refine (look path).bind fun entry => ?_
    cases entry with
    | file content => exact .pure _
    | _ => exact ih

theorem find (host : Host) (name : String) :
    Composed isOpen foreign (Search.find host.look host.roots name) := by
  refine (firstFile host _).bind fun found => ?_
  split <;> exact .pure _

section Forms

variable {ev : Evaluator} (hev : ev.IsComposed isOpen foreign) (call : Call) {scope : ScopeId}
  (hscope : isOpen scope)

include hev hscope

theorem evalAll (cells : List Cell) : Composed isOpen foreign (ev.evalAll scope cells) := by
  induction cells with
  | nil => exact .pure []
  | cons c cells ih => exact (hev.eval c hscope).bind fun value => ih.bind fun _ => .pure _

theorem evalLast? (cells : List Cell) : Composed isOpen foreign (ev.evalLast? scope cells) := by
  fun_induction Evaluator.evalLast? ev scope cells with
  | case1 => exact .pure none
  | case2 c => exact (hev.eval c hscope).map some
  | case3 c cells _ ih => exact (hev.eval c hscope).bind fun _ => ih

theorem evaluate (c : Cell) : Composed isOpen foreign (ev.evaluate c scope) :=
  (hev.eval c hscope).settle

/-! ### Forms on numbers -/

omit hev hscope in
theorem numbers (operands values : List Cell) :
    Composed isOpen foreign (Form.numbers call operands values) := by
  fun_induction Form.numbers call operands values with
  | case1 operand operands value values n hn ih => exact ih.bind fun ns => .pure (n :: ns)
  | case2 => exact .stop _
  | case3 => exact .pure []

omit hev hscope in
theorem integers (operands values : List Cell) :
    Composed isOpen foreign (Form.integers call operands values) := by
  fun_induction Form.integers call operands values with
  | case1 operand operands value values n hn ih => exact ih.bind fun ns => .pure (n :: ns)
  | case2 => exact .stop _
  | case3 => exact .pure []

theorem numberOperands : Composed isOpen foreign (Form.numberOperands ev call scope) := by
  rw [Form.numberOperands]
  split
  · refine (evalAll hev hscope _).bind fun values => (numbers call _ values).bind fun ns => ?_
    cases ns with
    | nil => exact .stop _
    | cons n ns => exact .pure (n, ns)
  · exact .stop _

theorem arithmetic (op : ArithmeticOp) :
    Composed isOpen foreign (Form.arithmetic op ev call scope) :=
  (numberOperands hev call hscope).bind fun _ => newCell _

theorem comparison (op : ComparisonOp) :
    Composed isOpen foreign (Form.comparison op ev call scope) :=
  (numberOperands hev call hscope).bind fun _ => newBool _

theorem logic (op : LogicOp) : Composed isOpen foreign (Form.logic op ev call scope) :=
  (numberOperands hev call hscope).bind fun _ => newBool _

theorem negation : Composed isOpen foreign (Form.negation ev call scope) := by
  simp only [Form.negation]
  split
  · exact (hev.eval _ hscope).bind fun value => .bind (.read fun _ _ => rfl) fun _ => newBool _
  · exact .stop _

theorem bitwise (op : BitOp) : Composed isOpen foreign (Form.bitwise op ev call scope) := by
  simp only [Form.bitwise]
  split
  · refine (evalAll hev hscope _).bind fun values => (integers call _ values).bind fun ns => ?_
    cases ns with
    | nil => exact .stop _
    | cons n ns => exact newCell _
  · exact .stop _

theorem shift (op : ShiftOp) : Composed isOpen foreign (Form.shift op ev call scope) := by
  simp only [Form.shift]
  split
  · refine (evalAll hev hscope _).bind fun values => (integers call _ values).bind fun ns => ?_
    split
    · split
      · exact newCell _
      · exact .stop _
    · exact .stop _
  · exact .stop _

theorem bitNot : Composed isOpen foreign (Form.bitNot ev call scope) := by
  simp only [Form.bitNot]
  split
  · refine (hev.eval _ hscope).bind fun value => ?_
    split
    · exact newCell _
    · exact .stop _
  · exact .stop _

/-! ### Forms that bind names -/

theorem defineForm : Composed isOpen foreign (Form.define ev call scope) := by
  have hbind : ∀ name value, Composed isOpen foreign (Form.define.bind name value scope) :=
    fun name value => (copy value).bind fun bound =>
      (define hscope name bound).bind fun _ => .pure bound
  simp only [Form.define]
  split
  · exact (bindingName call _).bind fun name => (newList []).bind fun value => hbind name value
  · exact (bindingName call _).bind fun name => (hev.eval _ hscope).bind fun value =>
      hbind name value
  · exact .stop _

theorem assignForm : Composed isOpen foreign (Form.assign ev call scope) := by
  have hname : ∀ c, Composed isOpen foreign (Form.assignedName call c) := by
    intro c
    rw [Form.assignedName]
    split
    · exact .pure _
    · exact .stop _
    · exact .stop _
  simp only [Form.assign]
  split
  · exact (hname _).bind fun name => (hev.eval _ hscope).bind fun value =>
      (copy value).bind fun bound => .bind (.assign scope name bound _) fun _ => .pure bound
  · exact .stop _

omit hev hscope in
theorem parameterNames (cells : List Cell) :
    Composed isOpen foreign (Form.parameterNames call cells) := by
  fun_induction Form.parameterNames call cells with
  | case1 => exact .pure []
  | case2 => exact .stop _
  | case3 c cells name _ _ ih => exact ih.bind fun names => .pure (name :: names)
  | case4 => exact .stop _

omit hev hscope in
theorem lambda (ev : Evaluator) (scope : ScopeId) :
    Composed isOpen foreign (Form.lambda ev call scope) := by
  simp only [Form.lambda]
  split
  · split
    · exact .bind (.read fun _ _ => rfl) fun cells => (parameterNames call cells).bind fun _ =>
        newCell _
    · exact .stop _
  · exact .stop _

theorem box : Composed isOpen foreign (Form.box ev call scope) := by
  simp only [Form.box]
  split
  · refine (bindingName call _).bind fun name => .childScope scope fun members hmembers => ?_
    exact (hev.eval _ hmembers).bind fun _ => (newCell _).bind fun cell =>
      (define hscope name cell).bind fun _ => newBool true
  · exact .stop _

/-! ### Forms that steer the evaluation -/

theorem block : Composed isOpen foreign (Form.block ev call scope) := by
  refine (evalLast? hev hscope _).bind fun last => ?_
  cases last with
  | none => exact newNil
  | some value => exact .pure value

theorem ifElse : Composed isOpen foreign (Form.ifElse ev call scope) := by
  simp only [Form.ifElse]
  split
  · refine (hev.eval _ hscope).bind fun value => .bind (.read fun _ _ => rfl) fun holds => ?_
    split
    · exact hev.eval _ hscope
    · exact newBool true
  · refine (hev.eval _ hscope).bind fun value => .bind (.read fun _ _ => rfl) fun holds => ?_
    split
    · exact hev.eval _ hscope
    · exact hev.eval _ hscope
  · exact .stop _

omit hev hscope in
theorem leave : Composed isOpen foreign (Form.leave : Eval (Round σ Cell)) :=
  newNil.bind fun result => .pure (Round.finish result)

omit hev hscope in
theorem unlessLeft (flow : Flow) {next : Eval (Round σ Cell)} (h : Composed isOpen foreign next) :
    Composed isOpen foreign (Form.unlessLeft flow next) := by
  cases flow with
  | value c => exact h
  | breakOut => exact leave
  | yieldUp c => exact .stop _

omit hscope in
theorem loopRound (condition post body : Cell) (outer : ScopeId) (state : Unit) :
    Composed isOpen foreign (Form.loopRound ev condition post body outer state) := by
  refine .childScope outer fun scope hscope => ?_
  refine (hev.eval condition hscope).bind fun value => .bind (.read fun _ _ => rfl) fun holds => ?_
  split
  · refine (hev.eval body hscope).flow.bind fun flow => unlessLeft flow ?_
    refine (hev.eval post hscope).flow.bind fun flow => unlessLeft flow ?_
    exact .bind (.work 1) fun _ => .pure (Round.again ())
  · exact leave

omit hscope in
theorem loopForm (scope : ScopeId) : Composed isOpen foreign (Form.loop ev call scope) := by
  simp only [Form.loop]
  split
  · exact .childScope scope fun outer houter => (hev.eval _ houter).bind fun _ =>
      loop (loopRound hev _ _ _ outer) ev.rounds ()
  · exact .stop _

omit hev hscope in
theorem writeBack (name : String) (source : Cell) (index : Nat) (inner : ScopeId) :
    Composed isOpen foreign (Form.writeBack call name source index inner) := by
  refine .bind (.read fun _ _ => rfl) fun found => ?_
  cases found with
  | none => exact .pure ()
  | some current =>
    exact (rejectCycle call source current).bind fun _ => (lookThrough [current]).bind fun _ =>
      modifyRow source.id _

omit hscope in
theorem visit (name : String) (source body : Cell) (scope : ScopeId) (index : Nat) :
    Composed isOpen foreign (Form.visit ev call name source body scope index) := by
  refine .bind (.read fun _ _ => rfl) fun found => ?_
  cases found with
  | none => exact leave
  | some item =>
    refine .childScope scope fun inner hinner => (define hinner name item).bind fun _ => ?_
    refine (hev.eval body hinner).flow.bind fun flow => ?_
    refine (writeBack call name source index inner).bind fun _ => unlessLeft flow ?_
    exact .bind (.work 1) fun _ => .pure _

theorem iterate : Composed isOpen foreign (Form.iterate ev call scope) := by
  simp only [Form.iterate]
  split
  · refine (bindingName call _).bind fun name => (hev.eval _ hscope).bind fun source => ?_
    split
    · exact loop (visit hev call name source _ scope) ev.rounds 0
    · exact .stop _
  · exact .stop _

omit hev hscope in
theorem breakOut (ev : Evaluator) (scope : ScopeId) :
    Composed isOpen foreign (Form.breakOut ev call scope) := by
  rw [Form.breakOut]
  split
  · exact .stop _
  · exact .stop _

theorem yieldUp : Composed isOpen foreign (Form.yieldUp ev call scope) := by
  simp only [Form.yieldUp]
  split
  · exact (hev.eval _ hscope).bind fun value => .stop _
  · exact .stop _

theorem tryOr : Composed isOpen foreign (Form.tryOr ev call scope) := by
  simp only [Form.tryOr]
  split
  · refine (hev.eval _ hscope).attempt.bind fun outcome => ?_
    cases outcome with
    | ok value => exact .pure value
    | error fault =>
      exact .childScope scope fun inner hinner => (newCell _).bind fun text =>
        (define hinner _ text).bind fun _ => hev.eval _ hinner
  · exact .stop _

theorem raise : Composed isOpen foreign (Form.raise ev call scope) := by
  simp only [Form.raise]
  split
  · exact (hev.eval _ hscope).bind fun value => (stringify scope value).bind fun _ => .stop _
  · exact .stop _

theorem assertEach (label : String) (conditions : List Cell) :
    Composed isOpen foreign (Form.assertEach ev call label scope conditions) := by
  induction conditions with
  | nil => exact .pure ()
  | cons condition conditions ih =>
    refine (hev.eval condition hscope).bind fun value => ?_
    split
    · exact ih
    · exact .stop _
    · exact .stop _

theorem assertAll : Composed isOpen foreign (Form.assertAll ev call scope) := by
  simp only [Form.assertAll]
  split
  · split
    · exact (assertEach hev call hscope _ _).bind fun _ => newBool true
    · exact .stop _
  · exact .stop _

theorem exitProcess : Composed isOpen foreign (Form.exitProcess ev call scope) := by
  simp only [Form.exitProcess]
  split
  · refine (hev.eval _ hscope).bind fun value => ?_
    split
    · exact .stop _
    · exact .stop _
  · exact .stop _

/-! ### Forms that make, inspect and convert values -/

omit hev hscope in
theorem constant (ev : Evaluator) (scope : ScopeId) (value : Value) :
    Composed isOpen foreign (Form.constant value ev call scope) := by
  rw [Form.constant]
  split
  · exact newCell value
  · exact .stop _

theorem onlyOperand : Composed isOpen foreign (Form.onlyOperand ev call scope) := by
  rw [Form.onlyOperand]
  split
  · exact hev.eval _ hscope
  · exact .stop _

theorem isNil : Composed isOpen foreign (Form.isNil ev call scope) :=
  (onlyOperand hev call hscope).bind fun _ => newBool _

theorem typeOf : Composed isOpen foreign (Form.typeOf ev call scope) :=
  (onlyOperand hev call hscope).bind fun _ => newCell _

theorem asInteger : Composed isOpen foreign (Form.asInteger ev call scope) := by
  refine (onlyOperand hev call hscope).bind fun value => ?_
  split
  · exact newCell _
  · exact .stop _

theorem asReal : Composed isOpen foreign (Form.asReal ev call scope) := by
  refine (onlyOperand hev call hscope).bind fun value => ?_
  split
  · exact newCell _
  · exact .stop _

theorem asString : Composed isOpen foreign (Form.asString ev call scope) :=
  (onlyOperand hev call hscope).bind fun value => (stringify scope value).bind fun _ => newCell _

theorem textComparison (same : Bool) :
    Composed isOpen foreign (Form.textComparison same ev call scope) := by
  simp only [Form.textComparison]
  split
  · refine (hev.eval _ hscope).bind fun first => (stringify scope first).bind fun left => ?_
    exact (hev.eval _ hscope).bind fun second => (stringify scope second).bind fun _ => newBool _
  · exact .stop _

theorem output (ending : String) : Composed isOpen foreign (Form.output ending ev call scope) :=
  (evalAll hev hscope _).bind fun values => (stringifyAll scope values).bind fun texts =>
    .bind (.operation (.write (String.join texts ++ ending))) fun _ => newBool true

/-! ### Forms on lists and strings -/

omit hev hscope in
theorem expectList (operand value : Cell) :
    Composed isOpen foreign (Form.expectList call operand value) := by
  rw [Form.expectList]
  split
  · exact .pure ()
  · exact .stop _

omit hev hscope in
theorem indexOf (operand value : Cell) :
    Composed isOpen foreign (Form.indexOf call operand value) := by
  rw [Form.indexOf]
  split
  · exact .stop _
  · split
    · exact .pure _
    · exact .stop _

omit hev hscope in
theorem itemOrNil (item : Option Cell) : Composed isOpen foreign (Form.itemOrNil item) := by
  cases item with
  | none => exact newNil
  | some item => exact .pure item

theorem list : Composed isOpen foreign (Form.list ev call scope) :=
  (evalAll hev hscope _).bind fun values => (copyAll values).bind fun items => newList items

theorem push : Composed isOpen foreign (Form.push ev call scope) := by
  simp only [Form.push]
  split
  · refine (hev.eval _ hscope).bind fun target => (expectList call _ target).bind fun _ => ?_
    refine (evalAll hev hscope _).bind fun values => ?_
    refine (rejectCycles call target values).bind fun _ => (lookThrough values).bind fun _ => ?_
    exact (copyAll values).bind fun added => (modifyRow target.id _).bind fun _ => newBool true
  · exact .stop _

theorem onlyList : Composed isOpen foreign (Form.onlyList ev call scope) := by
  rw [Form.onlyList]
  split
  · exact (hev.eval _ hscope).bind fun target => (expectList call _ target).bind fun _ =>
      .pure target
  · exact .stop _

theorem pop : Composed isOpen foreign (Form.pop ev call scope) :=
  (onlyList hev call hscope).bind fun target => (modifyRow target.id _).bind fun _ => newBool true

theorem clear : Composed isOpen foreign (Form.clear ev call scope) :=
  (onlyList hev call hscope).bind fun target => (modifyRow target.id _).bind fun _ => newBool true

theorem front : Composed isOpen foreign (Form.front ev call scope) :=
  (onlyList hev call hscope).bind fun _ => .bind (.read fun _ _ => rfl) itemOrNil

theorem back : Composed isOpen foreign (Form.back ev call scope) :=
  (onlyList hev call hscope).bind fun _ => .bind (.read fun _ _ => rfl) itemOrNil

theorem elementAt : Composed isOpen foreign (Form.elementAt ev call scope) := by
  simp only [Form.elementAt]
  split
  · refine (hev.eval _ hscope).bind fun value => (indexOf call _ value).bind fun index => ?_
    refine (hev.eval _ hscope).bind fun target => (expectList call _ target).bind fun _ => ?_
    exact .bind (.read fun _ _ => rfl) itemOrNil
  · exact .stop _

theorem setAt : Composed isOpen foreign (Form.setAt ev call scope) := by
  simp only [Form.setAt]
  split
  · refine (hev.eval _ hscope).bind fun number => (indexOf call _ number).bind fun index => ?_
    refine (hev.eval _ hscope).bind fun target => (expectList call _ target).bind fun _ => ?_
    refine (hev.eval _ hscope).bind fun value => (rejectCycle call target value).bind fun _ => ?_
    refine (lookThrough [value]).bind fun _ => .bind (.read fun _ _ => rfl) fun length => ?_
    split
    · exact (copy value).bind fun item => (modifyRow target.id _).bind fun _ => newBool true
    · exact .stop _
  · exact .stop _

theorem length : Composed isOpen foreign (Form.length ev call scope) := by
  simp only [Form.length]
  split
  · refine (hev.eval _ hscope).bind fun target => ?_
    split
    · exact .bind (.read fun _ _ => rfl) fun _ => newCell _
    · exact newCell _
    · exact .stop _
  · exact .stop _

theorem reverse : Composed isOpen foreign (Form.reverse ev call scope) := by
  simp only [Form.reverse]
  split
  · refine (hev.eval _ hscope).bind fun target => ?_
    split
    · exact .bind (.read fun _ _ => rfl) fun items => newList items.reverse
    · exact newCell _
    · exact .stop _
  · exact .stop _

/-! ### Forms on source text -/

theorem runTree (tree : Tree) : Composed isOpen foreign (ev.runTree scope tree) :=
  .bind (.operation (.load tree)) fun code => evaluate hev hscope code

theorem runTrees (trees : List Tree) : Composed isOpen foreign (ev.runTrees scope trees) := by
  fun_induction Evaluator.runTrees ev scope trees with
  | case1 => exact .pure none
  | case2 tree => exact (runTree hev hscope tree).map some
  | case3 tree trees _ ih => exact (runTree hev hscope tree).bind fun _ => ih

theorem runText (origin : Option String) (text : String) :
    Composed isOpen foreign (ev.runText origin text scope) := by
  refine .bind (.work 1) fun _ => .bind (.work _) fun _ => ?_
  cases parse origin text with
  | error error => exact .stop _
  | ok trees =>
    refine (runTrees hev hscope trees).bind fun last => ?_
    cases last with
    | none => exact newNil
    | some value => exact .pure value

theorem importModule (operand : Cell) :
    Composed isOpen foreign (Form.importModule ev call scope operand) := by
  rw [Form.importModule]
  split
  · exact .stop _
  · refine (find ev.host _).bind fun found => ?_
    cases found with
    | error error => exact .stop _
    | ok source =>
      exact .bind (.await _) fun _ => (runText hev hscope _ _).bind fun _ => .pure ()

theorem importEach (operands : List Cell) :
    Composed isOpen foreign (Form.importEach ev call scope operands) := by
  induction operands with
  | nil => exact .pure ()
  | cons operand operands ih => exact (importModule hev call hscope operand).bind fun _ => ih

theorem importModules : Composed isOpen foreign (Form.importModules ev call scope) := by
  simp only [Form.importModules]
  split
  · exact .stop _
  · exact (importEach hev call hscope _).bind fun _ => newBool true

omit hev hscope in
theorem bindMembers {members : ScopeId} (h : isOpen members) (package : String)
    (procedures : List (String × Native)) :
    Composed isOpen foreign (Form.bindMembers package members procedures) := by
  induction procedures with
  | nil => exact .pure ()
  | cons procedure procedures ih =>
    exact (newCell _).bind fun cell => (define h _ cell).bind fun _ => ih

theorem usePackage (operand : Cell) :
    Composed isOpen foreign (Form.usePackage ev call scope operand) := by
  rw [Form.usePackage]
  split
  · exact .stop _
  · next name _ =>
    refine .bind (.read fun _ _ => rfl) fun loaded => ?_
    cases loaded with
    | true => exact .pure ()
    | false =>
      cases hpackage : ev.host.package name with
      | error error => exact .stop _
      | ok package =>
        obtain ⟨hmem, rfl⟩ := Host.mem_of_package hpackage
        refine .childScope scope fun members hmembers => ?_
        exact (bindMembers hmembers _ _).bind fun _ => (newCell _).bind fun cell =>
          .foreign (hev.bindPackage package hmem hscope cell)

theorem useEach (operands : List Cell) :
    Composed isOpen foreign (Form.useEach ev call scope operands) := by
  induction operands with
  | nil => exact .pure ()
  | cons operand operands ih => exact (usePackage hev call hscope operand).bind fun _ => ih

theorem usePackages : Composed isOpen foreign (Form.usePackages ev call scope) := by
  simp only [Form.usePackages]
  split
  · exact .stop _
  · exact (useEach hev call hscope _).bind fun _ => newBool true

omit hev hscope in
theorem compose (ev : Evaluator) (scope : ScopeId) :
    Composed isOpen foreign (Form.compose ev call scope) := by
  simp only [Form.compose]
  split
  · exact .bind (.read (Store.isBlind_quote _)) fun _ => newCell _
  · exact .stop _

theorem decompose : Composed isOpen foreign (Form.decompose ev call scope) := by
  simp only [Form.decompose]
  split
  · refine (hev.eval _ hscope).bind fun value => ?_
    split
    · exact .bind (.await _) fun _ => runText hev hscope none _
    · exact .stop _
  · exact .stop _

/-! ### Forms on tasks, channels and references -/

omit hev hscope in
theorem bindMethods {members : ScopeId} (h : isOpen members) (methods : List Method) :
    Composed isOpen foreign (Form.bindMethods members methods) := by
  induction methods with
  | nil => exact .pure ()
  | cons method methods ih =>
    exact (newCell _).bind fun cell => (define h _ cell).bind fun _ => ih

omit hev hscope in
theorem newHandle (kind : HandleKind) (methods : List Method) :
    Composed isOpen foreign (Form.newHandle kind methods) :=
  .newTable fun _ hmembers => (bindMethods hmembers methods).bind fun _ => newCell _

omit hev hscope in
theorem startTask (scope : ScopeId) : Composed isOpen foreign (Form.startTask call scope) := by
  rw [Form.startTask]
  split
  · exact .childScope scope fun inner _ => .operation (.newTask _ inner)
  · exact .stop _

omit hev hscope in
theorem spawnAsync (ev : Evaluator) (scope : ScopeId) :
    Composed isOpen foreign (Form.spawnAsync ev call scope) :=
  (startTask call scope).bind fun _ => newHandle _ _

omit hev hscope in
theorem spawnThread (ev : Evaluator) (scope : ScopeId) :
    Composed isOpen foreign (Form.spawnThread ev call scope) :=
  (startTask call scope).bind fun _ => newHandle _ _

omit hev hscope in
theorem channel (ev : Evaluator) (scope : ScopeId) :
    Composed isOpen foreign (Form.channel ev call scope) := by
  simp only [Form.channel]
  split
  · exact .bind (.operation .newChannel) fun _ => newHandle _ _
  · exact .stop _

omit hev hscope in
theorem referenceTo (initial : Option Cell) : Composed isOpen foreign (Form.referenceTo initial) :=
  .bind (.operation (.newReference initial)) fun _ => newHandle _ _

theorem reference : Composed isOpen foreign (Form.reference ev call scope) := by
  simp only [Form.reference]
  split
  · exact referenceTo none
  · exact (hev.eval _ hscope).bind fun value => (copy value).bind fun copied =>
      referenceTo (some copied)
  · exact .stop _

omit hev hscope in
theorem awaitTask (task : TaskId) : Composed isOpen foreign (Form.awaitTask task) := by
  refine .bind (.read fun _ _ => rfl) fun result => ?_
  cases result with
  | none => exact .await (.completion task)
  | some result => exact .pure result

omit hev hscope in
theorem release (task : TaskId) : Composed isOpen foreign (Form.release call task) := by
  refine .bind (.read fun _ _ => rfl) fun joinable => ?_
  split
  · exact .operation (.modifyTask task _)
  · exact .stop _

omit hev hscope in
theorem noOperands : Composed isOpen foreign (Form.noOperands call) := by
  rw [Form.noOperands]
  split
  · exact .pure ()
  · exact .stop _

theorem send (channel : ChannelId) (operands : List Cell) :
    Composed isOpen foreign (Form.send ev channel operands scope) :=
  (evalAll hev hscope operands).bind fun values => (copyAll values).bind fun _ =>
    .bind (.await _) fun _ => newBool true

theorem method (m : Method) : Composed isOpen foreign (Form.method m ev call scope) := by
  cases m with
  | waitFor task =>
    exact (noOperands call).bind fun _ => (awaitTask task).bind fun _ => newBool true
  | resultOf task => exact (noOperands call).bind fun _ => awaitTask task
  | join task =>
    exact (noOperands call).bind fun _ => (release call task).bind fun _ =>
      (awaitTask task).bind fun _ => newBool true
  | detach task =>
    exact (noOperands call).bind fun _ => (release call task).bind fun _ => newBool true
  | isJoinable task =>
    exact (noOperands call).bind fun _ => .bind (.read fun _ _ => rfl) fun _ => newBool _
  | threadName task => exact (noOperands call).bind fun _ => newCell _
  | send channel =>
    simp only [Form.method]
    split
    · exact newBool false
    · exact send hev hscope channel _
  | receive channel => exact (noOperands call).bind fun _ => .await _
  | hasData channel => exact (noOperands call).bind fun _ => .bind (.await _) fun _ => newBool _
  | drain channel => exact (noOperands call).bind fun _ => .bind (.await _) newList
  | write reference =>
    simp only [Form.method]
    split
    · exact (hev.eval _ hscope).bind fun value => (copy value).bind fun copied =>
        .bind (.operation (.writeReference reference copied)) fun _ => .pure copied
    · exact .stop _
  | read reference =>
    refine (noOperands call).bind fun _ => .bind (.read fun _ _ => rfl) fun found => ?_
    cases found with
    | none => exact newNil
    | some value => exact .pure value

/-! ### Evaluation -/

theorem form (k : Keyword) : Composed isOpen foreign (k.form ev call scope) := by
  cases k with
  | front => exact front hev call hscope
  | back => exact back hev call hscope
  | push => exact push hev call hscope
  | pop => exact pop hev call hscope
  | list => exact list hev call hscope
  | assign => exact assignForm hev call hscope
  | lambda => exact lambda call ev scope
  | block => exact block hev call hscope
  | length => exact length hev call hscope
  | put | putLine => exact output hev call hscope _
  | ifElse => exact ifElse hev call hscope
  | equal | notEqual | atMost | atLeast | below | above => exact comparison hev call hscope _
  | sameText | otherText => exact textComparison hev call hscope _
  | assertAll => exact assertAll hev call hscope
  | loop => exact loopForm hev call scope
  | typeOf => exact typeOf hev call hscope
  | importModule => exact importModules hev call hscope
  | usePackage => exact usePackages hev call hscope
  | iterate => exact iterate hev call hscope
  | not => exact negation hev call hscope
  | or | and | xor => exact logic hev call hscope _
  | breakOut => exact breakOut call ev scope
  | elementAt => exact elementAt hev call hscope
  | clear => exact clear hev call hscope
  | compose => exact compose call ev scope
  | decompose => exact decompose hev call hscope
  | box => exact box hev call hscope
  | truth | falsity | nil => exact constant call ev scope _
  | isNil => exact isNil hev call hscope
  | add | subtract | divide | multiply | modulo => exact arithmetic hev call hscope _
  | define => exact defineForm hev call hscope
  | exitProcess => exact exitProcess hev call hscope
  | yieldUp => exact yieldUp hev call hscope
  | tryOr => exact tryOr hev call hscope
  | asInteger => exact asInteger hev call hscope
  | asString => exact asString hev call hscope
  | asReal => exact asReal hev call hscope
  | raise => exact raise hev call hscope
  | bitAnd | bitOr | bitXor => exact bitwise hev call hscope _
  | shiftLeft | shiftRight => exact shift hev call hscope _
  | bitNot => exact bitNot hev call hscope
  | reverse => exact reverse hev call hscope
  | setAt => exact setAt hev call hscope
  | spawnAsync => exact spawnAsync call ev scope
  | spawnThread => exact spawnThread call ev scope
  | channel => exact channel call ev scope
  | reference => exact reference hev call hscope

omit hev hscope in
theorem bindParameters {frame : ScopeId} (h : isOpen frame) (parameters : List String)
    (values : List Cell) :
    Composed isOpen foreign (Evaluator.bindParameters frame parameters values) := by
  fun_induction Evaluator.bindParameters frame parameters values with
  | case1 parameter parameters value values ih =>
    exact (copy value).bind fun bound => (define h parameter bound).bind fun _ => ih
  | case2 => exact .pure ()

theorem applyLambda (site : Cell) (parameters : List String) (body : Cell) (captured : ScopeId)
    (operands : List Cell) :
    Composed isOpen foreign (ev.applyLambda site parameters body captured operands scope) := by
  refine (evalAll hev hscope operands).bind fun values => ?_
  split
  · refine .childScope captured fun frame hframe => ?_
    exact (bindParameters hframe parameters values).bind fun _ => .bind (.work 1) fun _ =>
      evaluate hev hframe body
  · exact .stop _

theorem apply (site callee : Cell) (operands : List Cell) :
    Composed isOpen foreign (ev.apply site callee operands scope) := by
  rw [Evaluator.apply]
  split
  · exact applyLambda hev hscope site _ _ _ operands
  · rename_i p _
    cases p with
    | builtIn k => exact form hev _ hscope k
    | method m => exact method hev _ hscope m
    | native package member name =>
      simp only
      split
      · next native hnative =>
        obtain ⟨found, hfound, procedure, hprocedure, rfl⟩ := Host.exists_of_native? hnative
        exact hev.native found hfound procedure hprocedure _ hscope
      · exact .pure callee
  · exact .pure callee

theorem step (c : Cell) : Composed isOpen foreign (ev.step c scope) := by
  rw [Evaluator.step]
  split
  · exact .readOr (Store.isBlind_resolve scope _ _)
  · exact .pure _
  · refine .bind (.read fun _ _ => rfl) fun items => ?_
    cases items with
    | nil => exact newNil
    | cons head operands =>
      exact (hev.eval head hscope).bind fun callee => apply hev hscope c callee operands
  · exact .pure c

end Forms

end Composed

/-- Every evaluation is made of operations and of what the packages of the host bring in. -/
theorem isComposed_evaluator_of_packages {host : Host} {isOpen : ScopeId → Prop} {foreign : Foreign}
    (hbind : ∀ package ∈ host.packages, ∀ {scope}, isOpen scope →
      ∀ cell, foreign Unit (Form.bindPackage scope package.name cell))
    (hnative : ∀ package ∈ host.packages, ∀ procedure ∈ package.procedures,
      ∀ eval : Cell → ScopeId → Eval Cell,
        (∀ c {scope}, isOpen scope → Composed isOpen foreign (eval c scope)) →
        ∀ call {scope}, isOpen scope → Composed isOpen foreign (procedure.2.run eval call scope))
    (fuel : Nat) : (evaluator host fuel).IsComposed isOpen foreign := by
  have hof (fuel : Nat) (heval : ∀ c {scope}, isOpen scope →
      Composed isOpen foreign (BracketScript.eval host fuel c scope)) :
      (evaluator host fuel).IsComposed isOpen foreign :=
    ⟨heval, hbind, fun package hpackage procedure hprocedure =>
      hnative package hpackage procedure hprocedure _ heval⟩
  induction fuel with
  | zero => exact hof 0 fun _ _ _ => .stop .exhausted
  | succ fuel ih => exact hof (fuel + 1) fun c _ hscope => Composed.step ih hscope c

/-- Without packages of the host, every evaluation is made of operations. -/
theorem isComposed_evaluator {host : Host} (h : host.packages = []) (isOpen : ScopeId → Prop)
    (fuel : Nat) : (evaluator host fuel).IsComposed isOpen .none :=
  isComposed_evaluator_of_packages (by simp [h]) (by simp [h]) fuel

end BracketScript
