import BracketScript.Package.Math
import BracketScript.Proofs.Lexical
import BracketScript.Proofs.Operands
import BracketScript.Proofs.Preservation

/-!
# Loading packages

A package is marked in the scope that it is loaded into, right after its name was bound there. Marks
are made nowhere else and bindings are never taken away, so that a package that counts as loaded can
be looked up. This holds of everything that programs do, as long as the procedures of the host leave
the scopes to the evaluator.

A call that loads packages stops at the first operand that cannot be used. What it has loaded until
then stays loaded, and is passed over when the call is repeated; so the repeated call comes to the
same operand in the store that the first one left, and changes no scope.
-/

namespace BracketScript

variable {α : Type}

/-! ### Marks -/

namespace Store

variable {s t u : Store}

/-- Names stay bound, and no mark is made. -/
structure KeepsMarks (s t : Store) : Prop where
  names : s.KeepsNames 0 root t
  packages_eq : ∀ id, (t.scope id).packages = (s.scope id).packages

theorem KeepsMarks.of_scopes_eq (h : t.scopes = s.scopes) : s.KeepsMarks t :=
  ⟨.of_scopes_eq h, fun id => by rw [scope, h, scope]⟩

theorem KeepsMarks.trans (h : s.KeepsMarks t) (h' : t.KeepsMarks u) : s.KeepsMarks u :=
  ⟨h.names.trans h'.names, fun id => (h'.packages_eq id).trans (h.packages_eq id)⟩

theorem keepsMarks_newCell (s : Store) (value : Value) :
    s.KeepsMarks (s.newCell value none #[]).2 :=
  .of_scopes_eq rfl

theorem keepsMarks_define (s : Store) (id : ScopeId) (name : String) (cell : Cell) :
    s.KeepsMarks (s.define id name cell) where
  names := .define cell (.inr (.inl (Nat.zero_le _)))
  packages_eq other := by
    rw [scope_define]
    split <;> rfl

theorem keepsMarks_newScope (s : Store) (outer : List ScopeId) :
    s.KeepsMarks (s.newScope outer).2 where
  names := .newScope outer (Nat.zero_le _)
  packages_eq id := by
    rw [scope_newScope]
    split
    · next hid =>
      rw [scope, Arena.get_of_size_le s.scopes (Nat.le_of_eq hid.symm)]
      rfl
    · rfl

theorem scope_markLoaded (s : Store) (id other : ScopeId) (name : String) :
    (s.markLoaded id name).scope other =
      if id.index = other.index ∧ other.index < s.scopes.size then (s.scope other).mark name
      else s.scope other :=
  Arena.get_modify s.scopes id.index other.index fun scope => scope.mark name

/-- Every package that is marked in a scope has its name bound in the same scope. -/
def MarksBound (s : Store) : Prop :=
  ∀ id name, name ∈ (s.scope id).packages → (s.scope id).binds name = true

theorem MarksBound.of_keepsMarks (h : s.MarksBound) (hst : s.KeepsMarks t) : t.MarksBound :=
  fun id name hname =>
    hst.names.binds_of_binds id name (h id name (hst.packages_eq id ▸ hname))

theorem marksBound_initial : initial.MarksBound := by
  intro id name hname
  have hscope : initial.scope id = default := by
    rw [scope, initial, Arena.get_push]
    split
    · rfl
    · rfl
  rw [hscope] at hname
  cases hname

/-- A mark may be made where its name has just been bound. -/
theorem MarksBound.markLoaded (h : s.MarksBound) (scope : ScopeId) (name : String) (cell : Cell) :
    ((s.define scope name cell).markLoaded scope name).MarksBound := by
  have hdefine := h.of_keepsMarks (s.keepsMarks_define scope name cell)
  intro id other hother
  rw [scope_markLoaded] at hother ⊢
  split at hother
  · next hid =>
    rw [if_pos hid]
    rcases List.mem_cons.1 hother with rfl | hold
    · have hdefined : id.index < s.scopes.size := by simpa [define] using hid.2
      rw [scope_define, if_pos ⟨hid.1, hdefined⟩, Scope.binds]
      change (((s.scope id).set other cell).get? other).isSome = true
      rw [Scope.get?_set, if_pos rfl]
      rfl
    · exact hdefine id other hold
  · next hid =>
    rw [if_neg hid]
    exact hdefine id other hother

theorem MarksBound.isSome_lookup? (h : s.MarksBound) {id : ScopeId} {name : String}
    (hloaded : s.isLoaded id name = true) : (s.lookup? id name).isSome := by
  obtain ⟨other, hother, hmark⟩ := List.any_eq_true.1 hloaded
  rw [lookup?, List.findSome?_isSome_iff]
  exact ⟨other, hother, h other name (by simpa using hmark)⟩

end Store

/-! ### Procedures of the host -/

/-- The evaluation calls the given one on whatever it likes, and apart from that it does not touch
scopes. -/
inductive LeavesScopes (eval : Cell → ScopeId → Eval Cell) : {α : Type} → Eval α → Prop
  | own {α : Type} {m : Eval α} :
      (∀ s, Run.Preserves (fun s t => t.scopes = s.scopes) s (m s)) → LeavesScopes eval m
  | call (c : Cell) (scope : ScopeId) : LeavesScopes eval (eval c scope)
  | bind {α β : Type} {m : Eval α} {f : α → Eval β} :
      LeavesScopes eval m → (∀ a, LeavesScopes eval (f a)) → LeavesScopes eval (m >>= f)
  | flow {m : Eval Cell} : LeavesScopes eval m → LeavesScopes eval m.flow
  | attempt {α : Type} {m : Eval α} : LeavesScopes eval m → LeavesScopes eval m.attempt

/-- The procedures of the package do not touch scopes. -/
def Package.LeavesScopes (package : Package) : Prop :=
  ∀ procedure ∈ package.procedures, ∀ eval call scope,
    BracketScript.LeavesScopes eval (procedure.2.run eval call scope)

/-- What packages bring in: evaluations that do not touch scopes, and the binding of a package
together with its mark. -/
inductive Packaged : Foreign
  | own {α : Type} {m : Eval α} :
      (∀ s, Run.Preserves (fun s t => t.scopes = s.scopes) s (m s)) → Packaged α m
  | bindPackage (scope : ScopeId) (name : String) (cell : Cell) :
      Packaged Unit (Form.bindPackage scope name cell)

theorem LeavesScopes.composed {eval : Cell → ScopeId → Eval Cell}
    (heval : ∀ c scope, Composed (fun _ => True) Packaged (eval c scope)) {m : Eval α}
    (h : LeavesScopes eval m) : Composed (fun _ => True) Packaged m := by
  induction h with
  | own hm => exact .foreign (.own hm)
  | call c scope => exact heval c scope
  | bind _ _ ihm ihf => exact ihm.bind ihf
  | flow _ ih => exact ih.flow
  | attempt _ ih => exact ih.attempt

theorem isComposed_of_leavesScopes {host : Host}
    (h : ∀ package ∈ host.packages, package.LeavesScopes) (fuel : Nat) :
    (evaluator host fuel).IsComposed (fun _ => True) Packaged := by
  refine isComposed_evaluator_of_packages (fun package _ scope _ cell => .bindPackage _ _ cell) ?_
    fuel
  intro package hpackage procedure hprocedure eval heval call scope _
  exact (h package hpackage procedure hprocedure eval call scope).composed
    fun c scope => heval c trivial

theorem guarantee_marksBound :
    Guarantee (fun _ => True) Packaged (fun _ => True) (fun _ _ => True)
      (fun s t => s.MarksBound → t.MarksBound) where
  refl _ hs := hs
  trans hst htu hs := htu (hst hs)
  holds_of_keeps _ _ := trivial
  holds_of_rely _ _ := trivial
  operation {_ _ s} hf _ hs := by
    refine hs.of_keepsMarks ?_
    cases hf with
    | define name cell _ => exact s.keepsMarks_define _ name cell
    | load tree => exact .of_scopes_eq (scopes_load s tree)
    | _ => exact .of_scopes_eq rfl
  setUsed _ _ hs := hs
  fill cell _ hs := hs.of_keepsMarks (Store.keepsMarks_define _ _ _ cell)
  newScope outer _ := ⟨trivial, fun hs => hs.of_keepsMarks (Store.keepsMarks_newScope _ outer)⟩
  foreign {_ _ s} hm _ := by
    cases hm with
    | own hm => exact (hm s).mono fun s t hscopes hs => hs.of_keepsMarks (.of_scopes_eq hscopes)
    | bindPackage scope name cell => exact .done () fun hs => hs.markLoaded scope name cell

/-- In everything that programs come to, marked packages are bound. -/
theorem Configuration.Reaches.marksBound {host : Host}
    (hpackages : ∀ package ∈ host.packages, package.LeavesScopes) {fuel : Nat} {κ : Configuration}
    (h : κ.Reaches (evaluator host fuel)) : κ.store.MarksBound := by
  have hbetween : KeptBetween fun s t : Store => s.MarksBound → t.MarksBound :=
    ⟨fun _ _ _ hs => hs, fun _ hs => hs, fun _ hs => hs⟩
  have hmet {need : Need} {s t : Store} {answer : need.Answer} (hmet : Met need s answer t)
      (hs : s.MarksBound) : t.MarksBound := by
    obtain ⟨_, rfl⟩ := hmet.store_eq
    exact hs
  have hkeeps := h.preserves (isComposed_of_leavesScopes hpackages fuel) guarantee_marksBound
    hbetween hmet
  exact hkeeps.1 Store.marksBound_initial

/-! ### What a call loads -/

namespace Store

variable {s t u : Store} {host : Host} {scope : ScopeId}

theorem KeepsMarks.isLoaded_eq (h : s.KeepsMarks t) (hscope : s.HasScope scope) (name : String) :
    t.isLoaded scope name = s.isLoaded scope name := by
  simp only [isLoaded, chain, h.names.outer_eq scope hscope, h.packages_eq]

theorem isLoaded_iff {name : String} :
    s.isLoaded scope name = true ↔ ∃ id ∈ s.chain scope, name ∈ (s.scope id).packages := by
  simp [isLoaded]

theorem isLoaded_markLoaded (hscope : s.HasScope scope) {name other : String} :
    (s.markLoaded scope name).isLoaded scope other = true ↔
      other = name ∨ s.isLoaded scope other = true := by
  have hchain : (s.markLoaded scope name).chain scope = s.chain scope := by
    rw [chain, chain, scope_markLoaded]
    split <;> rfl
  rw [isLoaded_iff, isLoaded_iff, hchain]
  constructor
  · rintro ⟨id, hid, hmark⟩
    rw [scope_markLoaded] at hmark
    split at hmark
    · rcases List.mem_cons.1 hmark with heq | hold
      · exact .inl heq
      · exact .inr ⟨id, hid, hold⟩
    · exact .inr ⟨id, hid, hmark⟩
  · rintro (rfl | ⟨id, hid, hold⟩)
    · refine ⟨scope, List.mem_cons_self, ?_⟩
      rw [scope_markLoaded, if_pos ⟨rfl, hscope⟩]
      exact List.mem_cons_self
    · refine ⟨id, hid, ?_⟩
      rw [scope_markLoaded]
      split
      · exact List.mem_cons_of_mem name hold
      · exact hold

def HasLoaded (s : Store) (scope : ScopeId) (value : Value) : Prop :=
  ∃ name, value = .string name ∧ s.isLoaded scope name = true

/-- The value is the name of a package that is loaded or that the host provides. -/
def CanUse (host : Host) (scope : ScopeId) (s : Store) (value : Value) : Prop :=
  ∃ name, value = .string name ∧
    (s.isLoaded scope name = true ∨ ∃ package ∈ host.packages, package.name = name)

/-- From the one store to the other, nothing happened for a scope but that packages which the host
provides were loaded. Lists are as they were. -/
structure Loads (host : Host) (scope : ScopeId) (s t : Store) : Prop where
  hasScope : s.HasScope scope → t.HasScope scope
  isLoaded_of_isLoaded : ∀ name, s.isLoaded scope name = true → t.isLoaded scope name = true
  isLoaded_or_provided : ∀ name, t.isLoaded scope name = true →
    s.isLoaded scope name = true ∨ ∃ package, host.package name = .ok package
  items_eq : ∀ id, t.items id = s.items id

theorem Loads.refl (s : Store) : Loads host scope s s :=
  ⟨fun h => h, fun _ h => h, fun _ h => .inl h, fun _ => rfl⟩

theorem Loads.trans (h : Loads host scope s t) (h' : Loads host scope t u) :
    Loads host scope s u where
  hasScope hs := h'.hasScope (h.hasScope hs)
  isLoaded_of_isLoaded name hs := h'.isLoaded_of_isLoaded name (h.isLoaded_of_isLoaded name hs)
  isLoaded_or_provided name hu := by
    rcases h'.isLoaded_or_provided name hu with ht | hprovided
    · exact h.isLoaded_or_provided name ht
    · exact .inr hprovided
  items_eq id := (h'.items_eq id).trans (h.items_eq id)

theorem Loads.hasLoaded (h : Loads host scope s t) {value : Value}
    (hvalue : s.HasLoaded scope value) : t.HasLoaded scope value := by
  obtain ⟨name, hname, hloaded⟩ := hvalue
  exact ⟨name, hname, h.isLoaded_of_isLoaded name hloaded⟩

end Store

theorem Host.exists_package_iff (host : Host) (name : String) :
    (∃ package, host.package name = .ok package) ↔
      ∃ package ∈ host.packages, package.name = name := by
  constructor
  · rintro ⟨package, hpackage⟩
    exact ⟨package, mem_of_package hpackage⟩
  · rintro ⟨package, hmem, rfl⟩
    rw [Host.package]
    cases hfind : host.packages.find? fun other => other.name == package.name with
    | some found => exact ⟨found, rfl⟩
    | none => simpa using List.find?_eq_none.1 hfind package hmem

theorem Value.eq_string_of_string? {value : Value} {text : String}
    (h : value.string? = some text) : value = .string text := by
  cases value <;> cases h
  rfl

namespace Form

variable {host : Host} {ev : Evaluator} {scope : ScopeId} {s t : Store}

/-- Why a value cannot be used: it is no string, or the name of a package that is neither loaded nor
provided. -/
def refusal? (host : Host) (scope : ScopeId) (s : Store) (value : Value) : Option Fault.Cause :=
  match value.string? with
  | none => some .packageNotString
  | some name =>
    if s.isLoaded scope name then none
    else
      match host.package name with
      | .error error => some (.packageNotLoaded error)
      | .ok _ => none

/-- The fault of a call for an operand that it cannot use. -/
def refusalAt? (host : Host) (scope : ScopeId) (s : Store) (call : Call) (operand : Cell) :
    Option Fault :=
  (refusal? host scope s operand.value).map fun cause => .failure cause (call.placeOf operand)

/-- The values up to the first one that cannot be used. -/
def used (host : Host) (scope : ScopeId) (s : Store) (values : List Value) : List Value :=
  values.takeWhile fun value => (refusal? host scope s value).isNone

theorem refusal?_eq_none_iff {value : Value} :
    refusal? host scope s value = none ↔ s.CanUse host scope value := by
  rw [refusal?, Store.CanUse]
  cases hname : value.string? with
  | none =>
    constructor
    · intro h
      cases h
    · rintro ⟨name, rfl, -⟩
      cases hname
  | some name =>
    obtain rfl := Value.eq_string_of_string? hname
    have hprovided := host.exists_package_iff name
    by_cases hloaded : s.isLoaded scope name = true
    · simp [hloaded]
    · cases hpackage : host.package name with
      | ok package => simp_all
      | error error => simp_all

/-- Loading packages does not change which values can be used. -/
theorem refusal?_of_loads (h : Store.Loads host scope s t) :
    refusal? host scope t = refusal? host scope s := by
  funext value
  rw [refusal?, refusal?]
  cases value.string? with
  | none => rfl
  | some name =>
    by_cases hs : s.isLoaded scope name = true
    · simp only [hs, h.isLoaded_of_isLoaded name hs]
    · by_cases ht : t.isLoaded scope name = true
      · rcases h.isLoaded_or_provided name ht with hs' | ⟨package, hpackage⟩
        · exact absurd hs' hs
        · simp only [hs, ht, hpackage]
          rfl
      · simp only [hs, ht]

theorem refusalAt?_of_loads (h : Store.Loads host scope s t) (call : Call) :
    refusalAt? host scope t call = refusalAt? host scope s call := by
  funext operand
  rw [refusalAt?, refusalAt?, refusal?_of_loads h]

theorem bindMembers_done (package : String) (members : ScopeId)
    (procedures : List (String × Native)) (s : Store) :
    ∃ t, bindMembers package members procedures s = .done () t ∧ s.KeepsMarks t ∧
      ∀ id, t.items id = s.items id := by
  induction procedures generalizing s with
  | nil => exact ⟨s, rfl, .of_scopes_eq rfl, fun _ => rfl⟩
  | cons procedure procedures ih =>
    obtain ⟨member, native⟩ := procedure
    let value : Value := .procedure (.native package member native.name)
    let made := s.newCell value none #[]
    obtain ⟨t, hrun, hmarks, hitems⟩ := ih (made.2.define members member made.1)
    refine ⟨t, hrun, ?_,
      fun id => (hitems id).trans ((s.addsLeaves_newCell value none).items_eq id)⟩
    exact (s.keepsMarks_newCell value).trans
      ((made.2.keepsMarks_define members member made.1).trans hmarks)

theorem read_isLoaded {name : String} {b : Bool} (h : s.isLoaded scope name = b) :
    Eval.read (fun s => s.isLoaded scope name) s = .done b s :=
  congrArg (Run.done · s) h

section Operand

variable {operand : Cell} {name : String} (call : Call)

theorem usePackage_of_isLoaded (hname : operand.value = .string name)
    (hloaded : s.isLoaded scope name = true) :
    usePackage ev call scope operand s = .done () s := by
  rw [usePackage, hname]
  exact Eval.bind_of_done (read_isLoaded hloaded)

/-- A package that is provided and not loaded yet is loaded. -/
theorem usePackage_of_provided (hscope : s.HasScope scope) (hname : operand.value = .string name)
    (hloaded : s.isLoaded scope name = false) {package : Package}
    (hpackage : ev.host.package name = .ok package) :
    ∃ t, usePackage ev call scope operand s = .done () t ∧
      Store.Loads ev.host scope s t ∧ t.isLoaded scope name = true := by
  let child := s.childScope scope
  obtain ⟨bound, hbound, hmarks, hitems⟩ :=
    bindMembers_done package.name child.1 package.procedures child.2
  let box := bound.newCell (.box child.1) none #[]
  let named := box.2.define scope package.name box.1
  have hrun : usePackage ev call scope operand s = .done () (named.markLoaded scope name) := by
    rw [usePackage, hname]
    refine (Eval.bind_of_done (read_isLoaded hloaded)).trans ?_
    simp only [hpackage]
    exact Eval.bind_of_done hbound
  have hkeeps : s.KeepsMarks named :=
    ((s.keepsMarks_newScope (s.chain scope)).trans hmarks).trans
      ((bound.keepsMarks_newCell (.box child.1)).trans
        (box.2.keepsMarks_define scope package.name box.1))
  have hnamed : named.HasScope scope := Nat.lt_of_lt_of_le hscope hkeeps.names.size_le
  refine ⟨_, hrun, ⟨fun _ => ?_, fun other hother => ?_, fun other hother => ?_, fun id => ?_⟩,
    (Store.isLoaded_markLoaded hnamed).2 (.inl rfl)⟩
  · simpa [Store.HasScope, Store.markLoaded] using hnamed
  · rw [Store.isLoaded_markLoaded hnamed, hkeeps.isLoaded_eq hscope]
    exact .inr hother
  · rw [Store.isLoaded_markLoaded hnamed, hkeeps.isLoaded_eq hscope] at hother
    rcases hother with rfl | hold
    · exact .inr ⟨package, hpackage⟩
    · exact .inl hold
  · exact ((bound.addsLeaves_newCell (.box child.1) none).items_eq id).trans (hitems id)

theorem usePackage_of_refusal? {cause : Fault.Cause}
    (h : refusal? ev.host scope s operand.value = some cause) :
    usePackage ev call scope operand s =
      .stop (.fault (.failure cause (call.placeOf operand))) s := by
  rw [refusal?] at h
  cases hname : operand.value.string? with
  | none =>
    rw [hname] at h
    cases h
    rw [usePackage, hname]
    rfl
  | some name =>
    simp only [hname] at h
    split at h
    · cases h
    · next hloaded =>
      have hread := read_isLoaded (Bool.eq_false_of_not_eq_true hloaded)
      cases hpackage : ev.host.package name with
      | ok package =>
        rw [hpackage] at h
        cases h
      | error error =>
        rw [hpackage] at h
        cases h
        rw [usePackage, hname]
        refine (Eval.bind_of_done hread).trans ?_
        simp only [hpackage]
        rfl

/-- What can be used is loaded then, and nothing is done for what has been loaded before. -/
theorem usePackage_of_canUse (hscope : s.HasScope scope)
    (h : s.CanUse ev.host scope operand.value) :
    ∃ t, usePackage ev call scope operand s = .done () t ∧
      Store.Loads ev.host scope s t ∧ t.HasLoaded scope operand.value ∧
      (s.HasLoaded scope operand.value → t = s) := by
  obtain ⟨name, hname, husable⟩ := h
  cases hloaded : s.isLoaded scope name with
  | true =>
    exact ⟨s, usePackage_of_isLoaded call hname hloaded, .refl s, ⟨name, hname, hloaded⟩,
      fun _ => rfl⟩
  | false =>
    have hprovided := husable.resolve_left (by simp [hloaded])
    obtain ⟨package, hpackage⟩ := (ev.host.exists_package_iff name).2 hprovided
    obtain ⟨t, hrun, hloads, ht⟩ := usePackage_of_provided call hscope hname hloaded hpackage
    refine ⟨t, hrun, hloads, ⟨name, hname, ht⟩, ?_⟩
    rintro ⟨other, hother, hs⟩
    cases hname.symm.trans hother
    rw [hloaded] at hs
    cases hs

end Operand

def endWith (fault? : Option Fault) (t : Store) : Run Unit :=
  fault?.elim (.done () t) fun fault => .stop (.fault fault) t

/-- A call fails at the first operand that it cannot use, and has loaded those before it. Where
these were loaded already, it changes nothing. -/
theorem useEach_spec (ev : Evaluator) (call : Call) (operands : List Cell)
    (hscope : s.HasScope scope) :
    ∃ t, useEach ev call scope operands s =
        endWith (operands.findSome? (refusalAt? ev.host scope s call)) t ∧
      Store.Loads ev.host scope s t ∧
      (∀ value ∈ used ev.host scope s (operands.map Cell.value), t.HasLoaded scope value) ∧
      ((∀ value ∈ used ev.host scope s (operands.map Cell.value), s.HasLoaded scope value) →
        t = s) := by
  induction operands generalizing s with
  | nil => exact ⟨s, rfl, .refl s, fun _ h => absurd h List.not_mem_nil, fun _ => rfl⟩
  | cons operand operands ih =>
    cases hrefusal : refusal? ev.host scope s operand.value with
    | some cause =>
      refine ⟨s, ?_, .refl s, ?_, fun _ => rfl⟩
      · rw [useEach, Eval.bind_of_stop (usePackage_of_refusal? call hrefusal)]
        simp [refusalAt?, hrefusal, endWith]
      · simp [used, hrefusal]
    | none =>
      obtain ⟨u, hu, hsu, hloaded, heq⟩ :=
        usePackage_of_canUse call hscope (refusal?_eq_none_iff.1 hrefusal)
      obtain ⟨t, ht, hut, hothers, heq'⟩ := ih (hsu.hasScope hscope)
      -- what the first operand loaded makes no difference for the others
      have hused : used ev.host scope s ((operand :: operands).map Cell.value) =
          operand.value :: used ev.host scope u (operands.map Cell.value) := by
        simp [used, hrefusal, refusal?_of_loads hsu]
      refine ⟨t, ?_, hsu.trans hut, ?_, fun h => ?_⟩
      · rw [useEach, Eval.bind_of_done hu, ht, refusalAt?_of_loads hsu]
        simp [refusalAt?, hrefusal]
      · rw [hused]
        exact List.forall_mem_cons.2 ⟨hut.hasLoaded hloaded, hothers⟩
      · rw [hused] at h
        obtain ⟨hfirst, hrest⟩ := List.forall_mem_cons.1 h
        obtain rfl := heq hfirst
        exact heq' hrest

def faultOf? (host : Host) (scope : ScopeId) (s : Store) (call : Call) : Option Fault :=
  match call.operands with
  | [] => some (.failure (.arity call.name (.atLeast 1) 0) call.site.location)
  | operands => operands.findSome? (refusalAt? host scope s call)

def verdict (fault? : Option Fault) : Except Stop Value :=
  fault?.elim (.ok (.ofBool true)) fun fault => .error (.fault fault)

theorem faultOf?_of_loads (h : Store.Loads host scope s t) (call : Call) :
    faultOf? host scope t call = faultOf? host scope s call := by
  rw [faultOf?, faultOf?, refusalAt?_of_loads h]

/-- What a call comes to and has loaded then. -/
theorem usePackages_spec (ev : Evaluator) (call : Call) (hscope : s.HasScope scope) :
    ∃ outcome t, (usePackages ev call scope s).Ends [] outcome t ∧
      outcome.map Cell.value = verdict (faultOf? ev.host scope s call) ∧
      Store.Loads ev.host scope s t ∧
      (∀ value ∈ used ev.host scope s (call.operands.map Cell.value), t.HasLoaded scope value) ∧
      ((∀ value ∈ used ev.host scope s (call.operands.map Cell.value),
        s.HasLoaded scope value) → t.scopes = s.scopes) := by
  obtain ⟨name, site, operands⟩ := call
  cases operands with
  | nil =>
    exact ⟨_, s, .stop _ s, rfl, .refl s, fun _ h => absurd h List.not_mem_nil, fun _ => rfl⟩
  | cons operand operands =>
    obtain ⟨t, hrun, hloads, hloaded, heq⟩ :=
      useEach_spec ev ⟨name, site, operand :: operands⟩ (operand :: operands) hscope
    have hsame (h : ∀ value ∈ used ev.host scope s ((operand :: operands).map Cell.value),
        s.HasLoaded scope value) : t.scopes = s.scopes := by rw [heq h]
    have hcall : usePackages ev ⟨name, site, operand :: operands⟩ scope =
        (useEach ev ⟨name, site, operand :: operands⟩ scope (operand :: operands) >>= fun _ =>
          .newBool true) := rfl
    cases hfault : (operand :: operands).findSome?
        (refusalAt? ev.host scope s ⟨name, site, operand :: operands⟩) with
    | some fault =>
      rw [hfault] at hrun
      refine ⟨.error (.fault fault), t, ?_, ?_, hloads, hloaded, hsame⟩
      · rw [hcall, Eval.bind_of_stop hrun]
        exact .stop _ t
      · simp only [faultOf?, hfault]
        rfl
    | none =>
      rw [hfault] at hrun
      let made := t.newCell (.ofBool true) none #[]
      have hleaves : made.2.AddsLeaves t := t.addsLeaves_newCell (.ofBool true) none
      have hmade : Store.Loads ev.host scope t made.2 :=
        ⟨fun h => h, fun _ h => h, fun _ h => .inl h, hleaves.items_eq⟩
      refine ⟨.ok made.1, made.2, ?_, ?_, hloads.trans hmade,
        fun value hvalue => hmade.hasLoaded (hloaded value hvalue), hsame⟩
      · rw [hcall, Eval.bind_of_done hrun]
        exact .done _ _
      · simp only [faultOf?, hfault]
        rfl

/-- A call succeeds if it has operands and can use all of them. -/
theorem faultOf?_eq_none_iff {call : Call} :
    faultOf? host scope s call = none ↔
      call.operands ≠ [] ∧ ∀ operand ∈ call.operands, s.CanUse host scope operand.value := by
  obtain ⟨name, site, operands⟩ := call
  cases operands with
  | nil => simp [faultOf?]
  | cons operand operands =>
    simp only [faultOf?, List.findSome?_eq_none_iff, refusalAt?, Option.map_eq_none_iff,
      refusal?_eq_none_iff, ne_eq, reduceCtorEq, not_false_eq_true, true_and]

theorem verdict_eq_ok_iff {fault? : Option Fault} :
    verdict fault? = .ok (.ofBool true) ↔ fault? = none := by
  cases fault? <;> simp [verdict]

end Form

/-! ### Calls that are repeated -/

def Fault.unplaced : Fault → Fault
  | .parse error => .parse error
  | .failure cause _ => .failure cause none
  | .assertion label _ => .assertion label none
  | .unknownName name _ => .unknownName name none

def Stop.unplaced : Stop → Stop
  | .fault cause => .fault cause.unplaced
  | reason => reason

namespace Form

variable {host : Host} {scope : ScopeId} {s t : Store}

theorem unplaced_refusals (call : Call) (operands : List Cell) :
    (operands.findSome? (refusalAt? host scope s call)).map Fault.unplaced =
      ((operands.map Cell.value).findSome? (refusal? host scope s)).map
        fun cause => .failure cause none := by
  induction operands with
  | nil => rfl
  | cons operand operands ih =>
    cases hrefusal : refusal? host scope s operand.value with
    | none => simpa [refusalAt?, hrefusal] using ih
    | some cause => simp [refusalAt?, hrefusal, Fault.unplaced]

/-- But for places, the fault of a call depends on the values of its operands alone. -/
theorem unplaced_faultOf?_congr {call call' : Call} (hname : call'.name = call.name)
    (hvalues : call'.operands.map Cell.value = call.operands.map Cell.value) :
    (faultOf? host scope s call').map Fault.unplaced =
      (faultOf? host scope s call).map Fault.unplaced := by
  obtain ⟨name, site, operands⟩ := call
  obtain ⟨name', site', operands'⟩ := call'
  cases hname
  cases operands with
  | nil =>
    obtain rfl : operands' = [] := List.map_eq_nil_iff.1 hvalues
    rfl
  | cons operand operands =>
    cases operands' with
    | nil => cases hvalues
    | cons operand' operands' =>
      simp only [faultOf?]
      rw [unplaced_refusals, unplaced_refusals, hvalues]

theorem mapError_verdict (fault? : Option Fault) :
    (verdict fault?).mapError Stop.unplaced = verdict (fault?.map Fault.unplaced) := by
  cases fault? <;> rfl

/-- A call that is repeated comes to what it would have come to at first, and changes no scope. -/
theorem usePackages_repeated (ev : Evaluator) (call : Call) (hscope : s.HasScope scope) :
    ∃ outcome t, (usePackages ev call scope s).Ends [] outcome t ∧
      outcome.map Cell.value = verdict (faultOf? ev.host scope s call) ∧
      (∀ value ∈ used ev.host scope s (call.operands.map Cell.value), t.HasLoaded scope value) ∧
      (∀ id, t.items id = s.items id) ∧
      ∀ call' : Call, call'.operands.map Cell.value = call.operands.map Cell.value →
        ∃ outcome' u, (usePackages ev call' scope t).Ends [] outcome' u ∧
          outcome'.map Cell.value = verdict (faultOf? ev.host scope s call') ∧
          u.scopes = t.scopes := by
  obtain ⟨outcome, t, hends, houtcome, hloads, hloaded, -⟩ := usePackages_spec ev call hscope
  refine ⟨outcome, t, hends, houtcome, hloaded, hloads.items_eq, fun call' hvalues => ?_⟩
  obtain ⟨outcome', u, hends', houtcome', -, -, hscopes⟩ :=
    usePackages_spec ev call' (hloads.hasScope hscope)
  refine ⟨outcome', u, hends', ?_, hscopes ?_⟩
  · rw [houtcome', faultOf?_of_loads hloads]
  · rw [hvalues, used, refusal?_of_loads hloads]
    exact hloaded

theorem mem_used {front : List Cell} (hfront : ∀ c ∈ front, s.CanUse host scope c.value)
    (back : List Cell) {c : Cell} (hc : c ∈ front) :
    c.value ∈ used host scope s ((front ++ back).map Cell.value) := by
  have hused : used host scope s ((front ++ back).map Cell.value) =
      front.map Cell.value ++ used host scope s (back.map Cell.value) := by
    rw [used, List.map_append, List.takeWhile_append_of_pos, used]
    intro value hvalue
    obtain ⟨d, hd, rfl⟩ := List.mem_map.1 hvalue
    rw [refusal?_eq_none_iff.2 (hfront d hd)]
    rfl
  rw [hused]
  exact List.mem_append_left _ (List.mem_map_of_mem hc)

end Form

/-- The cell is the call that loads packages, with these operands. -/
structure Store.IsUse (s : Store) (c : Cell) (operands : List Cell) : Prop where
  isList : c.value = .list
  items : ∃ head : Cell, head.value = .keyword .usePackage ∧ s.items c.id = head :: operands

theorem Store.IsUse.of_items_eq {s t : Store} {c : Cell} {operands : List Cell}
    (h : s.IsUse c operands) (hitems : ∀ id, t.items id = s.items id) : t.IsUse c operands := by
  obtain ⟨hlist, head, hhead, heq⟩ := h
  exact ⟨hlist, head, hhead, (hitems c.id).trans heq⟩

theorem eval_of_isUse {s : Store} {c : Cell} {operands : List Cell} (h : s.IsUse c operands)
    (host : Host) (fuel : Nat) (scope : ScopeId) :
    eval host (fuel + 2) c scope s =
      Form.usePackages (evaluator host (fuel + 1)) ⟨Keyword.usePackage.name, c, operands⟩ scope
        s := by
  obtain ⟨hlist, head, hhead, hitems⟩ := h
  rw [eval, Evaluator.step_of_items _ scope hlist hitems]
  have hcallee : eval host (fuel + 1) head scope s = .done (.builtIn .usePackage) s := by
    rw [eval, Evaluator.step, hhead]
    rfl
  change (eval host (fuel + 1) head scope s).bind _ = _
  rw [hcallee]
  rfl

/-- Packages are loaded once. Whatever programs have done, a package that counts as loaded in a
scope can be looked up there. A call that loads packages succeeds if it has operands and can use all
of them, and has loaded all those before the first that it cannot use. Repeated right away, be it
the same call or one written elsewhere, it comes to the same, with the same fault if it has failed,
and leaves all scopes as they are. -/
theorem packages_load_once {host : Host}
    (hpackages : ∀ package ∈ host.packages, package.LeavesScopes) :
    (∀ (fuel : Nat) (κ : Configuration), κ.Reaches (evaluator host fuel) → ∀ scope name,
      κ.store.isLoaded scope name = true → (κ.store.lookup? scope name).isSome) ∧
    ∀ (fuel : Nat) (s : Store) (scope : ScopeId) (c : Cell) (operands : List Cell),
      s.HasScope scope → s.IsUse c operands →
      ∃ outcome t, (eval host (fuel + 2) c scope s).Ends [] outcome t ∧
        (outcome.map Cell.value = .ok (.ofBool true) ↔
          operands ≠ [] ∧ ∀ operand ∈ operands, s.CanUse host scope operand.value) ∧
        (∀ front back, operands = front ++ back →
          (∀ operand ∈ front, s.CanUse host scope operand.value) →
          ∀ operand ∈ front, t.HasLoaded scope operand.value) ∧
        (∃ again u, (eval host (fuel + 2) c scope t).Ends [] again u ∧
          again.map Cell.value = outcome.map Cell.value ∧ u.scopes = t.scopes) ∧
        ∀ d operands', t.IsUse d operands' →
          operands'.map Cell.value = operands.map Cell.value →
          ∃ again u, (eval host (fuel + 2) d scope t).Ends [] again u ∧
            (again.map Cell.value).mapError Stop.unplaced =
              (outcome.map Cell.value).mapError Stop.unplaced ∧
            u.scopes = t.scopes := by
  refine ⟨fun fuel κ hκ scope name hloaded => (hκ.marksBound hpackages).isSome_lookup? hloaded, ?_⟩
  intro fuel s scope c operands hscope huse
  let ev := evaluator host (fuel + 1)
  let call : Call := ⟨Keyword.usePackage.name, c, operands⟩
  obtain ⟨outcome, t, hends, houtcome, hloaded, hitems, hagain⟩ :=
    Form.usePackages_repeated ev call hscope
  rw [← eval_of_isUse huse] at hends
  refine ⟨outcome, t, hends, ?_, ?_, ?_, ?_⟩
  · rw [houtcome, Form.verdict_eq_ok_iff, Form.faultOf?_eq_none_iff]
    rfl
  · rintro front back rfl hfront operand hoperand
    exact hloaded _ (Form.mem_used hfront back hoperand)
  · obtain ⟨again, u, hends', hsame, hscopes⟩ := hagain call rfl
    rw [← eval_of_isUse (huse.of_items_eq hitems)] at hends'
    exact ⟨again, u, hends', hsame.trans houtcome.symm, hscopes⟩
  · intro d operands' huse' hvalues
    let call' : Call := ⟨Keyword.usePackage.name, d, operands'⟩
    obtain ⟨again, u, hends', hsame, hscopes⟩ := hagain call' hvalues
    rw [← eval_of_isUse huse'] at hends'
    refine ⟨again, u, hends', ?_, hscopes⟩
    have hfaults : (Form.faultOf? host scope s call').map Fault.unplaced =
        (Form.faultOf? host scope s call).map Fault.unplaced :=
      Form.unplaced_faultOf?_congr rfl hvalues
    rw [hsame, houtcome, Form.mapError_verdict, Form.mapError_verdict]
    exact congrArg Form.verdict hfaults

namespace LeavesScopes

variable {eval : Cell → ScopeId → Eval Cell}

theorem newCell (value : Value) : LeavesScopes eval (.newCell value) :=
  .own fun _ => .done _ rfl

theorem stop (reason : Stop) : LeavesScopes eval (.stop reason : Eval α) :=
  .own fun _ => .stop reason rfl

theorem settle {m : Eval Cell} (h : LeavesScopes eval m) : LeavesScopes eval (.settle m) := by
  refine .bind (.flow h) fun flow => ?_
  cases flow with
  | value c => exact .own fun _ => .done c rfl
  | breakOut => exact newCell _
  | yieldUp c => exact .own fun _ => .done c rfl

end LeavesScopes

/-- The procedures on integers do not touch scopes. -/
theorem leavesScopes_math : Package.math.LeavesScopes := by
  intro procedure hprocedure eval call scope
  rcases List.mem_cons.1 hprocedure with rfl | hprocedure
  · simp only [Package.square]
    split
    · refine (LeavesScopes.call _ scope).settle.bind fun value => ?_
      split
      · exact .newCell _
      · exact .stop _
    · exact .stop _
  · obtain rfl := List.mem_singleton.1 hprocedure
    simp only [Package.halve]
    split
    · refine (LeavesScopes.call _ scope).settle.bind fun value => ?_
      split
      · exact .newCell _
      · exact .stop _
    · refine (LeavesScopes.call _ scope).settle.bind fun value => ?_
      split
      · exact .newCell _
      · exact .stop _
    · exact .stop _

/-- A host that provides procedures on integers and nothing else. -/
def mathHost : Host := ⟨[], [.math], fun _ => none⟩

/-- The tree of a call that loads the packages of these names. -/
def useTree (names : List String) : Tree :=
  .list (.atom (.keyword .usePackage) ⟨1, 2, none⟩ ::
    names.map fun name => .atom (.string name) ⟨1, 6, none⟩) ⟨1, 1, none⟩

/-- The call `[use "math" "net"]`, the second package of which is not provided. -/
def halfLoading : Cell × Store :=
  Store.initial.load (useTree ["math", "net"])

/-- `[use "math"]` binds the name. `[use "math" "net"]` fails after the first of the packages is
loaded, and when it is repeated it fails again and changes no scope. -/
theorem packages_load_once_math :
    (∃ κ : Configuration, κ.Reaches (evaluator mathHost 2) ∧
      κ.store.isLoaded Store.root "math" = true ∧
      (κ.store.lookup? Store.root "math").isSome) ∧
    ∃ outcome t again u,
      (eval mathHost 2 halfLoading.1 Store.root halfLoading.2).Ends [] outcome t ∧
      outcome.map Cell.value ≠ .ok (.ofBool true) ∧ t.isLoaded Store.root "math" = true ∧
      (eval mathHost 2 halfLoading.1 Store.root t).Ends [] again u ∧
      again.map Cell.value = outcome.map Cell.value ∧ u.scopes = t.scopes := by
  have hpackages : ∀ package ∈ mathHost.packages, package.LeavesScopes := by
    intro package hpackage
    obtain rfl := List.mem_singleton.1 hpackage
    exact leavesScopes_math
  obtain ⟨hbound, hrepeated⟩ := packages_load_once hpackages
  constructor
  · have hrun : (((evaluator mathHost 2).runTree Store.root (useTree ["math"])
        .initial).end? []).map
        (fun p => (p.1.toOption.isSome, p.2.isLoaded Store.root "math")) = some (true, true) := by
      decide +kernel
    obtain ⟨⟨outcome, t⟩, hend, hp⟩ := Option.map_eq_some_iff.1 hrun
    obtain ⟨hok, hloaded⟩ := Prod.mk.inj hp
    cases outcome with
    | error reason => cases hok
    | ok c =>
      have hκ := Configuration.Reaches.value (κ := .initial) .refl (useTree ["math"]) Store.root
        hend
      exact ⟨_, hκ, hloaded, hbound 2 _ hκ Store.root "math" hloaded⟩
  · obtain ⟨head, math, net, hitems, hhead, hmath, hnet⟩ : ∃ head math net : Cell,
        halfLoading.2.items halfLoading.1.id = [head, math, net] ∧
        head.value = .keyword .usePackage ∧ math.value = .string "math" ∧
        net.value = .string "net" := ⟨_, _, _, rfl, rfl, rfl, rfl⟩
    have hroot : halfLoading.2.HasScope Store.root := by
      rw [Store.HasScope]
      decide +kernel
    have huse : halfLoading.2.IsUse halfLoading.1 [math, net] := ⟨rfl, head, hhead, hitems⟩
    have hcan : halfLoading.2.CanUse mathHost Store.root math.value :=
      ⟨"math", hmath, .inr ⟨.math, List.mem_singleton_self _, rfl⟩⟩
    have hcannot : ¬ halfLoading.2.CanUse mathHost Store.root net.value := by
      rintro ⟨name, hname, hloaded | ⟨package, hpackage, hprovided⟩⟩
      · cases hnet.symm.trans hname
        exact absurd hloaded (by decide +kernel)
      · cases hnet.symm.trans hname
        obtain rfl := List.mem_singleton.1 hpackage
        exact absurd hprovided (by decide)
    obtain ⟨outcome, t, hends, hok, hfront, ⟨again, u, hends', hsame, hscopes⟩, -⟩ :=
      hrepeated 0 halfLoading.2 Store.root halfLoading.1 [math, net] hroot huse
    have hloaded := hfront [math] [net] rfl (by simpa using hcan) math (by simp)
    refine ⟨outcome, t, again, u, hends, fun h => ?_, ?_, hends', hsame, hscopes⟩
    · exact hcannot ((hok.1 h).2 net (by simp))
    · obtain ⟨name, hname, hloaded⟩ := hloaded
      cases hmath.symm.trans hname
      exact hloaded

end BracketScript
