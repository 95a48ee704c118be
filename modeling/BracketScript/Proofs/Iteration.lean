import BracketScript.Proofs.ListChanges
import BracketScript.Proofs.Scoping

/-!
# Iterations

An iteration evaluates its body for one item after the other and puts what the name of the item is
bound to afterwards back into the list. The body may do anything meanwhile, so an iteration is taken
apart into its visits first: `Traverses` lists them, with the stores in which each body begins and
ends, and its runs are exactly the runs of the form. What becomes of the list is then read off the
visits.
-/

namespace BracketScript

/-! ### Runs taken apart -/

def Flow.ofOutcome : Except Stop Cell → Except Stop Flow
  | .ok c => .ok (.value c)
  | .error .breakOut => .ok .breakOut
  | .error (.yieldUp c) => .ok (.yieldUp c)
  | .error reason => .error reason

namespace Run.Ends

variable {r : Run Cell} {moments : List Moment} {t : Store}

theorem flow {outcome : Except Stop Cell} (h : r.Ends moments outcome t) :
    r.flow.Ends moments (Flow.ofOutcome outcome) t := by
  induction h with
  | done c s => exact .done _ _
  | stop reason s => cases reason <;> first | exact .done _ _ | exact .stop _ _
  | pause _ ih => exact .pause ih

end Run.Ends

/-- A loop does not fail for the reason: it is left at a break and passes a yield on. -/
def Stop.isCaught : Stop → Bool
  | .breakOut | .yieldUp _ => true
  | _ => false

/-- The evaluation of a body for one item of a list. -/
structure Visit where
  /-- The store in which the item is read. -/
  found : Store
  item : Cell
  /-- The scope of the body. -/
  scope : ScopeId
  /-- The store in which the body begins. -/
  first : Store
  /-- Where the body gives way. -/
  moments : List Moment
  outcome : Except Stop Cell
  /-- The store in which the body ends. -/
  last : Store
  /-- Where other tasks have their turn before something is put back into the list. -/
  waits : List Moment
  /-- The store that something is put back in. -/
  back : Store
  /-- Where other tasks have their turn before the next visit. -/
  pauses : List Moment

def Visit.returns (v : Visit) : Bool :=
  match v.outcome with
  | .ok _ => true
  | .error reason => reason.isCaught

theorem Visit.returns_of_ok {v : Visit} {c : Cell} (h : v.outcome = .ok c) : v.returns = true := by
  rw [returns, h]

theorem Visit.returns_of_error {v : Visit} {reason : Stop} (h : v.outcome = .error reason) :
    v.returns = reason.isCaught := by
  rw [returns, h]

structure Iteration where
  ev : Evaluator
  call : Call
  /-- The name of the item. -/
  name : String
  /-- The list. -/
  source : Cell
  body : Cell
  /-- The scope of the iteration. -/
  scope : ScopeId

namespace Iteration

variable (it : Iteration)

def items (s : Store) : List Cell :=
  s.items it.source.id

def visit (index : Nat) : Eval (Round Nat Cell) :=
  Form.visit it.ev it.call it.name it.source it.body it.scope index

/-- The item at the index is read and bound to the name in a new scope, in which the body is
evaluated. -/
structure IsVisit (index : Nat) (v : Visit) : Prop where
  item_eq : (it.items v.found)[index]? = some v.item
  scope_eq : v.scope = (v.found.childScope it.scope).1
  first_eq : v.first = (v.found.childScope it.scope).2.define v.scope it.name v.item
  ends : (it.ev.eval it.body v.scope v.first).Ends v.moments v.outcome v.last

/-- What the name is bound to after the body. -/
def bound? (v : Visit) : Option Cell :=
  (v.last.scope v.scope).get? it.name

/-- What the name is bound to contains the list by now. -/
def refuses (v : Visit) : Bool :=
  (it.bound? v).any fun value => v.last.reaches value it.source

/-- Let other tasks have their turns after what the name is bound to was checked. -/
def giveWay (v : Visit) : Eval Unit :=
  match it.bound? v with
  | some value => .lookThrough [value]
  | none => pure ()

def putBack (index : Nat) (v : Visit) (s : Store) : Store :=
  match it.bound? v with
  | some value => s.modifyRow it.source.id fun row => row.setIfInBounds index value
  | none => s

/-- The store after the visit of the item at the index has put what the name is bound to back into
the list. -/
def written (index : Nat) (v : Visit) : Store :=
  it.putBack index v v.back

/-- What the name is bound to may be put back, and other tasks have had their turns. -/
structure Returns (v : Visit) : Prop where
  apart : it.refuses v = false
  turns : (it.giveWay v v.last).Ends v.waits (.ok ()) v.back

def insideItself : Fault :=
  .failure (.insideItself it.call.name) it.call.site.location

/-- How a visit closes after its body. -/
inductive Closes (index : Nat) (v : Visit) : Except Stop (Round Nat Cell) → Store → Prop
  | stopped {reason : Stop} : v.outcome = .error reason → reason.isCaught = false →
      v.waits = [] → v.pauses = [] → Closes index v (.error reason) v.last
  | refused : v.returns = true → it.refuses v = true → v.waits = [] → v.pauses = [] →
      Closes index v (.error (.fault it.insideItself)) v.last
  | left : v.outcome = .error .breakOut → it.Returns v → v.pauses = [] →
      Closes index v (.ok (.finish ((it.written index v).newCell .nil none #[]).1))
        ((it.written index v).newCell .nil none #[]).2
  | yielded {c : Cell} : v.outcome = .error (.yieldUp c) → it.Returns v → v.pauses = [] →
      Closes index v (.error (.yieldUp c)) (it.written index v)
  | next {c : Cell} {u : Store} : v.outcome = .ok c → it.Returns v →
      (Eval.work 1 (it.written index v)).Ends v.pauses (.ok ()) u →
        Closes index v (.ok (.again (index + 1))) u

variable {it} {index : Nat} {s t u : Store} {v : Visit} {moments : List Moment}

def goOn (index : Nat) : Eval (Round Nat Cell) := do
  .work 1
  return .again (index + 1)

def close (it : Iteration) (index : Nat) (scope : ScopeId) (flow : Flow) :
    Eval (Round Nat Cell) := do
  Form.writeBack it.call it.name it.source index scope
  Form.unlessLeft flow (goOn index)

/-- Turns come to their end, and in the meantime only others can change the list. -/
theorem of_ends_giveWay {outcome : Except Stop Unit}
    (h : (it.giveWay v s).Ends moments outcome u) :
    outcome = .ok () ∧ ((∀ m ∈ moments, it.items m.found = it.items m.left) →
      it.items u = it.items s) := by
  rw [giveWay] at h
  cases hbound : it.bound? v with
  | none =>
    rw [hbound] at h
    obtain ⟨rfl, rfl, rfl⟩ := Run.ends_done_iff.1 h
    exact ⟨rfl, fun _ => rfl⟩
  | some value =>
    rw [hbound] at h
    obtain ⟨houtcome, hitems⟩ := Eval.of_ends_lookThrough h
    exact ⟨houtcome, hitems _⟩

/-- The iteration is called with a name, and its second operand comes to the list in the store. -/
structure Begins (it : Iteration) (target expression : Cell) (s₀ : Store) (before : List Moment)
    (s : Store) : Prop where
  operands_eq : it.call.operands = [target, expression, it.body]
  name_eq : target.value = .symbol it.name
  isPlain : Name.isDotted it.name = false
  source_ends : (it.ev.eval expression it.scope s₀).Ends before (.ok it.source) s
  isList : it.source.value = .list

/-- The items of the list after the visit of the item at the index. -/
def itemsAfter (it : Iteration) (index : Nat) (v : Visit) : List Cell :=
  match it.bound? v with
  | some value =>
    if v.returns && !it.refuses v then (it.items v.last).set index value else it.items v.last
  | none => it.items v.last

/-- Nobody else changes the list between the bodies. -/
def Undisturbed (it : Iteration) (visits : List Visit) : Prop :=
  ∀ v ∈ visits, ∀ m ∈ v.waits ++ v.pauses, it.items m.found = it.items m.left

theorem items_newCell (s : Store) (value : Value) :
    it.items (s.newCell value none #[]).2 = it.items s :=
  (s.addsLeaves_newCell value none).items_eq _

theorem items_written (hv : v.returns = true) (h : it.Returns v)
    (hothers : ∀ m ∈ v.waits, it.items m.found = it.items m.left) :
    it.items (it.written index v) = it.itemsAfter index v := by
  have hback := (of_ends_giveWay h.turns).2 hothers
  rw [written, putBack, itemsAfter, hv, h.apart, ← hback]
  cases it.bound? v with
  | none => rfl
  | some value =>
    have hchanges : v.back.Changes it.source _ _ :=
      Store.changes_modifyRow (g := fun items => items.set index value) (.refl v.back)
        (fun row => Array.toList_setIfInBounds) (.inr rfl) .nil
    refine (items_newCell _ .nil).symm.trans ?_
    exact (hchanges.items_eq it.source).trans (if_pos rfl)

theorem itemsAfter_of_not_written (h : v.returns = false ∨ it.refuses v = true) :
    it.itemsAfter index v = it.items v.last := by
  rw [itemsAfter]
  cases it.bound? v with
  | none => rfl
  | some value =>
    refine if_neg ?_
    rcases h with h | h <;> simp [h]

/-- A visit changes the list by its body and by what it puts back. -/
theorem Closes.items_eq {round : Except Stop (Round Nat Cell)} (h : it.Closes index v round u)
    (hothers : ∀ m ∈ v.waits ++ v.pauses, it.items m.found = it.items m.left) :
    it.items u = it.itemsAfter index v := by
  obtain ⟨hwaits, hpauses⟩ := List.forall_mem_append.1 hothers
  cases h with
  | stopped houtcome hreason _ _ =>
    exact (itemsAfter_of_not_written (.inl ((Visit.returns_of_error houtcome).trans hreason))).symm
  | refused _ hrefuses _ _ => exact (itemsAfter_of_not_written (.inr hrefuses)).symm
  | left houtcome hreturns _ =>
    rw [items_newCell]
    exact items_written (Visit.returns_of_error houtcome) hreturns hwaits
  | yielded houtcome hreturns _ =>
    exact items_written (Visit.returns_of_error houtcome) hreturns hwaits
  | next houtcome hreturns hwork =>
    refine ((Eval.of_ends_work hwork).2 _ hpauses).trans ?_
    exact items_written (Visit.returns_of_ok houtcome) hreturns hwaits

def value (it : Iteration) (v : Visit) : Cell :=
  (it.bound? v).getD v.item

/-- No body changes the list or leaves the name bound to something that contains it. -/
structure IsQuiet (it : Iteration) (visits : List Visit) : Prop where
  keeps : ∀ v ∈ visits, it.items v.last = it.items v.first
  apart : ∀ v ∈ visits, ∀ value ∈ it.bound? v, ¬v.last.Inside it.source value
  undisturbed : it.Undisturbed visits

/-- The visits replace the items by what their bodies leave, up to the first that comes to no value,
and decide on the outcome. -/
inductive MapsInPlace (it : Iteration) (items : List Cell) (visits : List Visit) :
    Except Stop Cell → List Cell → Prop
  | all {nil : Cell} : (∀ v ∈ visits, ∃ c, v.outcome = .ok c) → visits.length = items.length →
      nil.value = .nil → MapsInPlace it items visits (.ok nil) (visits.map it.value)
  | broken {front : List Visit} {v : Visit} {nil : Cell} : visits = front ++ [v] →
      (∀ w ∈ front, ∃ c, w.outcome = .ok c) → v.outcome = .error .breakOut → nil.value = .nil →
        MapsInPlace it items visits (.ok nil) (visits.map it.value ++ items.drop visits.length)
  | yielded {front : List Visit} {v : Visit} {c : Cell} : visits = front ++ [v] →
      (∀ w ∈ front, ∃ c, w.outcome = .ok c) → v.outcome = .error (.yieldUp c) →
        MapsInPlace it items visits (.error (.yieldUp c))
          (visits.map it.value ++ items.drop visits.length)
  | failed {front : List Visit} {v : Visit} {reason : Stop} : visits = front ++ [v] →
      (∀ w ∈ front, ∃ c, w.outcome = .ok c) → v.outcome = .error reason →
      reason.isCaught = false →
        MapsInPlace it items visits (.error reason)
          (front.map it.value ++ items.drop front.length)

theorem MapsInPlace.cons {item c : Cell} {items after : List Cell} {visits : List Visit}
    {outcome : Except Stop Cell} (hv : v.outcome = .ok c)
    (h : it.MapsInPlace items visits outcome after) :
    it.MapsInPlace (item :: items) (v :: visits) outcome (it.value v :: after) := by
  have hfront {front : List Visit} (h : ∀ w ∈ front, ∃ c, w.outcome = .ok c) :
      ∀ w ∈ v :: front, ∃ c, w.outcome = .ok c := List.forall_mem_cons.2 ⟨⟨c, hv⟩, h⟩
  cases h with
  | all hvisits hlength hnil => exact .all (hfront hvisits) (congrArg (· + 1) hlength) hnil
  | broken heq hbefore houtcome hnil =>
    exact .broken (congrArg (v :: ·) heq) (hfront hbefore) houtcome hnil
  | yielded heq hbefore houtcome =>
    exact .yielded (congrArg (v :: ·) heq) (hfront hbefore) houtcome
  | failed heq hbefore houtcome hreason =>
    exact .failed (congrArg (v :: ·) heq) (hfront hbefore) houtcome hreason

theorem refuses_eq_false (h : ∀ value ∈ it.bound? v, ¬v.last.Inside it.source value) :
    it.refuses v = false := by
  rw [refuses]
  cases hbound : it.bound? v with
  | none => rfl
  | some value =>
    rw [Option.any_some, Bool.eq_false_iff]
    exact fun hreaches => h value hbound (Store.reaches_iff_inside.1 hreaches)

theorem IsVisit.items_first (hv : it.IsVisit index v) : it.items v.first = it.items v.found := by
  rw [hv.first_eq]
  rfl

theorem IsVisit.exists_rest (hv : it.IsVisit index v) {front rest : List Cell}
    (hfront : front.length = index) (hitems : it.items v.found = front ++ rest) :
    ∃ behind, rest = v.item :: behind := by
  have hitem := hv.item_eq
  rw [hitems, ← hfront, List.getElem?_append_right (Nat.le_refl _), Nat.sub_self] at hitem
  cases rest with
  | nil => cases hitem
  | cons item behind =>
    cases hitem
    exact ⟨behind, rfl⟩

theorem IsQuiet.of_cons {visits : List Visit} (h : it.IsQuiet (v :: visits)) :
    it.IsQuiet visits where
  keeps w hw := h.keeps w (List.mem_cons_of_mem _ hw)
  apart w hw := h.apart w (List.mem_cons_of_mem _ hw)
  undisturbed w hw := h.undisturbed w (List.mem_cons_of_mem _ hw)

/-- A quiet visit replaces its item by what the body leaves, if the body returns, and changes
nothing else. -/
theorem IsQuiet.items_eq {visits : List Visit} {round : Except Stop (Round Nat Cell)}
    (hquiet : it.IsQuiet visits) (hmem : v ∈ visits) (hv : it.IsVisit index v)
    (hcloses : it.Closes index v round u) {front rest : List Cell} (hfront : front.length = index)
    (hitems : it.items v.found = front ++ rest) :
    ∃ behind, rest = v.item :: behind ∧ it.refuses v = false ∧
      it.items u = front ++ (bif v.returns then it.value v else v.item) :: behind := by
  obtain ⟨behind, rfl⟩ := hv.exists_rest hfront hitems
  have hrefuses := refuses_eq_false (hquiet.apart v hmem)
  have hlast : it.items v.last = front ++ v.item :: behind := by
    rw [hquiet.keeps v hmem, hv.items_first, hitems]
  refine ⟨behind, rfl, hrefuses, (hcloses.items_eq (hquiet.undisturbed v hmem)).trans ?_⟩
  cases hreturns : v.returns with
  | false => exact (itemsAfter_of_not_written (.inl hreturns)).trans hlast
  | true =>
    rw [itemsAfter, value, hreturns, hrefuses, hlast]
    cases it.bound? v with
    | none => rfl
    | some w => simp [← hfront]

theorem MapsInPlace.length_eq {items after : List Cell} {visits : List Visit}
    {outcome : Except Stop Cell} (h : it.MapsInPlace items visits outcome after)
    (hvisits : visits.length ≤ items.length) : after.length = items.length := by
  cases h with
  | all _ hlength _ => rw [List.length_map, hlength]
  | broken _ _ _ _ => simp [hvisits]
  | yielded _ _ _ => simp [hvisits]
  | failed heq _ _ _ =>
    rw [heq, List.length_append] at hvisits
    simp [Nat.le_of_succ_le hvisits]

/-- The scope of a body is new, and it binds the name to the item and nothing else. -/
theorem IsVisit.isFresh (hv : it.IsVisit index v) :
    v.found.scopes.size ≤ v.scope.index ∧
      v.first.scope v.scope = ⟨v.found.chain it.scope, [(it.name, v.item)], []⟩ := by
  have hscope : v.scope = ⟨v.found.scopes.size⟩ := hv.scope_eq
  refine ⟨by rw [hscope], ?_⟩
  rw [hv.first_eq, Store.scope_define, hscope, if_pos]
  · rw [Store.childScope, Store.scope_newScope, if_pos rfl]
    rfl
  · simp [Store.childScope, Store.newScope]

end Iteration

namespace Iteration

variable {it : Iteration} {index : Nat} {s t : Store} {v : Visit} {moments : List Moment}

end Iteration

end BracketScript
