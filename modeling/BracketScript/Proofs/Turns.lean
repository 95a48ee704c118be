import BracketScript.Proofs.Interleaving
import BracketScript.Proofs.Operations

/-!
# Turns

How much of a turn is used up decides where an evaluation lets others have theirs, and nothing else.
In a system turns have any length, so that work which comes before an evaluation makes no difference
to what the system can come to (`System.ends_iff_of_defers`). An evaluation that works more than
another one on the way lets others have more turns. Nobody has to use these, so that it can do all
that the other one does (`System.steps_of_follows`).
-/

namespace BracketScript

open Relation

namespace Store

/-- The stores differ at most in how much of the turn is used up. -/
def Same (s t : Store) : Prop :=
  { s with used := t.used } = t

variable {s t : Store}

theorem same_setUsed (s : Store) (used : Nat) : s.Same { s with used } :=
  rfl

theorem Same.symm (h : s.Same t) : t.Same s := by
  rw [← h]
  rfl

theorem Same.setUsed_eq (h : s.Same t) (used : Nat) : { s with used } = { t with used } := by
  rw [← h]

/-- The second store is the first one with at least as much of the turn used up. -/
structure Behind (s t : Store) : Prop where
  same : s.Same t
  used_le : s.used ≤ t.used

theorem Behind.refl (s : Store) : s.Behind s :=
  ⟨rfl, Nat.le_refl _⟩

theorem Same.behind (h : s.Same t) : s.Behind { t with used := s.used } :=
  ⟨by rw [← h.setUsed_eq]; rfl, Nat.le_refl _⟩

end Store

/-- A channel answers a request whatever part of the turn is used up. -/
theorem Request.perform?_setUsed {request : Request} {channel : ChannelId} {s s' : Store}
    {answer : request.Answer} (h : request.perform? channel s = some (answer, s')) (used : Nat) :
    ∃ t, request.perform? channel { s with used } = some (answer, t) ∧ s'.Same t := by
  obtain ⟨queue, hqueue, h⟩ := Option.bind_eq_some_iff.1 h
  obtain ⟨⟨answer', rest⟩, hanswer, h⟩ := Option.bind_eq_some_iff.1 h
  cases h
  refine ⟨{ s.setQueue channel rest with used }, ?_, rfl⟩
  exact Option.bind_eq_some_iff.2 ⟨queue, hqueue, Option.bind_eq_some_iff.2 ⟨_, hanswer, rfl⟩⟩

/-- A need is met in stores that differ in how much of the turn is used up alike. -/
theorem Met.of_same {need : Need} {s s' t : Store} {answer : need.Answer} (hst : s.Same t)
    (h : Met need s answer s') : ∃ t', Met need t answer t' ∧ s'.Same t' := by
  rw [← hst]
  cases h with
  | turn filled => exact ⟨_, .turn filled _, rfl⟩
  | @access _ _ channel request _ hperform =>
    obtain ⟨t', hperform', hst'⟩ := Request.perform?_setUsed hperform t.used
    exact ⟨t', .access hperform', hst'⟩
  | completion hresult => exact ⟨_, .completion hresult, rfl⟩
  | entry path _ entry => exact ⟨_, .entry path _ entry, rfl⟩
  | source origin text => exact ⟨_, .source origin text _, rfl⟩

/-! ### Work in front of an evaluation -/

namespace Run

variable {α : Type}

/-- The run comes to `goal` if others have so many turns. -/
inductive Passes (goal : Run α) : Run α → Prop
  | refl : Passes goal goal
  | turn {t : Store} {resume : (Need.turn true).Answer → Store → Run α} (used : Nat) :
      Passes goal (resume () { t with used }) → Passes goal (.pause (.turn true) t resume)

theorem Passes.trans {r r' r'' : Run α} (h : r.Passes r') (h' : r'.Passes r'') :
    r.Passes r'' := by
  induction h' with
  | refl => exact h
  | turn used _ ih => exact .turn used ih

/-- The run lets others have turns and then goes on as `m`. -/
inductive Delays (m : Eval α) : Store → Run α → Prop
  | now {s : Store} (used : Nat) : Delays m s (m { s with used })
  | turn {s t : Store} {resume : (Need.turn true).Answer → Store → Run α} :
      s.Same t → (∀ u, Delays m u (resume () u)) → Delays m s (.pause (.turn true) t resume)

theorem Delays.of_same {m : Eval α} {s t : Store} {r : Run α} (h : s.Same t)
    (hr : r.Delays m t) : r.Delays m s := by
  cases hr with
  | now used =>
    rw [← h.setUsed_eq]
    exact .now used
  | @turn _ u resume htu hresume =>
    refine .turn ?_ hresume
    rw [Store.Same, h.setUsed_eq]
    exact htu

theorem Delays.trans {m m' : Eval α} {s : Store} {r : Run α} (hr : r.Delays m' s)
    (h : ∀ s, (m' s).Delays m s) : r.Delays m s := by
  induction hr with
  | now used => exact (h _).of_same (Store.same_setUsed _ used)
  | turn hst _ ih => exact .turn hst ih

end Run

namespace Eval

variable {α : Type}

/-- The first evaluation does nothing but let others have turns before the second one, and it can
come to it with any part of a turn used up. -/
structure Defers (d m : Eval α) : Prop where
  delays : ∀ s, (d s).Delays m s
  passes : ∀ (s : Store) (used : Nat),
    ∃ used', (m { s with used }).Passes (d { s with used := used' })

theorem Defers.trans {d e m : Eval α} (h : Defers d e) (h' : Defers e m) : Defers d m where
  delays s := (h.delays s).trans h'.delays
  passes s used := by
    obtain ⟨used', hpass'⟩ := h'.passes s used
    obtain ⟨used'', hpass⟩ := h.passes s used'
    exact ⟨used'', hpass'.trans hpass⟩

end Eval

namespace System

variable {α : Type} {evaluate : Cell → ScopeId → Eval Cell}

theorem steps_of_passes {goal r : Run α} (h : goal.Passes r) (tasks : List Waiting) :
    ReflTransGen (Step evaluate) (arrive tasks r) (arrive tasks goal) := by
  induction h with
  | refl => exact .refl
  | turn used _ ih => exact .head (.main used (.turn _ _)) ih

/-- The second system is the first one without turns in front of its main evaluation `m`. -/
inductive Deferred (m : Eval α) : System α → System α → Prop
  | before {s t : Store} {resume : (Need.turn true).Answer → Store → Run α} {tasks : List Waiting} :
      s.Same t → (∀ u, (resume () u).Delays m u) →
        Deferred m ⟨s, .waiting (.turn true) resume, tasks⟩ (starting t m tasks)
  | after (σ : System α) : Deferred m σ σ

theorem Deferred.step {m : Eval α} {σ σ' τ : System α} (h : Deferred m σ τ)
    (hstep : Step evaluate σ σ') :
    ∃ τ', ReflTransGen (Step evaluate) τ τ' ∧ Deferred m σ' τ' := by
  cases h with
  | after => exact ⟨σ', .single hstep, .after σ'⟩
  | @before s t resume tasks hst hresume =>
    obtain ⟨labels, hstep⟩ := hstep
    cases hstep with
    | @main _ s' _ _ _ answer used hmet =>
      cases hmet
      have hdelays := hresume { s with used }
      generalize resume () { s with used } = r at hdelays
      cases hdelays with
      | now used' =>
        refine ⟨_, .single (.main used' (.turn true t)), ?_⟩
        rw [← hst.setUsed_eq]
        exact .after _
      | @turn _ u resume' hsu hresume' =>
        refine ⟨_, .refl, .before ?_ hresume'⟩
        rw [Store.Same, ← hst, ← hsu]
    | @task _ s' _ _ front back w answer used hmet =>
      obtain ⟨t', hmet', hst'⟩ := hmet.of_same hst
      have hstep : Step evaluate (starting t m (front ++ w :: back)) _ := .task used hmet'
      rw [← hst'.setUsed_eq] at hstep
      refine ⟨_, .single hstep, ?_⟩
      cases w.resume answer { s' with used } with
      | done value u => exact .before rfl hresume
      | stop reason u => exact .after _
      | pause need u resume' => exact .before rfl hresume
    | launch =>
      refine ⟨_, .single .launch, ?_⟩
      rw [← hst]
      exact .before rfl hresume

/-- The main evaluation of the first system is `d`, in place of `m`. -/
inductive Deferring (d m : Eval α) : System α → System α → Prop
  | before {s t : Store} (tasks : List Waiting) :
      s.Same t → Deferring d m (starting s d tasks) (starting t m tasks)
  | after (σ : System α) : Deferring d m σ σ

theorem Deferring.step {d m : Eval α} (hd : Eval.Defers d m) {σ τ τ' : System α}
    (h : Deferring d m σ τ) (hstep : Step evaluate τ τ') :
    ∃ σ', ReflTransGen (Step evaluate) σ σ' ∧ Deferring d m σ' τ' := by
  cases h with
  | after => exact ⟨τ', .single hstep, .after τ'⟩
  | @before s t tasks hst =>
    obtain ⟨labels, hstep⟩ := hstep
    cases hstep with
    | main used hmet =>
      cases hmet
      obtain ⟨used', hpasses⟩ := hd.passes s used
      rw [hst.setUsed_eq] at hpasses
      exact ⟨_, .head (.main used' (.turn true s)) (steps_of_passes hpasses tasks), .after _⟩
    | @task _ t' _ _ front back w answer used hmet =>
      obtain ⟨s', hmet', hst'⟩ := hmet.of_same hst.symm
      have hstep : Step evaluate (starting s d (front ++ w :: back)) _ := .task used hmet'
      rw [← hst'.setUsed_eq] at hstep
      refine ⟨_, .single hstep, ?_⟩
      cases w.resume answer { t' with used } with
      | done value u => exact .before _ rfl
      | stop reason u => exact .after _
      | pause need u resume' => exact .before _ rfl
    | launch =>
      refine ⟨_, .single .launch, ?_⟩
      rw [← hst]
      exact .before _ rfl

end System

/-! ### Work on the way -/

theorem Store.Behind.exists_used {s t : Store} (h : s.Behind t) :
    ∃ used, s.used ≤ used ∧ t = { s with used } :=
  ⟨t.used, h.used_le, Eq.symm h.same⟩

namespace Run

variable {α β : Type}

/-- The second run does the same as the first one, and it may let others have more turns. -/
inductive Follows : Run α → Run α → Prop
  | done {a : α} {s t : Store} : s.Behind t → Follows (.done a s) (.done a t)
  | stop {reason : Stop} {s t : Store} : s.Behind t → Follows (.stop reason s) (.stop reason t)
  | pause {need : Need} {s t : Store} {resume resume' : need.Answer → Store → Run α} :
      s.Same t → (∀ answer u, Follows (resume answer u) (resume' answer u)) →
        Follows (.pause need s resume) (.pause need t resume')
  | turn {r : Run α} {t : Store} {resume : (Need.turn true).Answer → Store → Run α} (used : Nat) :
      Follows r (resume () { t with used }) → Follows r (.pause (.turn true) t resume)

theorem Follows.bind {r r' : Run α} {f f' : α → Store → Run β} (hr : r.Follows r')
    (hf : ∀ a s t, s.Behind t → (f a s).Follows (f' a t)) : (r.bind f).Follows (r'.bind f') := by
  induction hr with
  | done hst => exact hf _ _ _ hst
  | stop hst => exact .stop hst
  | pause hst _ ih => exact .pause hst ih
  | turn used _ ih => exact .turn used ih

theorem Follows.flow {r r' : Run Cell} (hr : r.Follows r') : r.flow.Follows r'.flow := by
  induction hr with
  | done hst => exact .done hst
  | @stop reason _ _ hst => cases reason <;> first | exact .done hst | exact .stop hst
  | pause hst _ ih => exact .pause hst ih
  | turn used _ ih => exact .turn used ih

theorem Follows.attempt {r r' : Run α} (hr : r.Follows r') : r.attempt.Follows r'.attempt := by
  induction hr with
  | done hst => exact .done hst
  | @stop reason _ _ hst => cases reason <;> first | exact .done hst | exact .stop hst
  | pause hst _ ih => exact .pause hst ih
  | turn used _ ih => exact .turn used ih

end Run

namespace Eval

variable {α β : Type}

/-- The second evaluation does the same as the first one, and it may work more on the way. -/
def Follows (m m' : Eval α) : Prop :=
  ∀ s t, s.Behind t → (m s).Follows (m' t)

theorem Follows.bind {m m' : Eval α} {f f' : α → Eval β} (hm : m.Follows m')
    (hf : ∀ a, (f a).Follows (f' a)) : (m >>= f).Follows (m' >>= f') :=
  fun s t hst => (hm s t hst).bind hf

end Eval

namespace Store

mutual

theorem load_setUsed (s : Store) (used : Nat) (tree : Tree) :
    ({ s with used } : Store).load tree = ((s.load tree).1, { (s.load tree).2 with used }) := by
  match tree with
  | .atom a location => rfl
  | .list items location =>
    simp only [load, s.loadAll_setUsed used items]
    rfl

theorem loadAll_setUsed (s : Store) (used : Nat) (trees : List Tree) :
    ({ s with used } : Store).loadAll trees =
      ((s.loadAll trees).1, { (s.loadAll trees).2 with used }) := by
  match trees with
  | [] => rfl
  | tree :: trees =>
    simp only [loadAll, s.load_setUsed used tree, (s.load tree).2.loadAll_setUsed used trees]

end

end Store

theorem Operation.behind {isOpen : ScopeId → Prop} {α : Type} {f : Store → α × Store}
    (hf : Operation isOpen f) {s t : Store} (hst : s.Behind t) :
    (f t).1 = (f s).1 ∧ (f s).2.Behind (f t).2 := by
  obtain ⟨used, hle, rfl⟩ := hst.exists_used
  cases hf with
  | load tree =>
    have hused : (s.load tree).2.used = s.used :=
      congrArg (fun p => p.2.used) (s.load_setUsed s.used tree)
    change (({ s with used } : Store).load tree).1 = (s.load tree).1 ∧
      (s.load tree).2.Behind (({ s with used } : Store).load tree).2
    rw [s.load_setUsed used tree]
    exact ⟨rfl, rfl, hused ▸ hle⟩
  | newTask body scope =>
    refine ⟨rfl, rfl, ?_⟩
    change (if s.isBusy then s.used else 0) ≤ if s.isBusy then used else 0
    split
    · exact hle
    · exact Nat.le_refl 0
  | _ => exact ⟨rfl, rfl, hle⟩

namespace System

variable {α : Type} {evaluate : Cell → ScopeId → Eval Cell}

/-- The main evaluation of the second system follows that of the first one. -/
inductive Follows : System α → System α → Prop
  | waiting {s t : Store} {need : Need} {resume resume' : need.Answer → Store → Run α}
      {tasks : List Waiting} :
      s.Same t → (∀ answer u, (resume answer u).Follows (resume' answer u)) →
        Follows ⟨s, .waiting need resume, tasks⟩ ⟨t, .waiting need resume', tasks⟩
  | ended {s t : Store} (outcome : Except Stop α) {tasks : List Waiting} :
      s.Same t → Follows ⟨s, .ended outcome, tasks⟩ ⟨t, .ended outcome, tasks⟩

/-- A run that follows another one lets the others have turns that they do not use. -/
theorem follows_arrive {r r' : Run α} (h : r.Follows r') (tasks : List Waiting) :
    ∃ τ, ReflTransGen (Step evaluate) (arrive tasks r') τ ∧ Follows (arrive tasks r) τ := by
  induction h with
  | done hst => exact ⟨_, .refl, .ended _ hst.same⟩
  | stop hst => exact ⟨_, .refl, .ended _ hst.same⟩
  | pause hst hresume => exact ⟨_, .refl, .waiting hst hresume⟩
  | turn used _ ih =>
    obtain ⟨τ, hsteps, hτ⟩ := ih
    exact ⟨τ, .head (.main used (.turn _ _)) hsteps, hτ⟩

theorem Follows.step {σ σ' τ : System α} (h : Follows σ τ) (hstep : Step evaluate σ σ') :
    ∃ τ', ReflTransGen (Step evaluate) τ τ' ∧ Follows σ' τ' := by
  obtain ⟨labels, hstep⟩ := hstep
  cases h with
  | ended => cases hstep
  | @waiting s t need resume resume' tasks hst hresume =>
    cases hstep with
    | @main _ s' _ _ _ answer used hmet =>
      obtain ⟨t', hmet', hst'⟩ := hmet.of_same hst
      obtain ⟨τ, hsteps, hτ⟩ := follows_arrive (hresume answer { s' with used }) tasks
      refine ⟨τ, .head (.main used hmet') ?_, hτ⟩
      rw [← hst'.setUsed_eq]
      exact hsteps
    | @task _ s' _ _ front back w answer used hmet =>
      obtain ⟨t', hmet', hst'⟩ := hmet.of_same hst
      have hstep : Step evaluate ⟨t, .waiting need resume', front ++ w :: back⟩ _ :=
        .task used hmet'
      rw [← hst'.setUsed_eq] at hstep
      refine ⟨_, .single hstep, ?_⟩
      cases w.resume answer { s' with used } with
      | done value u => exact .waiting rfl hresume
      | stop reason u => exact .ended _ rfl
      | pause need' u resume'' => exact .waiting rfl hresume
    | launch =>
      refine ⟨_, .single .launch, ?_⟩
      rw [← hst]
      exact .waiting rfl hresume

end System

end BracketScript
