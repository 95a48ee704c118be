import BracketScript.Proofs.Configurations
import BracketScript.Proofs.Scoping

/-!
# What runs of programs keep

A relation that operations keep is kept by each stretch of an evaluation. Between the stretches
needs are met, tasks end and tasks are launched. If what happens there is accounted for by the log
of the run, then the log accounts for everything that programs do from the start.
-/

namespace BracketScript

open Relation

variable {α : Type} {foreign : Foreign} {keeps : Store → Store → Prop}
  {accounts : Store → List Meeting → Store → Prop}

/-- What happens to the store apart from evaluations and needs keeps the relation. -/
structure KeptBetween (keeps : Store → Store → Prop) : Prop where
  endTask : ∀ (s : Store) task value, keeps s (s.endTask task value)
  launch : ∀ s : Store, keeps s { s with launches := [] }
  flush : ∀ s : Store, keeps s { s with output := "" }

/-- A log accounts for how the store changes: for nothing beyond `keeps` while no need is met, and
for what it takes to meet each need. -/
structure Accounting (keeps : Store → Store → Prop)
    (accounts : Store → List Meeting → Store → Prop) : Prop where
  stretch : ∀ {s t}, keeps s t → accounts s [] t
  met : ∀ {need : Need} {s t : Store} {answer : need.Answer},
    Met need s answer t → accounts s [⟨need, answer⟩] t
  trans : ∀ {s t u log log'}, accounts s log t → accounts t log' u → accounts s (log ++ log') u

/-- A relation that needs keep as well needs no log. -/
theorem Accounting.of_met
    (h : Guarantee (fun _ => True) foreign (fun _ => True) (fun _ _ => True) keeps)
    (hmet : ∀ {need : Need} {s t : Store} {answer : need.Answer}, Met need s answer t → keeps s t) :
    Accounting keeps fun s _ t => keeps s t :=
  ⟨fun hkeeps => hkeeps, hmet, h.trans⟩

/-- A need is met without any change but to channels. -/
theorem Met.store_eq {need : Need} {s t : Store} {answer : need.Answer}
    (h : Met need s answer t) : ∃ channels, t = { s with channels } := by
  cases h with
  | access hperform => exact Request.store_of_perform? hperform
  | _ => exact ⟨_, rfl⟩

/-- Each stretch of the run keeps the relation, whatever others do in between. -/
abbrev Run.Preserves (keeps : Store → Store → Prop) (s : Store) (r : Run α) : Prop :=
  r.Keeps (fun _ _ => True) keeps s

/-- However the task goes on, each stretch of it keeps the relation. -/
def Waiting.Preserves (keeps : Store → Store → Prop) (w : Waiting) : Prop :=
  ∀ answer s, Run.Preserves keeps s (w.resume answer s)

/-- However the main evaluation goes on, each stretch of it keeps the relation. -/
def Main.Preserves (keeps : Store → Store → Prop) : Main α → Prop
  | .waiting _ resume => ∀ answer s, Run.Preserves keeps s (resume answer s)
  | .ended _ => True

structure System.Preserves (keeps : Store → Store → Prop) (σ : System α) : Prop where
  main : σ.main.Preserves keeps
  tasks : ∀ w ∈ σ.tasks, w.Preserves keeps

section Systems

variable (h : Guarantee (fun _ => True) foreign (fun _ => True) (fun _ _ => True) keeps)
  (hbetween : KeptBetween keeps) (haccounts : Accounting keeps accounts)

include h hbetween

omit h hbetween in
theorem System.preserves_arrive {tasks : List Waiting} {s : Store} {r : Run α}
    (hr : Run.Preserves keeps s r) (htasks : ∀ w ∈ tasks, w.Preserves keeps) :
    keeps s (arrive tasks r).store ∧ (arrive tasks r).Preserves keeps := by
  cases hr with
  | done a hkeeps => exact ⟨hkeeps, trivial, htasks⟩
  | stop reason hkeeps => exact ⟨hkeeps, trivial, htasks⟩
  | pause hkeeps hresume => exact ⟨hkeeps, fun answer u => hresume answer u trivial, htasks⟩

theorem System.preserves_advance {main : Main α}
    {front back : List Waiting} (task : TaskId) {s : Store} {r : Run Cell}
    (hr : Run.Preserves keeps s r) (hmain : main.Preserves keeps)
    (htasks : ∀ w ∈ front ++ back, w.Preserves keeps) :
    keeps s (advance main front task back r).store ∧
      (advance main front task back r).Preserves keeps := by
  cases hr with
  | done value hkeeps => exact ⟨h.trans hkeeps (hbetween.endTask _ _ _), hmain, htasks⟩
  | stop reason hkeeps => exact ⟨hkeeps, trivial, htasks⟩
  | pause hkeeps hresume =>
    refine ⟨hkeeps, hmain, fun w hw => ?_⟩
    rcases List.mem_append.1 hw with hfront | hback
    · exact htasks w (List.mem_append_left back hfront)
    · rcases List.mem_cons.1 hback with rfl | hback
      · exact fun answer u => hresume answer u trivial
      · exact htasks w (List.mem_append_right front hback)

include haccounts

omit hbetween in
/-- A need is met, a turn begins and an evaluation goes on. -/
theorem Accounting.metThen {need : Need} {answer : need.Answer} {s s' t : Store} {used : Nat}
    (hmet : Met need s answer s') (hkeeps : keeps { s' with used } t) :
    accounts s [⟨need, answer⟩] t :=
  haccounts.trans (haccounts.met hmet) (haccounts.stretch (h.trans (h.setUsed s' used) hkeeps))

/-- The labels of a step account for it. -/
theorem System.Preserves.stepWith {evaluate : Cell → ScopeId → Eval Cell}
    (hevaluate : ∀ c scope s, Run.Preserves keeps s (evaluate c scope s)) {σ τ : System α}
    {labels : List Meeting} (hσ : σ.Preserves keeps) (hstep : StepWith evaluate σ labels τ) :
    accounts σ.store labels τ.store ∧ τ.Preserves keeps := by
  obtain ⟨hmain, htasks⟩ := hσ
  cases hstep with
  | @main _ s' _ resume tasks answer used hmet =>
    obtain ⟨hstore, hτ⟩ := preserves_arrive (hmain answer { s' with used }) htasks
    exact ⟨haccounts.metThen h hmet hstore, hτ⟩
  | @task _ s' _ _ front back w answer used hmet =>
    have hothers : ∀ v ∈ front ++ back, v.Preserves keeps := fun v hv =>
      htasks v (List.mem_append.2 ((List.mem_append.1 hv).imp_right (List.mem_cons_of_mem w)))
    have hw : w.Preserves keeps := htasks w (List.mem_append_right front List.mem_cons_self)
    obtain ⟨hstore, hτ⟩ :=
      preserves_advance h hbetween w.task (hw answer { s' with used }) hmain hothers
    exact ⟨haccounts.metThen h hmet hstore, hτ⟩
  | launch =>
    refine ⟨haccounts.stretch (hbetween.launch _), hmain, fun w hw => ?_⟩
    rcases List.mem_append.1 hw with hold | hnew
    · exact htasks w hold
    · obtain ⟨launch, -, rfl⟩ := List.mem_map.1 hnew
      exact fun _ s => hevaluate launch.body launch.scope s

/-- The log of a run accounts for it. -/
theorem System.Preserves.trail {evaluate : Cell → ScopeId → Eval Cell}
    (hevaluate : ∀ c scope s, Run.Preserves keeps s (evaluate c scope s)) {σ τ : System α}
    {log : List Meeting} (hσ : σ.Preserves keeps) (htrail : Trail (StepWith evaluate) σ log τ) :
    accounts σ.store log τ.store ∧ τ.Preserves keeps := by
  induction htrail with
  | refl => exact ⟨haccounts.stretch (h.refl _), hσ⟩
  | tail _ hstep ih =>
    obtain ⟨hstore, hτ⟩ := ih
    obtain ⟨hstore', hτ'⟩ := hτ.stepWith h hbetween haccounts hevaluate hstep
    exact ⟨haccounts.trans hstore hstore', hτ'⟩

end Systems

namespace Configuration

variable {ev : Evaluator} {κ : Configuration}
  (hev : ev.IsComposed (fun _ => True) foreign)
  (h : Guarantee (fun _ => True) foreign (fun _ => True) (fun _ _ => True) keeps)
  (hbetween : KeptBetween keeps)

include hev h hbetween

/-- The log accounts for whatever programs do from the start, and what their tasks are still to do
keeps the relation. -/
theorem preserves_trail (haccounts : Accounting keeps accounts) {log : List Meeting}
    (htrail : Trail (NextWith ev) .initial log κ) :
    accounts .initial log κ.store ∧ ∀ w ∈ κ.tasks, w.Preserves keeps := by
  have hcomposed {m : Eval Cell} (hm : Composed (fun _ => True) foreign m) (s : Store) :
      Run.Preserves keeps s (m s) := h.composed hm trivial
  have hrun {κ : Configuration} {m : Eval Cell} {log : List Meeting} {σ : System Cell}
      (hm : Composed (fun _ => True) foreign m) (hκ : ∀ w ∈ κ.tasks, w.Preserves keeps)
      (htrail : Trail (System.StepWith ev.evaluate)
        (System.starting κ.store m κ.tasks) log σ) :
      accounts κ.store log σ.store ∧ σ.Preserves keeps := by
    have hstart : (System.starting κ.store m κ.tasks).Preserves keeps :=
      ⟨fun _ s => hcomposed hm s, hκ⟩
    exact hstart.trail h hbetween haccounts
      (fun c scope s => hcomposed (Composed.evaluate hev trivial c) s) htrail
  induction htrail with
  | refl => exact ⟨haccounts.stretch (h.refl _), fun w hw => absurd hw List.not_mem_nil⟩
  | tail _ hnext ih =>
    obtain ⟨hstore, htasks⟩ := ih
    cases hnext with
    | load tree =>
      exact ⟨haccounts.trans hstore (haccounts.stretch (h.operation (.load tree) trivial)), htasks⟩
    | evaluate scope _ htrail =>
      obtain ⟨hstore', hσ⟩ := hrun (Composed.evaluate hev trivial _) htasks htrail
      exact ⟨haccounts.trans hstore hstore', hσ.tasks⟩
    | text origin text scope htrail =>
      obtain ⟨hstore', hσ⟩ := hrun (Composed.runText hev trivial origin text) htasks htrail
      exact ⟨haccounts.trans hstore hstore', hσ.tasks⟩
    | flush => exact ⟨haccounts.trans hstore (haccounts.stretch (hbetween.flush _)), htasks⟩

/-- Whatever programs do from the start keeps a relation that needs keep as well. -/
theorem Reaches.preserves
    (hmet : ∀ {need : Need} {s t : Store} {answer : need.Answer}, Met need s answer t → keeps s t)
    (hκ : κ.Reaches ev) : keeps .initial κ.store ∧ ∀ w ∈ κ.tasks, w.Preserves keeps := by
  obtain ⟨log, htrail⟩ := Trail.exists_of_reflTransGen hκ
  exact preserves_trail hev h hbetween (.of_met h hmet) htrail

end Configuration

end BracketScript
