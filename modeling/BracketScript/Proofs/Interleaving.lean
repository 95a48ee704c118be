import BracketScript.Machine
import BracketScript.Proofs.Invariant
import Mathlib.Logic.Relation

/-!
# Interleavings

A machine lets its tasks go on in a fixed order and counts how much of a turn each has used up. In a
system, any evaluation whose need can be met may go on next and a turn may have any length, so that
the runs of a machine are some of the runs of a system (`System.steps_run`). What one step of a
system keeps is kept by all of its runs.

Each step that meets a need is labelled with the need and its answer. The labels along a run are its
log: who asked for what, in which order, and what they got.
-/

namespace BracketScript

open Relation

/-- A need is met: the answer to it and the store in which it was taken. Anything may be found at a
path. -/
inductive Met : (need : Need) → Store → need.Answer → Store → Prop
  | turn (filled : Bool) (s : Store) : Met (.turn filled) s () s
  | access {s t : Store} {channel : ChannelId} {request : Request} {answer : request.Answer} :
      request.perform? channel s = some (answer, t) → Met (.access channel request) s answer t
  | completion {s : Store} {task : TaskId} {result : Cell} :
      (s.task task).result = some result → Met (.completion task) s result s
  | entry (path : String) (s : Store) (entry : Entry) : Met (.entry path) s entry s
  | source (origin : Option String) (text : String) (s : Store) : Met (.source origin text) s () s

structure Meeting where
  need : Need
  answer : need.Answer

/-- Steps one after the other, together with their labels. -/
inductive Trail {σ μ : Type} (step : σ → List μ → σ → Prop) (a : σ) : List μ → σ → Prop
  | refl : Trail step a [] a
  | tail {log labels : List μ} {b c : σ} :
      Trail step a log b → step b labels c → Trail step a (log ++ labels) c

namespace Trail

variable {σ μ : Type} {step : σ → List μ → σ → Prop} {a b c : σ} {log log' : List μ}

theorem single (h : step a log b) : Trail step a log b :=
  Trail.tail .refl h

theorem trans (h : Trail step a log b) (h' : Trail step b log' c) :
    Trail step a (log ++ log') c := by
  induction h' with
  | refl => rwa [List.append_nil]
  | tail _ hstep ih =>
    rw [← List.append_assoc]
    exact ih.tail hstep

theorem head (h : step a log b) (h' : Trail step b log' c) : Trail step a (log ++ log') c :=
  (single h).trans h'

theorem reflTransGen (h : Trail step a log b) :
    ReflTransGen (fun a b => ∃ labels, step a labels b) a b := by
  induction h with
  | refl => exact .refl
  | tail _ hstep ih => exact ih.tail ⟨_, hstep⟩

theorem exists_of_reflTransGen (h : ReflTransGen (fun a b => ∃ labels, step a labels b) a b) :
    ∃ log, Trail step a log b := by
  induction h with
  | refl => exact ⟨[], .refl⟩
  | tail _ hstep ih =>
    obtain ⟨log, htrail⟩ := ih
    obtain ⟨labels, hstep⟩ := hstep
    exact ⟨log ++ labels, htrail.tail hstep⟩

end Trail

/-- How far the main evaluation has come. -/
inductive Main (α : Type) where
  | waiting (need : Need) (resume : need.Answer → Store → Run α)
  | ended (outcome : Except Stop α)

structure System (α : Type) where
  store : Store
  main : Main α
  tasks : List Waiting

namespace System

variable {α : Type}

/-- The system whose main evaluation begins with its next turn. -/
def starting (s : Store) (m : Eval α) (tasks : List Waiting) : System α :=
  ⟨s, .waiting (.turn true) fun _ => m, tasks⟩

def arrive (tasks : List Waiting) : Run α → System α
  | .done a s => ⟨s, .ended (.ok a), tasks⟩
  | .stop reason s => ⟨s, .ended (.error reason), tasks⟩
  | .pause need s resume => ⟨s, .waiting need resume, tasks⟩

/-- The system one of whose tasks has come as far as the run. -/
def advance (main : Main α) (front : List Waiting) (task : TaskId) (back : List Waiting) :
    Run Cell → System α
  | .done value s => ⟨s.endTask task value, main, front ++ back⟩
  | .stop reason s => ⟨s, .ended (.error (Machine.endOfTask reason)), front ++ back⟩
  | .pause need s resume => ⟨s, main, front ++ ⟨task, need, resume⟩ :: back⟩

/-- As long as the main evaluation waits, it or a task goes on, or tasks that were made are started.
Whoever goes on may be taken to have used up any part of its turn, so that its work can give way to
others anywhere. -/
inductive StepWith (evaluate : Cell → ScopeId → Eval Cell) :
    System α → List Meeting → System α → Prop
  | main {s s' : Store} {need : Need} {resume : need.Answer → Store → Run α}
      {tasks : List Waiting} {answer : need.Answer} (used : Nat) :
      Met need s answer s' →
        StepWith evaluate ⟨s, .waiting need resume, tasks⟩ [⟨need, answer⟩]
          (arrive tasks (resume answer { s' with used }))
  | task {s s' : Store} {need : Need} {resume : need.Answer → Store → Run α}
      {front back : List Waiting} {w : Waiting} {answer : w.need.Answer} (used : Nat) :
      Met w.need s answer s' →
        StepWith evaluate ⟨s, .waiting need resume, front ++ w :: back⟩ [⟨w.need, answer⟩]
          (advance (.waiting need resume) front w.task back (w.resume answer { s' with used }))
  | launch {s : Store} {need : Need} {resume : need.Answer → Store → Run α}
      {tasks : List Waiting} :
      StepWith evaluate ⟨s, .waiting need resume, tasks⟩ []
        ⟨{ s with launches := [] }, .waiting need resume,
          tasks ++ s.launches.map (Machine.ofLaunch evaluate)⟩

def Step (evaluate : Cell → ScopeId → Eval Cell) (σ τ : System α) : Prop :=
  ∃ labels, StepWith evaluate σ labels τ

theorem Step.main {evaluate : Cell → ScopeId → Eval Cell} {s s' : Store} {need : Need}
    {resume : need.Answer → Store → Run α} {tasks : List Waiting} {answer : need.Answer}
    (used : Nat) (h : Met need s answer s') :
    Step evaluate ⟨s, .waiting need resume, tasks⟩
      (arrive tasks (resume answer { s' with used })) :=
  ⟨_, .main used h⟩

theorem Step.task {evaluate : Cell → ScopeId → Eval Cell} {s s' : Store} {need : Need}
    {resume : need.Answer → Store → Run α} {front back : List Waiting} {w : Waiting}
    {answer : w.need.Answer} (used : Nat) (h : Met w.need s answer s') :
    Step evaluate ⟨s, .waiting need resume, front ++ w :: back⟩
      (advance (.waiting need resume) front w.task back (w.resume answer { s' with used })) :=
  ⟨_, .task used h⟩

theorem Step.launch {evaluate : Cell → ScopeId → Eval Cell} {s : Store} {need : Need}
    {resume : need.Answer → Store → Run α} {tasks : List Waiting} :
    Step evaluate ⟨s, .waiting need resume, tasks⟩
      ⟨{ s with launches := [] }, .waiting need resume,
        tasks ++ s.launches.map (Machine.ofLaunch evaluate)⟩ :=
  ⟨_, .launch⟩

/-! ### Machines -/

section Machines

variable {look : String → Id Entry} {evaluate : Cell → ScopeId → Eval Cell}

theorem met_of_answer? {need : Need} {s s' : Store} {answer : need.Answer}
    (h : Machine.answer? look need s = some (answer, s')) : Met need s answer s' := by
  cases need with
  | turn filled =>
    cases h
    exact .turn filled s
  | access channel request => exact .access h
  | completion task =>
    simp only [Machine.answer?] at h
    split at h
    · next hresult =>
      cases h
      exact .completion hresult
    · cases h
  | entry path =>
    cases h
    exact .entry path s _
  | source origin text =>
    cases h
    exact .source origin text s

/-- A run that is served goes on by steps, whichever system it belongs to. -/
theorem steps_serve {β : Type} {place : Run β → System α}
    (hplace : ∀ {need : Need} {s s' : Store} {resume : need.Answer → Store → Run β}
      {answer : need.Answer}, Met need s answer s' →
        Step evaluate (place (.pause need s resume)) (place (resume answer s'))) (r : Run β) :
    ReflTransGen (Step evaluate) (place r) (place (Machine.serve r)) := by
  induction r with
  | done b s => exact .refl
  | stop reason s => exact .refl
  | pause need s resume ih =>
    cases need with
    | access channel request =>
      rw [Machine.serve]
      split
      · next answer s' hperform => exact .head (hplace (.access hperform)) (ih answer s')
      · exact .refl
    | turn filled =>
      cases filled with
      | false =>
        rw [Machine.serve]
        exact .head (hplace (.turn false s)) (ih () s)
      | true => exact .refl
    | source origin text =>
      rw [Machine.serve]
      exact .head (hplace (.source origin text s)) (ih () s)
    | _ => exact .refl

theorem steps_arrive_serve (tasks : List Waiting) (r : Run α) :
    ReflTransGen (Step evaluate) (arrive tasks r) (arrive tasks (Machine.serve r)) :=
  steps_serve (fun {_ _ s'} _ _ hmet => .main s'.used hmet) r

def mainAfter (main : Main α) (ended : Option Stop) : Main α :=
  ended.elim main fun reason => .ended (.error reason)

/-- The tasks of a machine have their turns by steps of a system. -/
theorem steps_pass (look : String → Id Entry) {need : Need}
    (resume : need.Answer → Store → Run α) (s : Store) (front tasks : List Waiting) :
    ReflTransGen (Step evaluate) ⟨s, .waiting need resume, front ++ tasks⟩
      ⟨(Machine.pass look s tasks).store,
        mainAfter (.waiting need resume) (Machine.pass look s tasks).ended,
        front ++ (Machine.pass look s tasks).waiting⟩ := by
  induction tasks generalizing s front with
  | nil => exact .refl
  | cons w tasks ih =>
    -- the tasks that had their turn stand in front
    have hkept : ∀ s (w : Waiting), ReflTransGen (Step evaluate)
        ⟨s, .waiting need resume, front ++ w :: tasks⟩
        ⟨(Machine.pass look s tasks).store,
          mainAfter (.waiting need resume) (Machine.pass look s tasks).ended,
          front ++ w :: (Machine.pass look s tasks).waiting⟩ := by
      intro s w
      simpa using ih s (front ++ [w])
    cases hanswer : Machine.answer? look w.need s with
    | none =>
      simp only [Machine.pass, hanswer, bind, pure]
      exact hkept s w
    | some p =>
      have hserved : ReflTransGen (Step evaluate) ⟨s, .waiting need resume, front ++ w :: tasks⟩
          (advance (.waiting need resume) front w.task tasks
            (Machine.serve (w.resume p.1 p.2.beginTurn))) :=
        .head (.task 0 (met_of_answer? hanswer))
          (steps_serve (fun {_ _ s'} _ _ hmet => .task s'.used hmet) _)
      cases hrun : Machine.serve (w.resume p.1 p.2.beginTurn) with
      | done value s' =>
        simp only [Machine.pass, hanswer, hrun, bind, pure]
        rw [hrun] at hserved
        exact hserved.trans (ih _ front)
      | stop reason s' =>
        simp only [Machine.pass, hanswer, hrun, bind, pure]
        rw [hrun] at hserved
        exact hserved
      | pause need' s' resume' =>
        simp only [Machine.pass, hanswer, hrun, bind, pure]
        rw [hrun] at hserved
        exact hserved.trans (hkept _ _)

/-- The main evaluation of a machine is driven by steps of a system. -/
theorem steps_drive {fuel : Nat} {tasks : List Waiting} {r : Run α} {outcome : Outcome α}
    {machine : Machine} (h : Machine.drive look evaluate fuel tasks r = (outcome, machine)) :
    ∃ σ, ReflTransGen (Step evaluate) (arrive tasks r) σ ∧ σ.store = machine.store ∧
      σ.tasks = machine.waiting ∧ ∀ value, outcome = .done value → σ.main = .ended (.ok value) := by
  match fuel, r with
  | _, .done value s =>
    rw [Machine.drive] at h
    cases h
    exact ⟨_, .refl, rfl, rfl, fun _ heq => congrArg (Main.ended ∘ .ok) (Outcome.done.inj heq)⟩
  | _, .stop reason s =>
    rw [Machine.drive] at h
    cases h
    exact ⟨_, .refl, rfl, rfl, nofun⟩
  | 0, .pause need s resume =>
    cases h
    exact ⟨_, .refl, rfl, rfl, nofun⟩
  | fuel + 1, .pause need s resume =>
    simp only [Machine.drive, bind, pure] at h
    set started := Machine.start evaluate s tasks
    have hpass : ReflTransGen (Step evaluate) ⟨s, .waiting need resume, tasks⟩
        ⟨(Machine.pass look started.store started.waiting).store,
          mainAfter (.waiting need resume) (Machine.pass look started.store started.waiting).ended,
          (Machine.pass look started.store started.waiting).waiting⟩ :=
      .head .launch (steps_pass look resume started.store [] started.waiting)
    generalize Machine.pass look started.store started.waiting = pass at h hpass
    cases hended : pass.ended with
    | some reason =>
      rw [hended] at h
      cases h
      exact ⟨_, hpass, rfl, rfl, nofun⟩
    | none =>
      rw [hended] at hpass
      simp only [hended] at h
      cases hanswer : Machine.answer? look need pass.store with
      | some p =>
        simp only [hanswer] at h
        obtain ⟨σ, hsteps, hσ⟩ := steps_drive h
        have hmain : Step evaluate ⟨pass.store, .waiting need resume, pass.waiting⟩
            (arrive pass.waiting (resume p.1 p.2.beginTurn)) := .main 0 (met_of_answer? hanswer)
        exact ⟨σ, hpass.trans (.head hmain ((steps_arrive_serve _ _).trans hsteps)), hσ⟩
      | none =>
        simp only [hanswer] at h
        split at h
        · obtain ⟨σ, hsteps, hσ⟩ := steps_drive h
          exact ⟨σ, hpass.trans hsteps, hσ⟩
        · cases h
          exact ⟨_, hpass, rfl, rfl, nofun⟩

/-- What a machine runs to is what a system can come to. -/
theorem steps_run {ev : Evaluator} {machine machine' : Machine} {m : Eval α} {outcome : Outcome α}
    (h : machine.run look ev m = (outcome, machine')) :
    ∃ σ, ReflTransGen (Step ev.evaluate) (starting machine.store m machine.waiting) σ ∧
      σ.store = machine'.store ∧ σ.tasks = machine'.waiting ∧
      ∀ value, outcome = .done value → σ.main = .ended (.ok value) := by
  obtain ⟨σ, hsteps, hσ⟩ := steps_drive h
  have hfirst := (steps_arrive_serve machine.waiting (m machine.store)).trans hsteps
  exact ⟨σ, .head (.main machine.store.used (.turn true _)) hfirst, hσ⟩

end Machines

/-! ### Schedules -/

/-- Who goes on next. -/
inductive Choice where
  | main
  | task (index : Nat)
  /-- The tasks that were made are started. -/
  | launch

section Schedules

variable (look : String → Id Entry) (evaluate : Cell → ScopeId → Eval Cell)

/-- The step that is chosen, if it can be taken. Whoever goes on has a new turn. -/
def choose? : System α → Choice → Option (List Meeting × System α)
  | ⟨s, .waiting need resume, tasks⟩, .main =>
    (Machine.answer? look need s).run.map fun (answer, s') =>
      ([⟨need, answer⟩], arrive tasks (resume answer s'.beginTurn))
  | ⟨s, .waiting need resume, tasks⟩, .task index =>
    tasks[index]?.bind fun w =>
      (Machine.answer? look w.need s).run.map fun (answer, s') =>
        ([⟨w.need, answer⟩], advance (.waiting need resume) (tasks.take index) w.task
          (tasks.drop (index + 1)) (w.resume answer s'.beginTurn))
  | ⟨s, .waiting need resume, tasks⟩, .launch =>
    some ([], ⟨{ s with launches := [] }, .waiting need resume,
      tasks ++ s.launches.map (Machine.ofLaunch evaluate)⟩)
  | ⟨_, .ended _, _⟩, _ => none

def play? (σ : System α) : List Choice → Option (List Meeting × System α)
  | [] => some ([], σ)
  | choice :: choices =>
    (choose? look evaluate σ choice).bind fun first =>
      (play? first.2 choices).map fun rest => (first.1 ++ rest.1, rest.2)

variable {look evaluate} {σ τ : System α}

theorem stepWith_of_choose? {choice : Choice} {labels : List Meeting}
    (h : choose? look evaluate σ choice = some (labels, τ)) : StepWith evaluate σ labels τ := by
  obtain ⟨s, main, tasks⟩ := σ
  cases main with
  | ended outcome => cases h
  | waiting need resume =>
    cases choice with
    | main =>
      obtain ⟨⟨answer, s'⟩, hanswer, heq⟩ := Option.map_eq_some_iff.1 h
      cases heq
      exact .main 0 (met_of_answer? hanswer)
    | task index =>
      obtain ⟨w, hw, h⟩ := Option.bind_eq_some_iff.1 h
      obtain ⟨⟨answer, s'⟩, hanswer, heq⟩ := Option.map_eq_some_iff.1 h
      cases heq
      obtain ⟨hindex, rfl⟩ := List.getElem?_eq_some_iff.1 hw
      have htasks : tasks = tasks.take index ++ tasks[index] :: tasks.drop (index + 1) := by
        rw [← List.drop_eq_getElem_cons hindex, List.take_append_drop]
      have hstep : StepWith evaluate ⟨s, .waiting need resume,
          tasks.take index ++ tasks[index] :: tasks.drop (index + 1)⟩ _ _ :=
        .task 0 (met_of_answer? hanswer)
      rwa [← htasks] at hstep
    | launch =>
      cases h
      exact .launch

theorem trail_of_play? {choices : List Choice} {log : List Meeting}
    (h : play? look evaluate σ choices = some (log, τ)) : Trail (StepWith evaluate) σ log τ := by
  induction choices generalizing σ log with
  | nil =>
    cases h
    exact .refl
  | cons choice choices ih =>
    obtain ⟨⟨labels, σ'⟩, hfirst, h⟩ := Option.bind_eq_some_iff.1 h
    obtain ⟨⟨log', τ'⟩, hrest, heq⟩ := Option.map_eq_some_iff.1 h
    cases heq
    exact .head (stepWith_of_choose? hfirst) (ih hrest)

end Schedules

end System

namespace Invariant

variable {I : Invariant} {α β : Type} {R : I.World → α → β → Prop} {w w' : I.World}

/-- The invariant lets the need be met with this answer. -/
def Allows (I : Invariant) : Meeting → Prop
  | ⟨.turn _, _⟩ => I.turns
  | ⟨.entry path, found⟩ => I.entries path found
  | ⟨.source origin text, _⟩ =>
    (∀ path, origin = some path → I.entries path (.file (.ok text))) → I.sources origin text
  | ⟨.access _ _, _⟩ | ⟨.completion _, _⟩ => True

/-- What two evaluations need is as the invariant says. Their rests keep the invariant from any
later store on and do the same, and what they come to is as `R` says. -/
structure Ready (I : Invariant) (R : I.World → α → β → Prop) (w : I.World) (need : Need)
    (resume : need.Answer → Store → Run α) (resume' : need.Answer → Store → Run β) : Prop where
  needs : I.diagonal.Needs w need need
  rest : ∀ w' answer s, w ≤ w' → I.stores w' s → I.diagonal.Answers w' need need answer answer →
    I.diagonal.Runs R w' (resume answer s) (resume' answer s)

def SoundTask (I : Invariant) (w : I.World) (t : Waiting) : Prop :=
  I.Ready I.diagonal.values w t.need t.resume t.resume

inductive SoundMain (I : Invariant) (R : I.World → α → β → Prop) (w : I.World) :
    Main α → Main β → Prop
  | waiting {need : Need} {resume : need.Answer → Store → Run α}
      {resume' : need.Answer → Store → Run β} :
      I.Ready R w need resume resume' →
        SoundMain I R w (.waiting need resume) (.waiting need resume')
  | ok {a : α} {b : β} : R w a b → SoundMain I R w (.ended (.ok a)) (.ended (.ok b))
  | error {reason : Stop} (reason' : Stop) :
      (∀ fault, reason = .fault fault → I.diagonal.Faults fault fault) →
        SoundMain I R w (.ended (.error reason)) (.ended (.error reason'))

structure Sound (I : Invariant) (R : I.World → α → β → Prop) (w : I.World) (σ : System α)
    (τ : System β) : Prop where
  store_eq : τ.store = σ.store
  tasks_eq : τ.tasks = σ.tasks
  store : I.stores w σ.store
  main : I.SoundMain R w σ.main τ.main
  tasks : ∀ t ∈ σ.tasks, I.SoundTask w t

theorem eq_of_needs {need need' : Need} (h : I.diagonal.Needs w need need') : need' = need := by
  cases h with
  | access channel hrequest =>
    cases hrequest with
    | put hcells => rw [(forall₂_diagonal.1 hcells).1]
    | _ => rfl
  | _ => rfl

/-- A fault at which the invariant lets an evaluation stop. -/
theorem faults_of_stops {reason reason' : Stop} (h : I.diagonal.Stops w reason reason')
    (fault : Fault) (hfault : reason = .fault fault) : I.diagonal.Faults fault fault := by
  subst hfault
  cases h with
  | fault h =>
    cases h with
    | parse hsource hparse => exact .parse hsource hparse
    | failure cause hplace => exact .failure cause ⟨rfl, hplace.2⟩
    | assertion label hplace => exact .assertion label ⟨rfl, hplace.2⟩
    | unknownName name hplace => exact .unknownName name ⟨rfl, hplace.2⟩

theorem endOfTask_ne_fault (reason : Stop) (fault : Fault) :
    Machine.endOfTask reason ≠ .fault fault := by
  cases reason <;> exact nofun

/-- The evaluation of a task that was made keeps the invariant. -/
theorem soundTask_ofLaunch {evaluate : Cell → ScopeId → Eval Cell} {launch : Launch}
    (h : I.diagonal.Evals w I.diagonal.values (evaluate launch.body launch.scope)
      (evaluate launch.body launch.scope)) :
    I.SoundTask w (Machine.ofLaunch evaluate launch) where
  needs := .turn true
  rest w' _ s hle hs _ := h w' hle s s ⟨rfl, hs⟩

variable (hI : I.Lawful)

include hI

theorem Ready.mono {need : Need} {resume : need.Answer → Store → Run α}
    {resume' : need.Answer → Store → Run β} (h : w ≤ w')
    (hready : I.Ready R w need resume resume') : I.Ready R w' need resume resume' where
  needs := hI.diagonal.needs_mono h hready.needs
  rest w'' answer s hle := hready.rest w'' answer s (h.trans hle)

theorem SoundTask.mono {t : Waiting} (h : w ≤ w') (ht : I.SoundTask w t) : I.SoundTask w' t :=
  Ready.mono hI h ht

theorem SoundMain.mono {main : Main α} {main' : Main β} (h : w ≤ w')
    (hR : ∀ w w' a b, w ≤ w' → R w a b → R w' a b) (hmain : I.SoundMain R w main main') :
    I.SoundMain R w' main main' := by
  cases hmain with
  | waiting hready => exact .waiting (hready.mono hI h)
  | ok ha => exact .ok (hR _ _ _ _ h ha)
  | error reason' hfault => exact .error reason' hfault

theorem sound_arrive {r : Run α} {r' : Run β} (hr : I.diagonal.Runs R w r r')
    {tasks : List Waiting} (htasks : ∀ t ∈ tasks, I.SoundTask w t) :
    ∃ w', w ≤ w' ∧ I.Sound R w' (System.arrive tasks r) (System.arrive tasks r') := by
  cases r with
  | done a s =>
    obtain ⟨w', b, _, rfl, hle, ⟨rfl, hs⟩, hR⟩ := hr.of_done
    exact ⟨w', hle, rfl, rfl, hs, .ok hR, fun t ht => (htasks t ht).mono hI hle⟩
  | stop reason s =>
    obtain ⟨w', reason', _, rfl, hle, ⟨rfl, hs⟩, hstop⟩ := hr.of_stop
    exact ⟨w', hle, rfl, rfl, hs, .error _ (faults_of_stops hstop),
      fun t ht => (htasks t ht).mono hI hle⟩
  | pause need s resume =>
    obtain ⟨w', need', _, resume', rfl, hle, ⟨rfl, hs⟩, hneed, hresume⟩ := hr.of_pause
    obtain rfl := eq_of_needs hneed
    refine ⟨w', hle, rfl, rfl, hs, .waiting ⟨hneed, ?_⟩, fun t ht => (htasks t ht).mono hI hle⟩
    exact fun w'' answer u hle' hu hanswer => hresume w'' answer answer u u hle' ⟨rfl, hu⟩ hanswer

theorem sound_advance (hR : ∀ w w' a b, w ≤ w' → R w a b → R w' a b) {r : Run Cell}
    (hr : I.diagonal.Runs I.diagonal.values w r r) {main : Main α} {main' : Main β}
    (hmain : I.SoundMain R w main main') (task : TaskId) {front back : List Waiting}
    (htasks : ∀ t ∈ front ++ back, I.SoundTask w t) :
    ∃ w', w ≤ w' ∧ I.Sound R w' (System.advance main front task back r)
      (System.advance main' front task back r) := by
  cases r with
  | done value s =>
    obtain ⟨w', _, _, heq, hle, hst, hvalue⟩ := hr.of_done
    obtain ⟨rfl, rfl⟩ := Run.done.inj heq
    exact ⟨w', hle, rfl, rfl, hI.endTask task hst.2 hvalue.2, hmain.mono hI hle hR,
      fun t ht => (htasks t ht).mono hI hle⟩
  | stop reason s =>
    obtain ⟨w', _, _, heq, hle, hst, -⟩ := hr.of_stop
    obtain ⟨rfl, rfl⟩ := Run.stop.inj heq
    exact ⟨w', hle, rfl, rfl, hst.2,
      .error _ fun fault hfault => absurd hfault (endOfTask_ne_fault reason fault),
      fun t ht => (htasks t ht).mono hI hle⟩
  | pause need s resume =>
    obtain ⟨w', _, _, _, heq, hle, hst, hneed, hresume⟩ := hr.of_pause
    obtain ⟨rfl, rfl, hsame⟩ := Run.pause.inj heq
    obtain rfl := eq_of_heq hsame
    refine ⟨w', hle, rfl, rfl, hst.2, hmain.mono hI hle hR, fun t ht => ?_⟩
    rcases List.mem_append.1 ht with hfront | hback
    · exact (htasks t (List.mem_append_left _ hfront)).mono hI hle
    · rcases List.mem_cons.1 hback with rfl | hback
      · exact ⟨hneed, fun w'' answer u hle' hu hanswer =>
          hresume w'' answer answer u u hle' ⟨rfl, hu⟩ hanswer⟩
      · exact (htasks t (List.mem_append_right _ hback)).mono hI hle

/-- What meets a need is as the invariant says. -/
theorem answers_of_met {need : Need} {s s' : Store} {answer : need.Answer} (hs : I.stores w s)
    (hneed : I.diagonal.Needs w need need) (h : Met need s answer s')
    (hallows : I.Allows ⟨need, answer⟩) :
    ∃ w', w ≤ w' ∧ I.stores w' s' ∧ I.diagonal.Answers w' need need answer answer := by
  cases h with
  | turn => exact ⟨w, le_rfl, hs, hallows⟩
  | @access _ _ channel request answer hperform =>
    cases hneed with
    | access _ hrequest =>
    have hanswers := hI.diagonal.perform? ⟨rfl, hs⟩ hrequest channel
    rw [hperform] at hanswers
    cases hanswers with
    | some hp =>
      obtain ⟨w', hle, hst, hanswer⟩ := hp
      exact ⟨w', hle, hst.2, hanswer⟩
  | completion hresult => exact ⟨w, le_rfl, hs, rfl, hI.result hs hresult⟩
  | entry path _ entry => exact ⟨w, le_rfl, hs, rfl, hallows⟩
  | source origin text _ =>
    cases hneed with
    | source hfound => exact ⟨w, le_rfl, hs, hallows hfound⟩

/-- What one system does the other one can do, and both keep the invariant. -/
theorem Sound.stepWith (hR : ∀ w w' a b, w ≤ w' → R w a b → R w' a b) {ev : Evaluator}
    (hev : I.diagonal.Evaluates ev) {σ σ' : System α} {τ : System β} (hσ : I.Sound R w σ τ)
    {labels : List Meeting} (h : System.StepWith ev.evaluate σ labels σ')
    (hallows : ∀ m ∈ labels, I.Allows m) :
    ∃ w' τ', w ≤ w' ∧ System.StepWith ev.evaluate τ labels τ' ∧ I.Sound R w' σ' τ' := by
  obtain ⟨_, main', _⟩ := τ
  obtain ⟨hstore_eq, htasks_eq, hstore, hmain, htasks⟩ := hσ
  simp only at hstore_eq htasks_eq hmain
  subst hstore_eq htasks_eq
  cases h with
  | @main s s' need resume tasks answer used hmet =>
    cases hmain with
    | @waiting _ _ resume' hready =>
      obtain ⟨w₁, hle₁, hs', hanswer⟩ :=
        answers_of_met hI hstore hready.needs hmet (hallows _ List.mem_cons_self)
      have hrun := hready.rest w₁ answer _ hle₁ (hI.setUsed used hs') hanswer
      obtain ⟨w₂, hle₂, hsound⟩ := sound_arrive hI hrun fun t ht => (htasks t ht).mono hI hle₁
      exact ⟨w₂, _, hle₁.trans hle₂, .main used hmet, hsound⟩
  | @task s s' need resume front back t answer used hmet =>
    have ht := htasks t (List.mem_append_right _ List.mem_cons_self)
    obtain ⟨w₁, hle₁, hs', hanswer⟩ :=
      answers_of_met hI hstore ht.needs hmet (hallows _ List.mem_cons_self)
    have hrun := ht.rest w₁ answer _ hle₁ (hI.setUsed used hs') hanswer
    have hothers : ∀ other ∈ front ++ back, I.SoundTask w₁ other := fun other hother =>
      (htasks other (by
        rcases List.mem_append.1 hother with hfront | hback
        · exact List.mem_append_left _ hfront
        · exact List.mem_append_right _ (List.mem_cons_of_mem _ hback))).mono hI hle₁
    obtain ⟨w₂, hle₂, hsound⟩ :=
      sound_advance hI hR hrun (hmain.mono hI hle₁ hR) t.task hothers
    cases hmain with
    | waiting _ => exact ⟨w₂, _, hle₁.trans hle₂, .task used hmet, hsound⟩
  | @launch s need resume tasks =>
    have hstarted : ∀ t ∈ tasks ++ s.launches.map (Machine.ofLaunch ev.evaluate),
        I.SoundTask w t := by
      intro t ht
      rcases List.mem_append.1 ht with hold | hnew
      · exact htasks t hold
      · obtain ⟨launch, hlaunch, rfl⟩ := List.mem_map.1 hnew
        obtain ⟨hbody, hscope⟩ := hI.launch hstore hlaunch
        exact soundTask_ofLaunch (hI.diagonal.evaluate hev ⟨rfl, hbody⟩ hscope)
    cases hmain with
    | waiting hready =>
      exact ⟨w, _, le_rfl, .launch, rfl, rfl, hI.clearLaunches hstore, .waiting hready, hstarted⟩

/-- What one system runs to the other one can run to, and both keep the invariant. -/
theorem Sound.trail (hR : ∀ w w' a b, w ≤ w' → R w a b → R w' a b) {ev : Evaluator}
    (hev : I.diagonal.Evaluates ev) {σ σ' : System α} {τ : System β} (hσ : I.Sound R w σ τ)
    {log : List Meeting} (h : Trail (System.StepWith ev.evaluate) σ log σ')
    (hallows : ∀ m ∈ log, I.Allows m) :
    ∃ w' τ', w ≤ w' ∧ Trail (System.StepWith ev.evaluate) τ log τ' ∧ I.Sound R w' σ' τ' := by
  induction h with
  | refl => exact ⟨w, τ, le_rfl, .refl, hσ⟩
  | tail _ hstep ih =>
    obtain ⟨w₁, τ₁, hle₁, hsteps, hρ⟩ := ih fun m hm => hallows m (List.mem_append_left _ hm)
    obtain ⟨w₂, τ₂, hle₂, hstep', hτ⟩ :=
      hρ.stepWith hI hR hev hstep fun m hm => hallows m (List.mem_append_right _ hm)
    exact ⟨w₂, τ₂, hle₁.trans hle₂, hsteps.tail hstep', hτ⟩

/-- Where anything may happen, this is so of all runs. -/
theorem Sound.steps (hallows : ∀ m, I.Allows m)
    (hR : ∀ w w' a b, w ≤ w' → R w a b → R w' a b) {ev : Evaluator}
    (hev : I.diagonal.Evaluates ev) {σ σ' : System α} {τ : System β} (hσ : I.Sound R w σ τ)
    (h : ReflTransGen (System.Step ev.evaluate) σ σ') :
    ∃ w' τ', w ≤ w' ∧ ReflTransGen (System.Step ev.evaluate) τ τ' ∧ I.Sound R w' σ' τ' := by
  obtain ⟨log, htrail⟩ := Trail.exists_of_reflTransGen h
  obtain ⟨w', τ', hle, htrail', hsound⟩ := hσ.trail hI hR hev htrail fun m _ => hallows m
  exact ⟨w', τ', hle, htrail'.reflTransGen, hsound⟩

end Invariant

end BracketScript
