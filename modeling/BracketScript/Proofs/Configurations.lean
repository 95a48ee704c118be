import BracketScript.Proofs.Interleaving
import BracketScript.Proofs.Reachable

/-!
# Configurations

Programs are loaded into one store and evaluated there, whole or in part, one after the other and
with the tasks that were left over from before. A configuration is what there is at some point: the
store, the tasks, the programs and the values that evaluations came to. What evaluation keeps holds
of all configurations that are reached from the first one.
-/

namespace BracketScript

open Relation

/-- The store, the tasks that wait for something, the programs that were loaded and the values that
evaluations came to. -/
structure Configuration where
  store : Store
  tasks : List Waiting
  programs : List (Tree × Cell)
  results : List Cell

def Main.results : Main Cell → List Cell
  | .ended (.ok c) => [c]
  | _ => []

theorem Need.met_of_told? {need : Need} {s t : Store} {entries rest : List Entry}
    {answer : need.Answer} (h : need.told? s entries = some (answer, t, rest)) :
    Met need s answer t := by
  cases need with
  | turn filled => cases h
  | completion task => cases h
  | source origin text =>
    cases h
    exact .source origin text s
  | entry path =>
    cases entries with
    | nil => cases h
    | cons found entries =>
      cases h
      exact .entry path s _
  | access channel request =>
    obtain ⟨p, hperform, heq⟩ := Option.map_eq_some_iff.1 h
    cases heq
    exact .access hperform

/-- A main evaluation that waits for no task comes to its end by steps of its own. -/
theorem System.steps_of_end? {α : Type} (evaluate : Cell → ScopeId → Eval Cell)
    (tasks : List Waiting) {r : Run α} {entries : List Entry} {outcome : Except Stop α} {t : Store}
    (h : r.end? entries = some (outcome, t)) :
    ReflTransGen (Step evaluate) (arrive tasks r) ⟨t, .ended outcome, tasks⟩ := by
  induction r generalizing entries with
  | done a s =>
    cases entries <;> cases h
    exact .refl
  | stop reason s =>
    cases entries <;> cases h
    exact .refl
  | pause need s resume ih =>
    obtain ⟨⟨answer, s', rest⟩, htold, hrest⟩ := Option.bind_eq_some_iff.1 h
    exact .head (.main s'.used (Need.met_of_told? htold)) (ih answer s' hrest)

namespace Configuration

def initial : Configuration := ⟨.initial, [], [], []⟩

/-- Values: what programs can get hold of, what tasks came to, and the items of these. -/
inductive HasValue (κ : Configuration) : Cell → Prop
  | held {c : Cell} : Held κ.store κ.results c → HasValue κ c
  | completed {c : Cell} (task : TaskId) : (κ.store.task task).result = some c → HasValue κ c
  | item {c d : Cell} : HasValue κ c → c.value = .list → d ∈ κ.store.items c.id → HasValue κ d

/-- Cells of programs: of those that were loaded, of the bodies of lambdas and of tasks that were
made. -/
inductive InProgram (κ : Configuration) : Cell → Prop
  | root {tree : Tree} {c : Cell} : (tree, c) ∈ κ.programs → InProgram κ c
  | body {c body : Cell} {parameters : List String} {scope : ScopeId} :
      κ.HasValue c → c.value = .lambda parameters body scope → InProgram κ body
  | launched {launch : Launch} : launch ∈ κ.store.launches → InProgram κ launch.body
  | item {c d : Cell} : InProgram κ c → c.value = .list → d ∈ κ.store.items c.id → InProgram κ d

/-- The configuration after the system has run as far as `σ`. -/
def after (κ : Configuration) (σ : System Cell) : Configuration :=
  ⟨σ.store, σ.tasks, κ.programs, σ.main.results ++ κ.results⟩

/-- A program is loaded, any cell of a program or a source text is evaluated in any scope and for as
long as one likes, or the output is taken. The labels are those of the evaluation. -/
inductive NextWith (ev : Evaluator) : Configuration → List Meeting → Configuration → Prop
  | load {κ : Configuration} (tree : Tree) :
      NextWith ev κ [] ⟨(κ.store.load tree).2, κ.tasks,
        (tree, (κ.store.load tree).1) :: κ.programs, κ.results⟩
  | evaluate {κ : Configuration} {c : Cell} {log : List Meeting} {σ : System Cell}
      (scope : ScopeId) :
      κ.InProgram c →
      Trail (System.StepWith ev.evaluate)
        (System.starting κ.store (ev.evaluate c scope) κ.tasks) log σ →
      NextWith ev κ log (κ.after σ)
  | text {κ : Configuration} {log : List Meeting} {σ : System Cell} (origin : Option String)
      (text : String) (scope : ScopeId) :
      Trail (System.StepWith ev.evaluate)
        (System.starting κ.store (ev.runText origin text scope) κ.tasks) log σ →
        NextWith ev κ log (κ.after σ)
  | flush {κ : Configuration} : NextWith ev κ [] { κ with store := { κ.store with output := "" } }

def Next (ev : Evaluator) (κ κ' : Configuration) : Prop :=
  ∃ log, NextWith ev κ log κ'

theorem Next.load {ev : Evaluator} {κ : Configuration} (tree : Tree) :
    Next ev κ ⟨(κ.store.load tree).2, κ.tasks, (tree, (κ.store.load tree).1) :: κ.programs,
      κ.results⟩ :=
  ⟨_, .load tree⟩

theorem Next.evaluate {ev : Evaluator} {κ : Configuration} {c : Cell} {σ : System Cell}
    (scope : ScopeId) (hc : κ.InProgram c)
    (h : ReflTransGen (System.Step ev.evaluate)
      (System.starting κ.store (ev.evaluate c scope) κ.tasks) σ) : Next ev κ (κ.after σ) :=
  (Trail.exists_of_reflTransGen h).imp fun _ => .evaluate scope hc

theorem Next.mem_programs {ev : Evaluator} {κ κ' : Configuration} (h : Next ev κ κ')
    {p : Tree × Cell} (hp : p ∈ κ.programs) : p ∈ κ'.programs := by
  obtain ⟨_, h⟩ := h
  cases h with
  | load tree => exact List.mem_cons_of_mem _ hp
  | _ => exact hp

/-- Configurations that are reached from the first one. -/
def Reaches (ev : Evaluator) (κ : Configuration) : Prop :=
  ReflTransGen (Next ev) initial κ

/-- The evaluation of a tree that waits for no task leads to its value. -/
theorem Reaches.value {ev : Evaluator} {κ : Configuration} (h : κ.Reaches ev)
    (tree : Tree) (scope : ScopeId) {entries : List Entry} {c : Cell} {t : Store}
    (hend : (ev.runTree scope tree κ.store).end? entries = some (.ok c, t)) :
    Reaches ev
      ⟨t, κ.tasks, (tree, (κ.store.load tree).1) :: κ.programs, c :: κ.results⟩ := by
  let loaded : Configuration :=
    ⟨(κ.store.load tree).2, κ.tasks, (tree, (κ.store.load tree).1) :: κ.programs, κ.results⟩
  have hnext : Next ev loaded (loaded.after ⟨t, .ended (.ok c), κ.tasks⟩) :=
    .evaluate scope (.root List.mem_cons_self)
      (.head (.main _ (.turn _ _)) (System.steps_of_end? _ κ.tasks hend))
  exact (h.tail (.load tree)).tail hnext

def play? (look : String → Id Entry) (ev : Evaluator) (scope : ScopeId) (tree : Tree)
    (choices : List System.Choice) (κ : Configuration) : Option (List Meeting × Configuration) :=
  (System.play? look ev.evaluate (.starting (κ.store.load tree).2
    (ev.evaluate (κ.store.load tree).1 scope) κ.tasks) choices).map fun played =>
      (played.1, after ⟨(κ.store.load tree).2, κ.tasks,
        (tree, (κ.store.load tree).1) :: κ.programs, κ.results⟩ played.2)

theorem trail_of_play? {look : String → Id Entry} {ev : Evaluator} {scope : ScopeId} {tree : Tree}
    {choices : List System.Choice} {κ κ' : Configuration} {log : List Meeting}
    (h : κ.play? look ev scope tree choices = some (log, κ')) : Trail (NextWith ev) κ log κ' := by
  obtain ⟨⟨log, σ⟩, hplay, heq⟩ := Option.map_eq_some_iff.1 h
  cases heq
  exact (Trail.single (NextWith.load tree)).tail
    (NextWith.evaluate scope (.root List.mem_cons_self) (System.trail_of_play? hplay))

end Configuration

namespace Invariant

/-- An invariant that makes no difference between scopes and surroundings and between programs of
some kind. -/
structure IsGeneral (I : Invariant) (programs : Tree → Prop) : Prop where
  lawful : I.Lawful
  entries (path : String) (entry : Entry) : I.entries path entry
  sources (origin : Option String) (text : String) : I.sources origin text
  isOpen (w : I.World) (scope : ScopeId) : I.isOpen w scope
  turns : I.turns
  load {w : I.World} {s : Store} {tree : Tree} : programs tree →
    I.stores w s → ∃ w', w ≤ w' ∧ I.stores w' (s.load tree).2 ∧ I.codes w' (s.load tree).1

/-- The invariant holds of the configuration. -/
structure Covers (I : Invariant) (w : I.World) (κ : Configuration) : Prop where
  store : I.stores w κ.store
  tasks : ∀ t ∈ κ.tasks, I.SoundTask w t
  programs : ∀ p ∈ κ.programs, I.codes w p.2
  results : ∀ c ∈ κ.results, I.values w c

variable {I : Invariant} {w : I.World} {κ κ' : Configuration} {c : Cell}

theorem Covers.held (hI : I.Lawful) (hκ : I.Covers w κ) (h : Held κ.store κ.results c) :
    I.values w c := by
  induction h with
  | result hc => exact hκ.results _ hc
  | bound scope name hc => exact hI.get? hκ.store hc
  | queued channel hc => exact hI.queue hκ.store hc
  | referenced id hc => exact hI.reference hκ.store hc
  | item _ hlist hitem ih => exact hI.valueItems hκ.store ih hlist _ hitem

theorem Covers.hasValue (hI : I.Lawful) (hκ : I.Covers w κ) (h : κ.HasValue c) : I.values w c := by
  induction h with
  | held hc => exact hκ.held hI hc
  | completed task hc => exact hI.result hκ.store hc
  | item _ hlist hitem ih => exact hI.valueItems hκ.store ih hlist _ hitem

theorem codes_body (hI : I.Lawful) (hc : I.values w c) {parameters : List String} {body : Cell}
    {scope : ScopeId} (hlambda : c.value = .lambda parameters body scope) : I.codes w body := by
  have hvalue := hI.values_value hc
  rw [Holds, hlambda] at hvalue
  cases hvalue with
  | lambda _ hbody => exact hbody.2

theorem Covers.inProgram (hI : I.Lawful) (hκ : I.Covers w κ) (h : κ.InProgram c) :
    I.codes w c := by
  induction h with
  | root hc => exact hκ.programs _ hc
  | body hc hlambda => exact codes_body hI (hκ.hasValue hI hc) hlambda
  | launched hlaunch => exact (hI.launch hκ.store hlaunch).1
  | item _ hlist hitem ih => exact hI.codeItems hκ.store ih hlist _ hitem

theorem Covers.starting {α β : Type} {R : I.World → α → β → Prop} (hκ : I.Covers w κ)
    {m : Eval α} {m' : Eval β} (hm : I.diagonal.Evals w R m m') :
    I.Sound R w (System.starting κ.store m κ.tasks) (System.starting κ.store m' κ.tasks) := by
  refine ⟨rfl, rfl, hκ.store, .waiting ⟨.turn true, ?_⟩, hκ.tasks⟩
  exact fun w' _ s hle hs _ => hm w' hle s s ⟨rfl, hs⟩

variable {programs : Tree → Prop} (hI : I.IsGeneral programs)

include hI

theorem IsGeneral.allows (m : Meeting) : I.Allows m := by
  obtain ⟨need, answer⟩ := m
  cases need with
  | turn filled => exact hI.turns
  | entry path => exact hI.entries path answer
  | source origin text => exact fun _ => hI.sources origin text
  | access channel request => exact trivial
  | completion task => exact trivial

/-- The invariant holds of what a system runs to. -/
theorem Covers.after {ev : Evaluator} (hev : I.diagonal.Evaluates ev) (hκ : I.Covers w κ)
    {m : Eval Cell} (hm : I.diagonal.Evals w I.diagonal.values m m) {σ : System Cell}
    (h : ReflTransGen (System.Step ev.evaluate) (System.starting κ.store m κ.tasks) σ) :
    ∃ w', w ≤ w' ∧ I.Covers w' (κ.after σ) := by
  have hmono : ∀ w w' c d, w ≤ w' → I.diagonal.values w c d → I.diagonal.values w' c d :=
    fun _ _ _ _ hle hc => ⟨hc.1, hI.lawful.values_mono hle hc.2⟩
  obtain ⟨w', τ, hle, -, hsound⟩ := (hκ.starting hm).steps hI.lawful hI.allows hmono hev h
  refine ⟨w', hle, hsound.store, hsound.tasks,
    fun p hp => hI.lawful.codes_mono hle (hκ.programs p hp), fun c hc => ?_⟩
  rcases List.mem_append.1 hc with hnew | hold
  · have hmain := hsound.main
    generalize σ.main = main at hmain hnew
    generalize τ.main = main' at hmain
    cases hmain with
    | ok hvalue => exact List.mem_singleton.1 hnew ▸ hvalue.2
    | waiting _ => exact absurd hnew List.not_mem_nil
    | error _ _ => exact absurd hnew List.not_mem_nil
  · exact hI.lawful.values_mono hle (hκ.results c hold)

theorem Covers.next {ev : Evaluator} (hev : I.diagonal.Evaluates ev) (hκ : I.Covers w κ)
    (h : Configuration.Next ev κ κ') (hprograms : ∀ p ∈ κ'.programs, programs p.1) :
    ∃ w', w ≤ w' ∧ I.Covers w' κ' := by
  obtain ⟨_, h⟩ := h
  cases h with
  | load tree =>
    obtain ⟨w', hle, hstore, hcode⟩ := hI.load (hprograms _ List.mem_cons_self) hκ.store
    exact ⟨w', hle, hstore, fun t ht => (hκ.tasks t ht).mono hI.lawful hle,
      List.forall_mem_cons.2 ⟨hcode, fun p hp => hI.lawful.codes_mono hle (hκ.programs p hp)⟩,
      fun c hc => hI.lawful.values_mono hle (hκ.results c hc)⟩
  | evaluate scope hc hsteps =>
    have hcode := hκ.inProgram hI.lawful hc
    exact hκ.after hI hev
      (hI.lawful.diagonal.evaluate hev ⟨rfl, hcode⟩ (hI.isOpen w scope))
      hsteps.reflTransGen
  | text origin text scope hsteps =>
    exact hκ.after hI hev
      (hI.lawful.diagonal.runText hev (hI.isOpen w scope) (hI.sources origin text))
      hsteps.reflTransGen
  | flush => exact ⟨w, le_rfl, hI.lawful.setOutput _ hκ.store, hκ.tasks, hκ.programs, hκ.results⟩

theorem IsGeneral.evaluates {host : Host} (hpackages : host.packages = []) (fuel : Nat) :
    I.diagonal.Evaluates (evaluator host fuel) :=
  hI.lawful.diagonal.evaluates hpackages (fun _ _ _ => hI.entries _ _) fuel

/-- The invariant holds of all later configurations. -/
theorem Covers.later {host : Host} (hpackages : host.packages = []) {fuel : Nat}
    (hκ : I.Covers w κ)
    (h : ReflTransGen (Configuration.Next (evaluator host fuel)) κ κ')
    (hprograms : ∀ p ∈ κ'.programs, programs p.1) : ∃ w', w ≤ w' ∧ I.Covers w' κ' := by
  induction h with
  | refl => exact ⟨w, le_rfl, hκ⟩
  | tail _ hnext ih =>
    -- what was loaded before is still there
    obtain ⟨w₁, hle₁, hκ₁⟩ := ih fun p hp => hprograms p (hnext.mem_programs hp)
    obtain ⟨w₂, hle₂, hκ₂⟩ := hκ₁.next hI (hI.evaluates hpackages fuel) hnext hprograms
    exact ⟨w₂, hle₁.trans hle₂, hκ₂⟩

end Invariant

end BracketScript
