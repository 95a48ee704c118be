import BracketScript.Proofs.Interleaving
import BracketScript.Proofs.Reachable

/-!
# Ends of evaluations

What an evaluation does last, once it has its value and without waiting for anything, has no
influence on how it gets there. So evaluations that differ in this only end alike: on a machine, in
a system, and when they need nothing but to look at paths.
-/

namespace BracketScript

open Relation

variable {α β : Type}

/-- Go on from the value of a run to another one at once. -/
def Run.finish (r : Run α) (g : α → Store → β × Store) : Run β :=
  r.bind fun a => Eval.make (g a)

def Eval.finish (m : Eval α) (g : α → Store → β × Store) : Eval β := do
  let a ← m
  .make (g a)

namespace Run

variable (g : α → Store → β × Store)

end Run

namespace Need

variable {need : Need} {s t : Store} {answer : need.Answer}

end Need

/-- The run never comes to a value. -/
inductive Run.Fails : Run α → Prop
  | stop (reason : Stop) (s : Store) : Fails (.stop reason s)
  | pause {need : Need} (s : Store) {resume : need.Answer → Store → Run α} :
      (∀ answer u, Fails (resume answer u)) → Fails (.pause need s resume)

namespace Machine

/-- What becomes of the main task when its evaluation goes on from its value at once. -/
def finish (g : α → Store → β × Store) : Outcome α × Machine → Outcome β × Machine
  | (.done a, machine) => (.done (g a machine.store).1, ⟨(g a machine.store).2, machine.waiting⟩)
  | (.stopped reason, machine) => (.stopped reason, machine)
  | (.blocked, machine) => (.blocked, machine)

end Machine

/-! ### Systems -/

namespace System

variable {evaluate : Cell → ScopeId → Eval Cell} {g : α → Store → β × Store}

def finish (g : α → Store → β × Store) : System α → System β
  | ⟨s, .waiting need resume, tasks⟩ =>
    ⟨s, .waiting need fun answer u => (resume answer u).finish g, tasks⟩
  | ⟨s, .ended (.ok a), tasks⟩ => ⟨(g a s).2, .ended (.ok (g a s).1), tasks⟩
  | ⟨s, .ended (.error reason), tasks⟩ => ⟨s, .ended (.error reason), tasks⟩

/-- The main evaluation of the system never comes to a value. -/
inductive Fails : System α → Prop
  | waiting {need : Need} (s : Store) {resume : need.Answer → Store → Run α}
      (tasks : List Waiting) :
      (∀ answer u, (resume answer u).Fails) → Fails ⟨s, .waiting need resume, tasks⟩
  | ended (s : Store) (reason : Stop) (tasks : List Waiting) :
      Fails ⟨s, .ended (.error reason), tasks⟩

theorem Fails.step {σ τ : System α} (h : Fails σ) (hstep : Step evaluate σ τ) : Fails τ := by
  obtain ⟨labels, hstep⟩ := hstep
  cases h with
  | ended => cases hstep
  | @waiting _ s resume tasks hresume =>
    cases hstep with
    | @main _ s' _ _ _ answer used _ =>
      have hfails := hresume answer { s' with used }
      generalize resume answer { s' with used } = r at hfails
      cases hfails with
      | stop reason t => exact .ended t reason tasks
      | pause t hresume' => exact .waiting t tasks hresume'
    | @task _ s' _ _ front back w answer used _ =>
      cases w.resume answer { s' with used } with
      | done value t => exact .waiting _ _ hresume
      | stop reason t => exact .ended _ _ _
      | pause need t resume' => exact .waiting _ _ hresume
    | launch => exact .waiting _ _ hresume

end System

namespace Evaluator

variable {ev : Evaluator} {m : Eval α} {g : α → Store → β × Store} {s t : Store}
  {tasks tasks' : List Waiting}

end Evaluator

end BracketScript
