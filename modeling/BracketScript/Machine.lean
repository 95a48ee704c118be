import BracketScript.Evaluator

/-!
# The machine

A machine is a store together with the tasks that wait for something. It runs an evaluation as its
main task: whenever the main task pauses, each waiting task goes on once if what it needs is there,
and then the main task does. So every task that can go on does so in turn.

Paths that the host knows nothing about are looked at through a function of the surroundings.
-/

namespace BracketScript

structure Waiting where
  task : TaskId
  need : Need
  resume : need.Answer → Store → Run Cell

structure Machine where
  store : Store
  waiting : List Waiting

inductive Outcome (α : Type) where
  | done (value : α)
  | stopped (reason : Stop)
  /-- It waits for something that no task will bring about. -/
  | blocked

namespace Machine

variable {m : Type → Type} [Monad m] {α : Type}

def initial : Machine := ⟨.initial, []⟩

/-- The answer to a need, if there is one, and the store in which it was taken. -/
def answer? (look : String → m Entry) :
    (need : Need) → Store → m (Option (need.Answer × Store))
  | .turn _, s => pure (some ((), s))
  | .access channel request, s => pure (request.perform? channel s)
  | .completion task, s =>
    match (s.task task).result with
    | some result => pure (some (result, s))
    | none => pure none
  | .entry path, s => do
    let entry ← look path
    pure (some (entry, s))
  | .source _ _, s => pure (some ((), s))

/-- Go on as long as what is needed does not depend on others: turns that are not filled, requests
that a channel can answer and texts that are to be read. -/
def serve : Run α → Run α
  | .pause (.access channel request) s resume =>
    match request.perform? channel s with
    | some (answer, s') => serve (resume answer s')
    | none => .pause (.access channel request) s resume
  | .pause (.turn false) s resume => serve (resume () s)
  | .pause (.source _ _) s resume => serve (resume () s)
  | r => r

def ofLaunch (evaluate : Cell → ScopeId → Eval Cell) (launch : Launch) : Waiting :=
  ⟨launch.task, .turn true, fun _ s => evaluate launch.body launch.scope s⟩

/-- Take the tasks that were made since into the machine. -/
def start (evaluate : Cell → ScopeId → Eval Cell) (s : Store) (waiting : List Waiting) : Machine :=
  ⟨{ s with launches := [] }, waiting ++ s.launches.map (ofLaunch evaluate)⟩

/-- What the end of a task means for the program: a task that ends without a value has nobody to
report to, and so it ends the program. -/
def endOfTask : Stop → Stop
  | .exit status => .exit status
  | .exhausted => .exhausted
  | .breakOut | .yieldUp _ | .fault _ => .exit 1

structure Pass where
  store : Store
  waiting : List Waiting
  /-- Some task has gone on. -/
  moved : Bool
  /-- The program was ended. -/
  ended : Option Stop

def pass (look : String → m Entry) (s : Store) : List Waiting → m Pass
  | [] => pure ⟨s, [], false, none⟩
  | w :: ws => do
    match ← answer? look w.need s with
    | none =>
      let rest ← pass look s ws
      pure { rest with waiting := w :: rest.waiting }
    | some (answer, s') =>
      match serve (w.resume answer s'.beginTurn) with
      | .done value s'' =>
        let rest ← pass look (s''.endTask w.task value) ws
        pure { rest with moved := true }
      | .stop reason s'' => pure ⟨s'', ws, true, some (endOfTask reason)⟩
      | .pause need s'' resume =>
        let rest ← pass look s'' ws
        pure { rest with waiting := ⟨w.task, need, resume⟩ :: rest.waiting, moved := true }

/-- Run the main task to its end, with at most `fuel` pauses. -/
def drive (look : String → m Entry) (evaluate : Cell → ScopeId → Eval Cell) :
    (fuel : Nat) → List Waiting → Run α → m (Outcome α × Machine)
  | _, waiting, .done value s => pure (.done value, ⟨s, waiting⟩)
  | _, waiting, .stop reason s => pure (.stopped reason, ⟨s, waiting⟩)
  | 0, waiting, .pause _ s _ => pure (.stopped .exhausted, ⟨s, waiting⟩)
  | fuel + 1, waiting, .pause need s resume => do
    let started := start evaluate s waiting
    let pass ← pass look started.store started.waiting
    match pass.ended with
    | some reason => pure (.stopped reason, ⟨pass.store, pass.waiting⟩)
    | none =>
      match ← answer? look need pass.store with
      | some (answer, s') =>
        drive look evaluate fuel pass.waiting (serve (resume answer s'.beginTurn))
      | none =>
        if pass.moved then drive look evaluate fuel pass.waiting (.pause need pass.store resume)
        else pure (.blocked, ⟨pass.store, pass.waiting⟩)

/-- A bound that no program meets in practice. -/
def unbounded : Nat := 0x4000000000000000

def run (machine : Machine) (look : String → m Entry) (ev : Evaluator) (main : Eval α) :
    m (Outcome α × Machine) :=
  drive look ev.evaluate unbounded machine.waiting (serve (main machine.store))

def takeOutput (machine : Machine) : String × Machine :=
  (machine.store.output, { machine with store := { machine.store with output := "" } })

end Machine

end BracketScript
