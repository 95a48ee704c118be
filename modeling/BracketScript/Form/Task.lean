import BracketScript.Form

/-!
# Forms on tasks, channels and references

A task evaluates its body in a scope of its own, side by side with the rest of the program. Tasks,
channels and references are reached through handles, whose members are the methods.
-/

namespace BracketScript.Form

def bindMethods (members : ScopeId) : List Method → Eval Unit
  | [] => pure ()
  | method :: methods => do
    let cell ← .newCell (.procedure (.method method))
    .define members method.name cell
    bindMethods members methods

def newHandle (kind : HandleKind) (methods : List Method) : Eval Cell := do
  let members ← .make fun s => s.newScope []
  bindMethods members methods
  .newCell (.handle kind members)

/-- Start a task, which goes on when it is its turn. -/
def startTask (call : Call) (scope : ScopeId) : Eval TaskId := do
  match call.operands with
  | [body] =>
    let inner ← .childScope scope
    .make fun s => s.newTask body inner
  | _ => call.failArity (.exactly 1)

def spawnAsync : Form := fun _ call scope => do
  let task ← startTask call scope
  newHandle .async [.waitFor task, .resultOf task]

def spawnThread : Form := fun _ call scope => do
  let task ← startTask call scope
  newHandle .thread [.join task, .detach task, .isJoinable task, .threadName task]

def channel : Form := fun _ call _ => do
  match call.operands with
  | [] =>
    let channel ← .make fun s => s.newChannel
    newHandle .channel [.send channel, .receive channel, .hasData channel, .drain channel]
  | _ => call.failArity (.exactly 0)

def referenceTo (initial : Option Cell) : Eval Cell := do
  let reference ← .make fun s => s.newReference initial
  newHandle .reference [.write reference, .read reference]

def reference : Form := fun ev call scope => do
  match call.operands with
  | [] => referenceTo none
  | [operand] =>
    let value ← ev.eval operand scope
    let copied ← .copy value
    referenceTo (some copied)
  | _ => call.failArity (.between 0 1)

def awaitTask (task : TaskId) : Eval Cell := do
  match ← .read fun s => (s.task task).result with
  | some result => pure result
  | none => .await (.completion task)

/-- Give up the right to join a task, which can be done once. -/
def release (call : Call) (task : TaskId) : Eval Unit := do
  if ← .read fun s => (s.task task).joinable then
    .modify fun s => s.modifyTask task fun t => { t with joinable := false }
  else call.fail .notJoinable

def threadText (task : TaskId) : String :=
  s!"ThreadId({task.index + 2})"

def noOperands (call : Call) : Eval Unit :=
  match call.operands with
  | [] => pure ()
  | _ => call.failArity (.exactly 0)

def send (ev : Evaluator) (channel : ChannelId) (operands : List Cell) (scope : ScopeId) :
    Eval Cell := do
  let values ← ev.evalAll scope operands
  let sent ← .copyAll values
  .await (.access channel (.put sent))
  .newBool true

def method (m : Method) : Form := fun ev call scope => do
  match m with
  | .waitFor task =>
    noOperands call
    let _ ← awaitTask task
    .newBool true
  | .resultOf task =>
    noOperands call
    awaitTask task
  | .join task =>
    noOperands call
    release call task
    let _ ← awaitTask task
    .newBool true
  | .detach task =>
    noOperands call
    release call task
    .newBool true
  | .isJoinable task =>
    noOperands call
    .newBool (← .read fun s => (s.task task).joinable)
  | .threadName task =>
    noOperands call
    .newCell (.string (threadText task))
  | .send channel =>
    match call.operands with
    | [] => .newBool false
    | operands => send ev channel operands scope
  | .receive channel =>
    noOperands call
    .await (.access channel .get)
  | .hasData channel =>
    noOperands call
    .newBool (← .await (.access channel .look))
  | .drain channel =>
    noOperands call
    .newList (← .await (.access channel .drain))
  | .write reference =>
    match call.operands with
    | [operand] =>
      let value ← ev.eval operand scope
      let copied ← .copy value
      .modify fun s => s.writeReference reference copied
      return copied
    | _ => call.failArity (.exactly 1)
  | .read reference =>
    noOperands call
    match ← .read fun s => s.reference reference with
    | some value => pure value
    | none => .newNil

end BracketScript.Form
