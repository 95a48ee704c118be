import BracketScript.Name

/-!
# Runs

An evaluation works on a store. It comes to a value, it stops short of one, or it pauses until
something it needs is there; `Run` is the tree of these possibilities. Breaks, yields and faults are
all reasons to stop, so that an operand that stops stops whatever it is an operand of.

A pause keeps the rest of the evaluation as a function of the answer to its need and of the store at
that time, because other tasks may have run in between. Who resumes a pause, and when, is not
decided here.

Tasks take turns. As long as there are several, each counts its work and gives way when its turn is
used up. A short task is thus over within its first turn, and no task waits for ever by working.
-/

namespace BracketScript

/-- Why an evaluation came to no value. -/
inductive Stop where
  /-- The innermost loop is to be left. -/
  | breakOut
  /-- The innermost lambda is to return the value. -/
  | yieldUp (value : Cell)
  | fault (fault : Fault)
  /-- The whole program is to end. -/
  | exit (status : Int64)
  /-- The bound on the depth of the evaluation was met. -/
  | exhausted

inductive Request where
  /-- The values are to be added at the end, one after the other. -/
  | put (values : List Cell)
  /-- The value that came first is to be taken, once there is one. -/
  | get
  | drain
  /-- Does something wait? -/
  | look

abbrev Request.Answer : Request → Type
  | .put _ => Unit
  | .get => Cell
  | .drain => List Cell
  | .look => Bool

/-- What is answered to a request where values wait in a queue, if it can be, and what is left in
the queue. -/
def Request.answer? : (request : Request) → Queue Cell → Option (request.Answer × Queue Cell)
  | .put values, queue => some ((), queue.pushAll values)
  | .get, queue => queue.pop?
  | .drain, queue => some (queue.toList, .empty)
  | .look, queue => some (!queue.isEmpty, queue)

/-- What a channel answers to a request, if it can, and the store after that. -/
def Request.perform? (request : Request) (channel : ChannelId) (s : Store) :
    Option (request.Answer × Store) := do
  let queue ← s.queue? channel
  let (answer, rest) ← request.answer? queue
  pure (answer, s.setQueue channel rest)

/-- What a paused evaluation waits for. -/
inductive Need where
  /-- The other tasks have had their turn. As long as the own turn is not filled, they need not
  have one. -/
  | turn (filled : Bool)
  /-- The channel has answered the request. -/
  | access (channel : ChannelId) (request : Request)
  /-- The task has come to its end. -/
  | completion (task : TaskId)
  /-- Somebody has looked at the path. -/
  | entry (path : String)
  /-- Somebody has taken note of a text that is to be read as a program, and of its name. -/
  | source (origin : Option String) (text : String)

abbrev Need.Answer : Need → Type
  | .turn _ => Unit
  | .access _ request => request.Answer
  | .completion _ => Cell
  | .entry _ => Entry
  | .source _ _ => Unit

/-- What an evaluation comes to. -/
inductive Run (α : Type) where
  | done (value : α) (store : Store)
  | stop (reason : Stop) (store : Store)
  | pause (need : Need) (store : Store) (resume : need.Answer → Store → Run α)

/-- An evaluation: what it comes to from each store. -/
def Eval (α : Type) : Type := Store → Run α

/-- What became of an evaluation that a loop or lambda may catch. -/
inductive Flow where
  | value (cell : Cell)
  | breakOut
  | yieldUp (cell : Cell)

inductive Round (σ α : Type) where
  /-- There is another round. -/
  | again (next : σ)
  /-- The loop has come to its result. -/
  | finish (result : α)

namespace Run

variable {α β : Type}

def bind : Run α → (α → Store → Run β) → Run β
  | .done a s, f => f a s
  | .stop reason s, _ => .stop reason s
  | .pause need s resume, f => .pause need s fun answer s' => (resume answer s').bind f

def flow : Run Cell → Run Flow
  | .done c s => .done (.value c) s
  | .stop .breakOut s => .done .breakOut s
  | .stop (.yieldUp c) s => .done (.yieldUp c) s
  | .stop reason s => .stop reason s
  | .pause need s resume => .pause need s fun answer s' => (resume answer s').flow

def attempt : Run α → Run (Except Fault α)
  | .done a s => .done (.ok a) s
  | .stop (.fault fault) s => .done (.error fault) s
  | .stop reason s => .stop reason s
  | .pause need s resume => .pause need s fun answer s' => (resume answer s').attempt

@[simp] theorem bind_done (a : α) (s : Store) (f : α → Store → Run β) :
    (done a s).bind f = f a s := rfl

@[simp] theorem bind_stop (reason : Stop) (s : Store) (f : α → Store → Run β) :
    (stop reason s).bind f = .stop reason s := rfl

@[simp] theorem bind_pause (need : Need) (s : Store) (resume : need.Answer → Store → Run α)
    (f : α → Store → Run β) :
    (pause need s resume).bind f = .pause need s fun answer s' => (resume answer s').bind f := rfl

/-- Going on with what changes nothing changes nothing. -/
theorem bind_pure (r : Run α) : r.bind (fun a s => .done a s) = r := by
  induction r with
  | done a s => rfl
  | stop reason s => rfl
  | pause need s resume ih =>
    have hresume : (fun answer s' => (resume answer s').bind fun a s => .done a s) = resume :=
      funext fun answer => funext fun s' => ih answer s'
    rw [bind_pause, hresume]

/-- Going on twice is going on once with both. -/
theorem bind_assoc {γ : Type} (r : Run α) (f : α → Store → Run β) (g : β → Store → Run γ) :
    (r.bind f).bind g = r.bind fun a s => (f a s).bind g := by
  induction r with
  | done a s => rfl
  | stop reason s => rfl
  | pause need s resume ih =>
    have hresume : (fun answer s' => ((resume answer s').bind f).bind g) =
        fun answer s' => (resume answer s').bind fun a s => (f a s).bind g :=
      funext fun answer => funext fun s' => ih answer s'
    rw [bind_pause, bind_pause, bind_pause, hresume]

end Run

namespace Eval

variable {α β : Type}

instance : Monad Eval where
  pure a := fun s => .done a s
  bind m f := fun s => (m s).bind f

instance : LawfulMonad Eval := LawfulMonad.mk' Eval
  (fun m => funext fun s => (m s).bind_pure)
  (fun _ _ => rfl)
  (fun m f g => funext fun s => (m s).bind_assoc f g)

/-- An evaluation that is done goes on in the store it leads to. -/
theorem bind_of_done {m : Eval α} {f : α → Eval β} {s t : Store} {a : α} (h : m s = .done a t) :
    (m >>= f) s = f a t := by
  change (m s).bind f = f a t
  rw [h]
  rfl

theorem bind_of_stop {m : Eval α} {f : α → Eval β} {s t : Store} {reason : Stop}
    (h : m s = .stop reason t) : (m >>= f) s = .stop reason t := by
  change (m s).bind f = .stop reason t
  rw [h]
  rfl

def modify (f : Store → Store) : Eval Unit := fun s => .done () (f s)

def make (f : Store → α × Store) : Eval α := fun s =>
  let (a, s') := f s
  .done a s'

def read (f : Store → α) : Eval α := fun s => .done (f s) s

def stop (reason : Stop) : Eval α := fun s => .stop reason s

def fail (fault : Fault) : Eval α := stop (.fault fault)

def await (need : Need) : Eval need.Answer := fun s =>
  .pause need s fun answer s' => .done answer s'

/-- Let the other tasks have so many turns. -/
def turns : Nat → Eval Unit
  | 0 => pure ()
  | n + 1 => do
    await (.turn true)
    turns n

/-- How much work fills a turn. -/
def turnLength : Nat := 32

/-- Work as much as so many rounds of a loop. Each time a turn is filled, the other tasks have
theirs. Work counts only if there are other tasks. -/
def work (rounds : Nat) : Eval Unit := fun s =>
  if s.isBusy then
    let used := s.used + rounds
    turns (used / turnLength) { s with used := used % turnLength }
  else .done () s

/-- Without other tasks, work leaves everything as it is. -/
theorem work_of_not_isBusy {s : Store} (h : s.isBusy = false) (rounds : Nat) :
    work rounds s = .done () s := by
  rw [work, h]
  rfl

/-- Let the other tasks go on here, if there are any. -/
def giveWay : Eval Unit := do
  if ← read fun s => s.isBusy then await (.turn false)

theorem giveWay_of_isBusy {s : Store} (h : s.isBusy = true) :
    giveWay s = .pause (.turn false) s fun _ s' => .done () s' := by
  change (if s.isBusy = true then await (.turn false) else pure ()) s = _
  rw [if_pos h]
  rfl

theorem giveWay_of_not_isBusy {s : Store} (h : s.isBusy = false) : giveWay s = .done () s := by
  change (if s.isBusy = true then await (.turn false) else pure ()) s = _
  rw [h]
  rfl

/-- How many bytes of text are as much work as a round of a loop. -/
def bytesPerRound : Nat := 64

def workThrough (text : String) : Eval Unit := work (text.utf8ByteSize / bytesPerRound)

/-- Do rounds one after the other until one comes to a result, at most `rounds` of them. A round
that is done is left behind before the next begins, so that long loops need no more room than short
ones. -/
def loop {σ : Type} (round : σ → Eval (Round σ α)) : (rounds : Nat) → σ → Eval α
  | 0, _ => stop .exhausted
  | rounds + 1, state => fun s =>
    match round state s with
    | .done (.finish result) s' => .done result s'
    | .done (.again next) s' => loop round rounds next s'
    | .stop reason s' => .stop reason s'
    | .pause need s' resume =>
      .pause need s' fun answer s'' =>
        (resume answer s'').bind fun
          | .finish result, t => .done result t
          | .again next, t => loop round rounds next t

/-- A loop does its first round and then the others. -/
theorem loop_succ {σ : Type} (round : σ → Eval (Round σ α)) (rounds : Nat) (state : σ) :
    loop round (rounds + 1) state =
      round state >>= fun
        | .finish result => pure result
        | .again next => loop round rounds next := by
  have hround (r : Run (Round σ α)) :
      (match r with
        | .done (.finish result) s' => .done result s'
        | .done (.again next) s' => loop round rounds next s'
        | .stop reason s' => .stop reason s'
        | .pause need s' resume =>
          .pause need s' fun answer s'' =>
            (resume answer s'').bind fun
              | .finish result, t => .done result t
              | .again next, t => loop round rounds next t) =
        r.bind fun
          | .finish result, t => .done result t
          | .again next, t => loop round rounds next t := by
    cases r with
    | done a s' => cases a <;> rfl
    | stop reason s' => rfl
    | pause need s' resume => rfl
  funext s
  refine (hround (round state s)).trans ?_
  congr 1
  funext a t
  cases a <;> rfl

def flow (m : Eval Cell) : Eval Flow := fun s => (m s).flow

def attempt (m : Eval α) : Eval (Except Fault α) := fun s => (m s).attempt

def readOr (f : Store → Except Fault α) : Eval α := fun s =>
  match f s with
  | .ok a => .done a s
  | .error fault => .stop (.fault fault) s

/-- Make a cell that comes from no source text. -/
def newCell (value : Value) : Eval Cell := make fun s => s.newCell value none #[]

def newList (items : List Cell) : Eval Cell := make fun s =>
  s.newCell .list none items.toArray

def newNil : Eval Cell := newCell .nil

def newBool (b : Bool) : Eval Cell := newCell (.ofBool b)

/-- The cell that is bound for a cell: a new one for a number, text or name, and the same one for
everything else. -/
def copy (c : Cell) : Eval Cell :=
  if c.value.isCopied then make fun s => s.newCell c.value c.location #[] else pure c

def copyAll : List Cell → Eval (List Cell)
  | [] => pure []
  | c :: cs => do
    let d ← copy c
    let ds ← copyAll cs
    return d :: ds

/-- A break that reaches the end of its program or lambda stands for no value, and a yield for the
value it carries. -/
def settle (m : Eval Cell) : Eval Cell := do
  match ← flow m with
  | .value c | .yieldUp c => pure c
  | .breakOut => newNil

end Eval

end BracketScript
