import BracketScript.Proofs.Operands
import BracketScript.Proofs.Preservation

/-!
# Channels

The calls on a channel come from any number of tasks and in any order. What each of them does to the
queue of the channel is a single step, an `Access`, and the log of a run has these steps in their
order (`accessesTo`). The log obeys one law: what was put is, in this order, what was taken and what
still waits. So nothing is lost, doubled or overtaken.

A call on a channel makes one access, after its operands were evaluated.
-/

namespace BracketScript

/-! ### Accesses -/

/-- What a call does to the queue of a channel. -/
inductive Access where
  /-- The values were added at the end, one after the other. -/
  | put (values : List Cell)
  | get (value : Cell)
  | drain (values : List Cell)
  /-- It was found out whether something waits. -/
  | look (hasData : Bool)

namespace Access

def added : Access → List Cell
  | .put values => values
  | .get _ | .drain _ | .look _ => []

def removed : Access → List Cell
  | .get value => [value]
  | .drain values => values
  | .put _ | .look _ => []

end Access

def Request.access : (request : Request) → request.Answer → Access
  | .put values, _ => .put values
  | .get, value => .get value
  | .drain, values => .drain values
  | .look, hasData => .look hasData

def Meeting.accessTo? (channel : ChannelId) : Meeting → Option Access
  | ⟨.access id request, answer⟩ => if id = channel then some (request.access answer) else none
  | _ => none

/-- The accesses to a channel in the order of the log. -/
def accessesTo (channel : ChannelId) (log : List Meeting) : List Access :=
  log.filterMap (Meeting.accessTo? channel)

theorem accessesTo_append (channel : ChannelId) (log log' : List Meeting) :
    accessesTo channel (log ++ log') = accessesTo channel log ++ accessesTo channel log' :=
  List.filterMap_append

/-- An answer keeps the order of what waits: it is taken from the front and added at the end. -/
theorem Request.toList_append {request : Request} {queue rest : Queue Cell}
    {answer : request.Answer} (h : request.answer? queue = some (answer, rest)) :
    queue.toList ++ (request.access answer).added =
      (request.access answer).removed ++ rest.toList := by
  cases request with
  | put values =>
    cases h
    exact (Queue.toList_pushAll queue values).symm
  | get => exact (List.append_nil _).trans (Queue.toList_of_pop? h)
  | drain =>
    cases h
    exact rfl
  | look =>
    cases h
    exact List.append_nil _

namespace Store

variable {s t : Store} {channel : ChannelId}

def HasChannel (s : Store) (channel : ChannelId) : Prop :=
  channel.index < s.channels.size

theorem queue?_eq_some_iff {queue : Queue Cell} :
    s.queue? channel = some queue ↔ s.HasChannel channel ∧ s.queue channel = queue := by
  rw [queue?]
  split
  · next hhas => exact Option.some_inj.trans ⟨fun h => ⟨hhas, h⟩, And.right⟩
  · next hnot =>
    exact ⟨fun h => absurd h.symm (Option.some_ne_none queue), fun h => absurd h.1 hnot⟩

theorem queue_setQueue (h : s.HasChannel channel) (queue : Queue Cell) :
    (s.setQueue channel queue).queue channel = queue := by
  rw [Store.queue, setQueue, Arena.get_modify, if_pos ⟨rfl, h⟩]

theorem queue_setQueue_of_ne {id : ChannelId} (h : id ≠ channel) (queue : Queue Cell) :
    (s.setQueue id queue).queue channel = s.queue channel := by
  rw [Store.queue, setQueue, Arena.get_modify, if_neg fun hid => h (congrArg ChannelId.mk hid.1)]
  rfl

theorem queue_newChannel (s : Store) (channel : ChannelId) :
    s.newChannel.2.queue channel = s.queue channel := by
  rw [queue, newChannel, Arena.get_push]
  split
  · next hindex =>
    rw [queue, Arena.get_of_size_le _ (Nat.le_of_eq hindex.symm)]
    rfl
  · rfl

/-- The store changes without access to the channel. -/
def LeavesChannel (channel : ChannelId) (s t : Store) : Prop :=
  t.queue channel = s.queue channel

theorem LeavesChannel.of_channels_eq (h : t.channels = s.channels) : s.LeavesChannel channel t := by
  rw [LeavesChannel, queue, queue, h]

/-- What waited and what the log says was put since is what the log says was taken and what still
waits. -/
def Balances (channel : ChannelId) (s : Store) (log : List Meeting) (t : Store) : Prop :=
  (s.queue channel).toList ++ (accessesTo channel log).flatMap Access.added =
    (accessesTo channel log).flatMap Access.removed ++ (t.queue channel).toList

end Store

theorem met_access_iff {channel : ChannelId} {request : Request} {s t : Store}
    {answer : request.Answer} :
    Met (.access channel request) s answer t ↔ s.HasChannel channel ∧
      ∃ rest, request.answer? (s.queue channel) = some (answer, rest) ∧
        t = s.setQueue channel rest := by
  constructor
  · intro h
    cases h with
    | access hperform =>
    obtain ⟨queue, hqueue, hperform⟩ := Option.bind_eq_some_iff.1 hperform
    obtain ⟨⟨answer, rest⟩, hanswer, heq⟩ := Option.bind_eq_some_iff.1 hperform
    cases heq
    obtain ⟨hhas, rfl⟩ := Store.queue?_eq_some_iff.1 hqueue
    exact ⟨hhas, rest, hanswer, rfl⟩
  · rintro ⟨hhas, rest, hanswer, rfl⟩
    have hqueue := Store.queue?_eq_some_iff.2 ⟨hhas, rfl⟩
    exact .access (Option.bind_eq_some_iff.2
      ⟨_, hqueue, Option.bind_eq_some_iff.2 ⟨_, hanswer, rfl⟩⟩)

theorem Met.balances {need : Need} {s t : Store} {answer : need.Answer} (h : Met need s answer t)
    (channel : ChannelId) : s.Balances channel [⟨need, answer⟩] t := by
  cases h with
  | @access _ _ id request _ hperform =>
    obtain ⟨hhas, rest, hanswer, rfl⟩ := met_access_iff.1 (.access hperform)
    by_cases hid : id = channel
    · subst hid
      have hlaw := Request.toList_append hanswer
      simpa [Store.Balances, accessesTo, Meeting.accessTo?, Store.queue_setQueue hhas] using hlaw
    · simp [Store.Balances, accessesTo, Meeting.accessTo?, hid, Store.queue_setQueue_of_ne hid]
  | _ => exact List.append_nil _

/-- The log of a run accounts for what waits in a channel. -/
theorem accounting_balances (channel : ChannelId) :
    Accounting (Store.LeavesChannel channel) (Store.Balances channel) where
  stretch h := by
    rw [Store.Balances, h]
    exact List.append_nil _
  met h := h.balances channel
  trans {s t u log log'} h h' := by
    rw [Store.Balances] at h h' ⊢
    rw [accessesTo_append, List.flatMap_append, List.flatMap_append, ← List.append_assoc, h,
      List.append_assoc, h', List.append_assoc]

/-- Apart from its accesses, a channel is left alone. -/
theorem guarantee_leavesChannel (channel : ChannelId) :
    Guarantee (fun _ => True) .none (fun _ => True) (fun _ _ => True)
      (Store.LeavesChannel channel) where
  refl _ := rfl
  trans h h' := h'.trans h
  holds_of_keeps _ _ := trivial
  holds_of_rely _ _ := trivial
  operation {_ _ s} hf _ := by
    cases hf with
    | load tree => exact .of_channels_eq (by rw [(s.extends_load tree).store_eq])
    | newChannel => exact s.queue_newChannel channel
    | _ => exact .of_channels_eq rfl
  setUsed _ _ := .of_channels_eq rfl
  fill _ _ := .of_channels_eq rfl
  newScope _ _ := ⟨trivial, .of_channels_eq rfl⟩
  foreign hm _ := hm.elim

/-- The log of what programs do from the start accounts for what waits in a channel. -/
theorem Configuration.balances_trail {host : Host} (hpackages : host.packages = []) {fuel : Nat}
    {log : List Meeting} {κ : Configuration}
    (h : Trail (NextWith (evaluator host fuel)) .initial log κ) (channel : ChannelId) :
    (accessesTo channel log).flatMap Access.removed ++ (κ.store.queue channel).toList =
      (accessesTo channel log).flatMap Access.added := by
  have hbetween : KeptBetween (Store.LeavesChannel channel) :=
    ⟨fun _ _ _ => .of_channels_eq rfl, fun _ => .of_channels_eq rfl, fun _ => .of_channels_eq rfl⟩
  exact (preserves_trail (isComposed_evaluator hpackages _ fuel) (guarantee_leavesChannel channel)
    hbetween (accounting_balances channel) h).1.symm

/-! ### Calls -/

/-- How the calls on a channel access it. -/
structure CallsAccess (channel : ChannelId) : Prop where
  /-- A call without values puts nothing. -/
  put_none : ∀ (ev : Evaluator) name site scope s,
    Form.method (.send channel) ev ⟨name, site, []⟩ scope s = Eval.newBool false s
  /-- A call that puts values evaluates its operands, and if one of them stops, it is over at that.
  Otherwise it asks for one access that adds copies of all values in the order of the operands. -/
  put_iff : ∀ (ev : Evaluator) name site operands scope s moments outcome u, operands ≠ [] →
    ((Form.method (.send channel) ev ⟨name, site, operands⟩ scope s).Ends moments outcome u ↔
      (∃ reason, outcome = .error reason ∧
        (ev.evalAll scope operands s).Ends moments (.error reason) u) ∨
      ∃ front values t sent left found, (ev.evalAll scope operands s).Ends front (.ok values) t ∧
        Eval.copyAll values t = .done sent left ∧
        List.Forall₂ (fun c d => Cell.Copies d c) values sent ∧ left.channels = t.channels ∧
        moments = front ++ [⟨.access channel (.put sent), left, (), found⟩] ∧
        outcome = .ok (found.newCell (.ofBool true) none #[]).1 ∧
        u = (found.newCell (.ofBool true) none #[]).2)
  /-- A call that gets a value asks for one access and returns the value that it took. -/
  get : ∀ (ev : Evaluator) name site scope s,
    Form.method (.receive channel) ev ⟨name, site, []⟩ scope s =
      .pause (.access channel .get) s fun value u => .done value u
  /-- A call that drains the channel asks for one access and returns the list of what it took. -/
  drain : ∀ (ev : Evaluator) name site scope s,
    Form.method (.drain channel) ev ⟨name, site, []⟩ scope s =
      .pause (.access channel .drain) s fun values u => Eval.newList values u
  /-- A call that looks into the channel asks for one access and returns what it found out. -/
  look : ∀ (ev : Evaluator) name site scope s,
    Form.method (.hasData channel) ev ⟨name, site, []⟩ scope s =
      .pause (.access channel .look) s fun hasData u => Eval.newBool hasData u
  /-- A value can be got exactly where one waits. -/
  get_enabled : ∀ s, s.HasChannel channel →
    ((∃ value u, Met (.access channel .get) s value u) ↔ (s.queue channel).toList ≠ [])
  /-- What is looked for is found out. -/
  look_iff : ∀ s hasData u, Met (.access channel .look) s hasData u →
    (hasData = true ↔ (s.queue channel).toList ≠ [])
  /-- The other accesses can be made at any time. -/
  enabled : ∀ s request, s.HasChannel channel → request ≠ .get →
    ∃ answer u, Met (.access channel request) s answer u

theorem Queue.pop?_eq_none_iff {α : Type} (q : Queue α) : q.pop? = none ↔ q.toList = [] := by
  have hpop := q.pop?_eq
  constructor
  · intro h
    rw [h] at hpop
    cases hlist : q.toList with
    | nil => rfl
    | cons a rest => simp [hlist] at hpop
  · intro h
    rw [h] at hpop
    exact Option.map_eq_none_iff.1 hpop

/-- Copies of the values are put into the channel as one row. -/
theorem Form.put_eq (channel : ChannelId) {values sent : List Cell} {t left : Store}
    (hcopies : Eval.copyAll values t = .done sent left) :
    (do
      let sent ← Eval.copyAll values
      .await (.access channel (.put sent))
      .newBool true : Eval Cell) t =
      .pause (.access channel (.put sent)) left fun _ found => Eval.newBool true found := by
  rw [Eval.bind_of_done hcopies]
  rfl

theorem callsAccess (channel : ChannelId) : CallsAccess channel where
  put_none ev name site scope s := rfl
  put_iff ev name site operands scope s moments outcome u hne := by
    obtain ⟨operand, operands, rfl⟩ := List.exists_cons_of_ne_nil hne
    constructor
    · intro h
      rcases Run.Ends.bind_cases h with
        ⟨front, values, t, back, hvalues, hput, rfl⟩ | ⟨reason, hstop, rfl⟩
      · obtain ⟨sent, left, hcopies, hall, hleaves⟩ := Eval.copyAll_done values t
        rw [Form.put_eq channel hcopies] at hput
        cases hput with
        | @pause _ _ found _ _ _ _ _ hput =>
        obtain ⟨rfl, rfl, rfl⟩ := Run.ends_done_iff.1 hput
        exact .inr ⟨front, values, t, sent, left, found, hvalues, hcopies,
          hall.imp fun _ _ h => h.copies, by rw [hleaves.store_eq], rfl, rfl, rfl⟩
      · exact .inl ⟨reason, rfl, hstop⟩
    · rintro (⟨reason, rfl, hstop⟩ | ⟨front, values, t, sent, left, found, hvalues, hcopies, -, -,
        rfl, rfl, rfl⟩)
      · exact hstop.bind_error
      · refine hvalues.bind ?_
        rw [Form.put_eq channel hcopies]
        exact .pause (.done _ _)
  get ev name site scope s := rfl
  drain ev name site scope s := rfl
  look ev name site scope s := rfl
  get_enabled s hs := by
    rw [← not_iff_not, not_not, ← Queue.pop?_eq_none_iff, Option.eq_none_iff_forall_not_mem]
    constructor
    · rintro hnone ⟨value, rest⟩ hpop
      exact hnone ⟨value, _, met_access_iff.2 ⟨hs, rest, hpop, rfl⟩⟩
    · rintro hnone ⟨value, u, hmet⟩
      obtain ⟨-, rest, hpop, -⟩ := met_access_iff.1 hmet
      exact hnone (value, rest) hpop
  look_iff s hasData u hmet := by
    obtain ⟨-, rest, hanswer, -⟩ := met_access_iff.1 hmet
    cases hanswer
    rw [Bool.not_eq_true', ← Bool.not_eq_true, Queue.isEmpty_iff]
  enabled s request hs hne := by
    cases request with
    | get => exact absurd rfl hne
    | _ => exact ⟨_, _, met_access_iff.2 ⟨hs, _, rfl, rfl⟩⟩

/-! ### Programs -/

/-- A channel loses, doubles and reorders nothing. However programs and their tasks run from the
start, at any moment what was taken and what still waits is what was put so far, in the order in
which the accesses were made; and the values of one access stand together in it. The calls on a
channel make one access each, a value can only be got where one waits, and a call one of whose
operands stops puts nothing. -/
theorem channels_keep_order (channel : ChannelId) :
    (∀ host fuel log κ, host.packages = [] →
      Trail (Configuration.NextWith (evaluator host fuel)) .initial log κ →
      (accessesTo channel log).flatMap Access.removed ++ (κ.store.queue channel).toList =
        (accessesTo channel log).flatMap Access.added ∧
      ∀ front values back, accessesTo channel log = front ++ .put values :: back →
        (accessesTo channel log).flatMap Access.removed ++ (κ.store.queue channel).toList =
          front.flatMap Access.added ++ (values ++ back.flatMap Access.added)) ∧
    (∀ host fuel κ, Configuration.Reaches (evaluator host fuel) κ →
      ∃ log, Trail (Configuration.NextWith (evaluator host fuel)) .initial log κ) ∧
    CallsAccess channel := by
  refine ⟨fun host fuel log κ hpackages h => ?_, fun host fuel κ => Trail.exists_of_reflTransGen,
    callsAccess channel⟩
  have hbalance := Configuration.balances_trail hpackages h channel
  refine ⟨hbalance, fun front values back hlog => hbalance.trans ?_⟩
  rw [hlog, List.flatMap_append, List.flatMap_cons]
  rfl

/-- The tree of `[block [var c [chan]] [thread [c.put 1 2]] [c.get]]`. -/
def sendingTree : Tree :=
  .list [.atom (.keyword .block) ⟨1, 2, none⟩,
    .list [.atom (.keyword .define) ⟨1, 9, none⟩, .atom (.symbol "c") ⟨1, 13, none⟩,
      .list [.atom (.keyword .channel) ⟨1, 16, none⟩] ⟨1, 15, none⟩] ⟨1, 8, none⟩,
    .list [.atom (.keyword .spawnThread) ⟨1, 24, none⟩,
      .list [.atom (.symbol "c.put") ⟨1, 32, none⟩, .atom (.integer 1) ⟨1, 38, none⟩,
        .atom (.integer 2) ⟨1, 40, none⟩] ⟨1, 31, none⟩] ⟨1, 23, none⟩,
    .list [.atom (.symbol "c.get") ⟨1, 46, none⟩] ⟨1, 45, none⟩] ⟨1, 1, none⟩

/-- The tree is evaluated until a value is asked for, the thread puts two values, and then the first
of them is got. -/
def sendingRun : Option (List Meeting × Configuration) :=
  Configuration.initial.play? (fun _ => .missing .notFound) (evaluator ⟨[], [], fun _ => none⟩ 5)
    Store.root sendingTree [.main, .launch, .task 0, .task 0, .main]

def Access.integers (access : Access) : List (Option Int64) × List (Option Int64) :=
  (access.added.map (·.value.integer?), access.removed.map (·.value.integer?))

/-- After two values were put by a thread and one was got, the other one waits, and the accesses
account for both. -/
theorem channels_keep_order_sending :
    ∃ log κ, Trail (Configuration.NextWith (evaluator ⟨[], [], fun _ => none⟩ 5)) .initial log κ ∧
      (accessesTo ⟨0⟩ log).map Access.integers = [([some 1, some 2], []), ([], [some 1])] ∧
      (κ.store.queue ⟨0⟩).toList.map (fun c => c.value.integer?) = [some 2] ∧
      (accessesTo ⟨0⟩ log).flatMap Access.removed ++ (κ.store.queue ⟨0⟩).toList =
        (accessesTo ⟨0⟩ log).flatMap Access.added := by
  have hrun : sendingRun.map (fun p => ((accessesTo ⟨0⟩ p.1).map Access.integers,
      (p.2.store.queue ⟨0⟩).toList.map (fun c => c.value.integer?))) =
        some ([([some 1, some 2], []), ([], [some 1])], [some 2]) := by
    decide +kernel
  obtain ⟨⟨log, κ⟩, hplay, heq⟩ := Option.map_eq_some_iff.1 hrun
  obtain ⟨haccesses, hqueue⟩ := Prod.mk.inj heq
  rw [sendingRun] at hplay
  have htrail := Configuration.trail_of_play? hplay
  exact ⟨log, κ, htrail, haccesses, hqueue, ((channels_keep_order ⟨0⟩).1 _ _ _ _ rfl htrail).1⟩

end BracketScript
