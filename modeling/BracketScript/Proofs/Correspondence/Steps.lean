import BracketScript.Proofs.Correspondence.Reading

/-!
# Steps of corresponding evaluations

What the forms are made of: making cells and scopes, binding names, writing to lists, working and
looping. Most steps say nothing about the store in which the next one runs. A list is written to
after the check that the new items do not reach it, and what the check has found holds until then
unless other tasks have run in between.
-/

namespace BracketScript.Correspondence

variable {A : Correspondence} {w w' : A.World} {s t : Store} {c d : Cell} {scope : ScopeId}
  {α β σ τ : Type}

/-- One and the same scope, in which programs may bind names. -/
def Opens (A : Correspondence) (w : A.World) (id id' : ScopeId) : Prop :=
  id = id' ∧ A.isOpen w id

inductive Rounds (R : A.World → σ → τ → Prop) (Q : A.World → α → β → Prop) (w : A.World) :
    Round σ α → Round τ β → Prop
  | again {state : σ} {state' : τ} : R w state state' → Rounds R Q w (.again state) (.again state')
  | finish {result : α} {result' : β} :
      Q w result result' → Rounds R Q w (.finish result) (.finish result')

theorem Evals.loop {R : A.World → σ → τ → Prop} {Q : A.World → α → β → Prop}
    {round : σ → Eval (Round σ α)} {round' : τ → Eval (Round τ β)}
    (h : ∀ w', w ≤ w' → ∀ state state', R w' state state' →
      A.Evals w' (Rounds R Q) (round state) (round' state')) (rounds : Nat) {state : σ} {state' : τ}
    (hstate : R w state state')
    (hQ : ∀ {w₁ w₂ : A.World} {a : α} {b : β}, w₁ ≤ w₂ → Q w₁ a b → Q w₂ a b) :
    A.Evals w Q (Eval.loop round rounds state) (Eval.loop round' rounds state') := by
  induction rounds generalizing w state state' with
  | zero => exact .stop fun _ _ => .exhausted
  | succ rounds ih =>
    rw [Eval.loop_succ, Eval.loop_succ]
    refine (h w le_rfl state state' hstate).bind fun w₁ hle a b hround => ?_
    cases hround with
    | again hnext => exact ih (fun w₂ hle' => h w₂ (hle.trans hle')) hnext
    | finish hresult => exact .pure fun w₂ hle' => hQ hle' hresult

/-- While others have their turns, whatever holds of each store they leave comes to hold. -/
theorem Runs.turns {P : Store → Prop} (hP : A.turns → ∀ s, P s) (n : Nat) (hst : A.stores w s t)
    (hs : P s) {R : A.World → α → β → Prop} {k : Eval α} {k' : Eval β}
    (hk : ∀ w', w ≤ w' → ∀ s t, A.stores w' s t → P s → A.Runs R w' (k s) (k' t)) :
    A.Runs R w ((Eval.turns n s).bind fun _ => k) ((Eval.turns n t).bind fun _ => k') := by
  induction n generalizing w s t with
  | zero => exact hk w le_rfl s t hst hs
  | succ n ih =>
    refine .pause le_rfl hst (.turn true) fun w' _ _ s' t' hle hst' hturns => ?_
    exact ih hst' (hP hturns s') fun w'' hle' => hk w'' (hle.trans hle')

namespace Lawful

variable (hA : A.Lawful)

include hA

theorem forall₂_values_mono (h : w ≤ w') {cells cells' : List Cell}
    (hcells : List.Forall₂ (A.values w) cells cells') :
    List.Forall₂ (A.values w') cells cells' :=
  hcells.imp fun _ _ => hA.values_mono h

theorem forall₂_codes_mono (h : w ≤ w') {cells cells' : List Cell}
    (hcells : List.Forall₂ (A.codes w) cells cells') :
    List.Forall₂ (A.codes w') cells cells' :=
  hcells.imp fun _ _ => hA.codes_mono h

theorem flows_mono {flow flow' : Flow} (h : w ≤ w') (hflow : A.Flows w flow flow') :
    A.Flows w' flow flow' := by
  cases hflow with
  | value hvalue => exact .value (hA.values_mono h hvalue)
  | breakOut => exact .breakOut
  | yieldUp hvalue => exact .yieldUp (hA.values_mono h hvalue)

theorem needs_mono {need need' : Need} (h : w ≤ w') (hneed : A.Needs w need need') :
    A.Needs w' need need' := by
  cases hneed with
  | access channel hrequest =>
    cases hrequest with
    | put hcells => exact .access channel (.put (hA.forall₂_values_mono h hcells))
    | get => exact .access channel .get
    | drain => exact .access channel .drain
    | look => exact .access channel .look
  | turn filled => exact .turn filled
  | completion task => exact .completion task
  | entry path => exact .entry path
  | source hfound => exact .source hfound

theorem answers_mono {request request' : Request} {channel : ChannelId} {answer : request.Answer}
    {answer' : request'.Answer} (hle : w ≤ w') (h : A.Requests w request request')
    (hanswer : A.Answers w (.access channel request) (.access channel request') answer answer') :
    A.Answers w' (.access channel request) (.access channel request') answer answer' := by
  cases h with
  | put _ => exact trivial
  | get => exact hA.values_mono hle hanswer
  | drain => exact hA.forall₂_values_mono hle hanswer
  | look => exact hanswer

/-! ### Work -/

/-- What is so of a store is still so after work, if the count of work does not bear on it and it is
so of every store that other tasks may leave. -/
theorem work_runs {P : Store → Prop} (hP : A.turns → ∀ s, P s) (rounds : Nat)
    (hst : A.stores w s t) (hs : ∀ used, P { s with used }) {R : A.World → α → β → Prop}
    {k : Eval α} {k' : Eval β}
    (hk : ∀ w', w ≤ w' → ∀ s t, A.stores w' s t → P s → A.Runs R w' (k s) (k' t)) :
    A.Runs R w ((Eval.work rounds s).bind fun _ => k) ((Eval.work rounds t).bind fun _ => k') := by
  rw [Eval.work, Eval.work, hA.isBusy_eq hst, hA.used_eq hst]
  split
  · obtain ⟨w', hle, hst'⟩ := hA.setUsed ((t.used + rounds) % Eval.turnLength) hst
    exact (Runs.turns hP _ hst' (hs _) fun w'' hle' => hk w'' (hle.trans hle')).of_le hle
  · exact hk w le_rfl s t hst (hs s.used)

theorem work (rounds : Nat) :
    A.Evals w (fun _ _ _ => True) (Eval.work rounds) (Eval.work rounds) := by
  intro w' _ s t hst
  have hrun : A.Runs (fun _ _ _ => True) w' ((Eval.work rounds s).bind fun _ s => .done () s)
      ((Eval.work rounds t).bind fun _ t => .done () t) :=
    hA.work_runs (P := fun _ => True) (fun _ _ => trivial) rounds hst (fun _ => trivial)
      fun _ _ _ _ hst' _ => .done le_rfl hst' trivial
  rwa [Run.bind_pure, Run.bind_pure] at hrun

/-- What is so of a store is still so after the others were let go on, if it is so of every store
that they may leave. -/
theorem giveWay_runs {P : Store → Prop} (hP : A.turns → ∀ s, P s) (hst : A.stores w s t) (hs : P s)
    {R : A.World → α → β → Prop} {k : Eval α} {k' : Eval β}
    (hk : ∀ w', w ≤ w' → ∀ s t, A.stores w' s t → P s → A.Runs R w' (k s) (k' t)) :
    A.Runs R w ((Eval.giveWay s).bind fun _ => k) ((Eval.giveWay t).bind fun _ => k') := by
  cases hbusy : s.isBusy with
  | true =>
    rw [Eval.giveWay_of_isBusy hbusy, Eval.giveWay_of_isBusy ((hA.isBusy_eq hst).symm.trans hbusy)]
    exact .pause le_rfl hst (.turn false) fun w' _ _ s' t' hle hst' hturns =>
      hk w' hle s' t' hst' (hP hturns s')
  | false =>
    rw [Eval.giveWay_of_not_isBusy hbusy,
      Eval.giveWay_of_not_isBusy ((hA.isBusy_eq hst).symm.trans hbusy)]
    exact hk w le_rfl s t hst hs

theorem workThrough (text : String) :
    A.Evals w (fun _ _ _ => True) (Eval.workThrough text) (Eval.workThrough text) :=
  hA.work _

/-! ### Cells -/

theorem pureValue (hc : A.values w c d) : A.Evals w A.values (pure c) (pure d) :=
  .pure fun _ hle => hA.values_mono hle hc

theorem newValue {v v' : Value} (hv : DataValues A.Bindable (A.codes w) v v') (hlist : v ≠ .list) :
    A.Evals w A.values (Eval.newCell v) (Eval.newCell v') :=
  .make fun _ hle _ _ hst =>
    hA.newCell hst .none (hv.imp_codes fun _ _ => hA.codes_mono hle) hlist

theorem newString (text : String) :
    A.Evals w A.values (Eval.newCell (.string text)) (Eval.newCell (.string text)) :=
  hA.newValue (.string text) nofun

theorem newInteger (n : Int64) :
    A.Evals w A.values (Eval.newCell (.integer n)) (Eval.newCell (.integer n)) :=
  hA.newValue (.integer n) nofun

theorem newNil : A.Evals w A.values Eval.newNil Eval.newNil :=
  hA.newString _

theorem newBool (b : Bool) : A.Evals w A.values (Eval.newBool b) (Eval.newBool b) :=
  hA.newInteger _

theorem newItems {cells cells' : List Cell} (h : List.Forall₂ (A.values w) cells cells') :
    A.Evals w A.values (Eval.newList cells) (Eval.newList cells') :=
  .make fun _ hle _ _ hst => hA.newList hst (hA.forall₂_values_mono hle h)

/-- Copying a cell makes corresponding cells. What was apart from another cell stays so, and so
does the copy. -/
theorem copy_done (hst : A.stores w s t) (hc : A.values w c d) :
    ∃ w' c' d' s' t', w ≤ w' ∧ Eval.copy c s = .done c' s' ∧ Eval.copy d t = .done d' t' ∧
      A.stores w' s' t' ∧ A.values w' c' d' ∧
      ∀ target target', A.values w target target' →
        (A.apart s c target → A.apart s' c' target) ∧
          ∀ item item', A.values w item item' → A.apart s item target → A.apart s' item target := by
  have hvalue := hA.values_value hc
  rw [Eval.copy, Eval.copy, ← hvalue.isCopied_eq]
  cases hcopied : c.value.isCopied with
  | false => exact ⟨w, c, d, s, t, le_rfl, rfl, rfl, hst, hc, fun _ _ _ => ⟨id, fun _ _ _ => id⟩⟩
  | true =>
    have hlist : c.value ≠ .list := by
      intro hlist
      rw [hlist] at hcopied
      cases hcopied
    obtain ⟨w', hle, hst', hvalues⟩ := hA.newCell hst (.copied hc) hvalue hlist
    refine ⟨w', _, _, _, _, hle, rfl, rfl, hst', hvalues, fun target target' htarget =>
      ⟨fun _ => ?_, fun item item' hitem hapart => ?_⟩⟩
    · exact hA.apart_new c.location hst htarget hlist
    · exact hA.apart_newCell c.value c.location hst htarget hitem hapart

theorem copyAll_done (hst : A.stores w s t) {cells cells' : List Cell}
    (h : List.Forall₂ (A.values w) cells cells') :
    ∃ w' added added' s' t', w ≤ w' ∧ Eval.copyAll cells s = .done added s' ∧
      Eval.copyAll cells' t = .done added' t' ∧ A.stores w' s' t' ∧
      List.Forall₂ (A.values w') added added' ∧
      ∀ target target', A.values w target target' →
        ((∀ item ∈ cells, A.apart s item target) → ∀ item ∈ added, A.apart s' item target) ∧
          ∀ item item', A.values w item item' → A.apart s item target → A.apart s' item target := by
  induction cells generalizing w s t cells' with
  | nil =>
    cases h
    exact ⟨w, [], [], s, t, le_rfl, rfl, rfl, hst, .nil, fun _ _ _ =>
      ⟨fun _ _ hitem => absurd hitem List.not_mem_nil, fun _ _ _ => id⟩⟩
  | cons c cells ih =>
    cases h with
    | cons hc hcells =>
    obtain ⟨w₁, c', d', s₁, t₁, hle₁, hcopy, hcopy', hst₁, hvalue, hapart₁⟩ := hA.copy_done hst hc
    obtain ⟨w₂, added, added', s₂, t₂, hle₂, hall, hall', hst₂, hvalues, hapart₂⟩ :=
      ih hst₁ (hA.forall₂_values_mono hle₁ hcells)
    refine ⟨w₂, c' :: added, d' :: added', s₂, t₂, hle₁.trans hle₂, ?_, ?_, hst₂,
      .cons (hA.values_mono hle₂ hvalue) hvalues, fun target target' htarget => ?_⟩
    · simp only [Eval.copyAll, bind, hcopy, Run.bind_done, hall]
      rfl
    · simp only [Eval.copyAll, bind, hcopy', Run.bind_done, hall']
      rfl
    · obtain ⟨hcopied, hkept⟩ := hapart₁ target target' htarget
      obtain ⟨hadded, hkept'⟩ := hapart₂ target target' (hA.values_mono hle₁ htarget)
      refine ⟨fun hcells' item hitem => ?_, fun item item' hitem hapart => ?_⟩
      · rcases List.mem_cons.1 hitem with rfl | hitem
        -- the first copy has to stay apart while the others are made
        · exact hkept' _ _ hvalue (hcopied (hcells' c List.mem_cons_self))
        · refine hadded (fun other hother => ?_) item hitem
          obtain ⟨other', -, hvalues'⟩ := exists_of_mem hcells hother
          exact hkept other other' hvalues' (hcells' other (List.mem_cons_of_mem _ hother))
      · exact hkept' item item' (hA.values_mono hle₁ hitem) (hkept item item' hitem hapart)

theorem copy (hc : A.values w c d) : A.Evals w A.values (Eval.copy c) (Eval.copy d) := by
  intro w' hle s t hst
  obtain ⟨w'', c', d', s', t', hle', hcopy, hcopy', hst', hvalue, -⟩ :=
    hA.copy_done hst (hA.values_mono hle hc)
  rw [hcopy, hcopy']
  exact .done hle' hst' hvalue

theorem copyAll {cells cells' : List Cell} (h : List.Forall₂ (A.values w) cells cells') :
    A.Evals w (fun w => List.Forall₂ (A.values w)) (Eval.copyAll cells) (Eval.copyAll cells') := by
  intro w' hle s t hst
  obtain ⟨w'', added, added', s', t', hle', hcopy, hcopy', hst', hvalues, -⟩ :=
    hA.copyAll_done hst (hA.forall₂_values_mono hle h)
  rw [hcopy, hcopy']
  exact .done hle' hst' hvalues

theorem settle {m m' : Eval Cell} (h : A.Evals w A.values m m') :
    A.Evals w A.values m.settle m'.settle := by
  refine h.flow.bind fun w' _ flow flow' hflow => ?_
  cases hflow with
  | value hvalue => exact hA.pureValue hvalue
  | breakOut => exact hA.newNil
  | yieldUp hvalue => exact hA.pureValue hvalue

/-! ### Scopes -/

theorem childScopes (parent : ScopeId) :
    A.Evals w A.Opens (Eval.childScope parent) (Eval.childScope parent) := by
  refine .make fun w' _ s t hst => ?_
  obtain ⟨heq, w'', hle', hst', hopen⟩ := hA.childScope parent hst
  exact ⟨w'', hle', hst', heq, hopen⟩

theorem bindName {name : String} (hc : A.values w c d) (hscope : A.isOpen w scope)
    (hname : A.Bindable name) :
    A.Evals w (fun _ _ _ => True) (Eval.define scope name c) (Eval.define scope name d) :=
  .modify fun _ hle _ _ hst =>
    hA.define hst (hA.values_mono hle hc) (.inl ⟨hA.isOpen_mono hle hscope, hname⟩)

theorem assign {place place' : Option Location} (hc : A.values w c d)
    (hplace : A.places place place') (name : String) :
    A.Evals w (fun _ _ _ => True) (Eval.assign scope name c place)
      (Eval.assign scope name d place') := by
  intro w' hle s t hst
  have hslot := hA.slot hst hplace scope name
  simp only [Eval.assign, bind, Eval.readOr]
  generalize s.slot scope name place = found at hslot
  generalize t.slot scope name place' = found' at hslot
  cases hslot with
  | error hfault => exact .stop le_rfl hst (.fault hfault)
  | ok hslot =>
    obtain ⟨rfl, hbinds⟩ := hslot
    obtain ⟨w'', hle', hst'⟩ := hA.redefine hst (hA.values_mono hle hc) hbinds
    exact .done hle' hst' trivial

/-! ### Texts -/

theorem text (hc : A.values w c d) (scope : ScopeId) :
    A.Evals w (fun _ => Eq) (Eval.stringify scope c) (Eval.stringify scope d) := by
  have hread : A.Evals w (fun _ => Eq) (Eval.readOr fun s => s.stringify scope c)
      (Eval.readOr fun s => s.stringify scope d) := by
    refine .readOr fun w' hle s t hst => ?_
    obtain ⟨text, htext, htext'⟩ := hA.stringify hst (hA.values_mono hle hc) scope
    rw [htext, htext']
    exact .ok rfl
  exact hread.bind_eq fun _ _ text =>
    (hA.workThrough text).bind fun _ _ _ _ _ => .pure fun _ _ => rfl

theorem texts {cells cells' : List Cell} (h : List.Forall₂ (A.values w) cells cells')
    (scope : ScopeId) :
    A.Evals w (fun _ => Eq) (Eval.stringifyAll scope cells) (Eval.stringifyAll scope cells') := by
  induction cells generalizing w cells' with
  | nil =>
    cases h
    exact .pure fun _ _ => rfl
  | cons c cells ih =>
    cases h with
    | cons hc hcells =>
    refine (hA.text hc scope).bind_eq fun w₁ hle text => ?_
    exact (ih (hA.forall₂_values_mono hle hcells)).bind_eq fun _ _ texts =>
      .pure fun _ _ => rfl

end Lawful

/-! ### Writing to lists -/

/-- The check of a new item either fails or changes nothing. -/
theorem rejectCycle_eq (call : Call) (target item : Cell) (s : Store) :
    call.rejectCycle target item s =
      if s.reaches item target then
        .stop (.fault (.failure (.insideItself call.name) call.site.location)) s
      else .done () s := by
  have hread : call.rejectCycle target item s =
      (if s.reaches item target then call.fail (.insideItself call.name) else pure ()) s := rfl
  rw [hread]
  split <;> rfl

theorem rejectCycles_eq (call : Call) (target : Cell) (cells : List Cell) (s : Store) :
    call.rejectCycles target cells s =
      if cells.any fun item => s.reaches item target then
        .stop (.fault (.failure (.insideItself call.name) call.site.location)) s
      else .done () s := by
  induction cells with
  | nil => rfl
  | cons item cells ih =>
    have hbind : call.rejectCycles target (item :: cells) s =
        (call.rejectCycle target item s).bind fun _ => call.rejectCycles target cells := rfl
    rw [hbind, rejectCycle_eq, List.any_cons]
    cases s.reaches item target with
    | true => rfl
    | false => exact ih

/-- Changing an entry is replacing it by what the change makes of it. -/
theorem arenaModify_eq {α : Type} [Inhabited α] (arena : Arena α) (i : Nat) (f : α → α) :
    arena.modify i f = arena.modify i fun _ => f (arena.get i) := by
  have hentries : arena.entries.modify i f = arena.entries.modify i fun _ => f (arena.get i) := by
    refine Array.ext_getElem? fun j => ?_
    rw [Array.getElem?_modify, Array.getElem?_modify]
    split
    · next hij =>
      subst hij
      cases hentry : arena.entries[i]? <;> simp [Arena.get, hentry]
    · rfl
  rw [Arena.modify, Arena.modify, hentries]

namespace Lawful

variable (hA : A.Lawful)

include hA

/-- Changing the items of a list, where the new ones are apart from it. -/
theorem modifyItems (hst : A.stores w s t) (hc : A.values w c d) (hlist : c.value = .list)
    {f f' : Array Cell → Array Cell}
    (hitems : List.Forall₂ (A.values w) (f (s.row c.id)).toList (f' (t.row d.id)).toList)
    (hapart : ∀ item ∈ (f (s.row c.id)).toList, item ∈ s.items c.id ∨ A.apart s item c) :
    ∃ w', w ≤ w' ∧ A.stores w' (s.modifyRow c.id f) (t.modifyRow d.id f') := by
  rw [Store.modifyRow, Store.modifyRow, arenaModify_eq, arenaModify_eq t.itemRows]
  exact hA.setItems hst hc hlist hitems hapart

theorem queue? (hst : A.stores w s t) (channel : ChannelId) :
    Option.Rel (A.queues w) (s.queue? channel) (t.queue? channel) := by
  rw [Store.queue?, Store.queue?, hA.channels_size_eq hst]
  split
  · exact .some (hA.queue channel hst)
  · exact .none

theorem answer? {queue queue' : Queue Cell} (hqueue : A.queues w queue queue')
    {request request' : Request} (h : A.Requests w request request') (channel : ChannelId) :
    Option.Rel
      (fun p p' => A.Answers w (.access channel request) (.access channel request') p.1 p'.1 ∧
        A.queues w p.2 p'.2)
      (request.answer? queue) (request'.answer? queue') := by
  cases h with
  | put hcells => exact .some ⟨trivial, hA.queues_pushAll hqueue hcells⟩
  | get =>
    simp only [Request.answer?]
    have hpop := hA.queues_pop? hqueue
    generalize queue.pop? = first at hpop
    generalize queue'.pop? = first' at hpop
    cases hpop with
    | none => exact .none
    | some hp => exact .some hp
  | drain => exact .some ⟨hA.queues_toList hqueue, hA.queues_empty w⟩
  | look =>
    refine .some ⟨congrArg not ?_, hqueue⟩
    rw [Bool.eq_iff_iff, Queue.isEmpty_iff, Queue.isEmpty_iff, ← List.length_eq_zero_iff,
      ← List.length_eq_zero_iff, (hA.queues_toList hqueue).length_eq]

/-- Corresponding requests are answered alike, or not at all. -/
theorem perform? (hst : A.stores w s t) {request request' : Request}
    (h : A.Requests w request request') (channel : ChannelId) :
    Option.Rel
      (fun p p' => ∃ w', w ≤ w' ∧ A.stores w' p.2 p'.2 ∧
        A.Answers w' (.access channel request) (.access channel request') p.1 p'.1)
      (request.perform? channel s) (request'.perform? channel t) := by
  have hfound := hA.queue? hst channel
  simp only [Request.perform?]
  generalize s.queue? channel = found at hfound
  generalize t.queue? channel = found' at hfound
  cases hfound with
  | none => exact .none
  | @some queue queue' hqueue =>
    have hanswer := hA.answer? hqueue h channel
    simp only [bind, Option.bind_some]
    generalize request.answer? queue = answered at hanswer
    generalize request'.answer? queue' = answered' at hanswer
    cases hanswer with
    | none => exact .none
    | some hp =>
      obtain ⟨w', hle, hst'⟩ := hA.setQueue channel hst hp.2
      exact .some ⟨w', hle, hst', hA.answers_mono hle h hp.1⟩

theorem extent_eq (hst : A.stores w s t) {cells cells' : List Cell}
    (h : List.Forall₂ (A.values w) cells cells') : s.extent cells = t.extent cells' := by
  induction h with
  | nil => rfl
  | @cons c d _ _ hc _ ih =>
    have hdata := hA.values_value hc
    rw [Store.extent, Store.extent, ih, ← hdata.isList_eq]
    cases hlist : c.value.isList with
    | false => rfl
    | true => rw [hA.size_eq hst hc (isList_iff.1 hlist)]

/-- Values that are apart from a list are still so after they were looked through. -/
theorem lookThrough_runs {R : A.World → α → β → Prop} {k : Eval α} {k' : Eval β}
    {values values' : List Cell} (hst : A.stores w s t)
    (hvalues : List.Forall₂ (A.values w) values values')
    (hapart : ∀ item ∈ values, A.apart s item c)
    (hk : ∀ w', w ≤ w' → ∀ s t, A.stores w' s t → (∀ item ∈ values, A.apart s item c) →
      A.Runs R w' (k s) (k' t)) :
    A.Runs R w ((Eval.lookThrough values >>= fun _ => k) s)
      ((Eval.lookThrough values' >>= fun _ => k') t) := by
  rw [Eval.lookThrough_bind, Eval.lookThrough_bind, ← hA.extent_eq hst hvalues]
  have hturns : A.turns → ∀ s, ∀ item ∈ values, A.apart s item c :=
    fun hturns _ _ _ => hA.apart_of_turns hturns
  refine hA.work_runs hturns _ hst
    (fun used item hitem => hA.apart_setUsed used (hapart item hitem))
    fun w₁ hle s₁ t₁ hst₁ hs₁ => ?_
  exact hA.giveWay_runs hturns hst₁ hs₁ fun w₂ hle' => hk w₂ (hle.trans hle')

theorem apart_of_any {cells cells' : List Cell} (hst : A.stores w s t) (hc : A.values w c d)
    (h : List.Forall₂ (A.values w) cells cells')
    (hany : (cells.any fun item => s.reaches item c) = false) :
    ∀ item ∈ cells, A.apart s item c := by
  intro item hitem
  obtain ⟨item', -, hvalue⟩ := exists_of_mem h hitem
  exact hA.apart_of_reaches hst hc hvalue (by simpa using List.any_eq_false.1 hany item hitem)

end Lawful

end BracketScript.Correspondence
