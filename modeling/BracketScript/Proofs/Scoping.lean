import BracketScript.Machine
import BracketScript.Proofs.Loading
import BracketScript.Proofs.Operations
import BracketScript.Proofs.Reachable

/-!
# Which scopes an evaluation binds names in

An evaluation binds new names in the scope that it is given and in those that it makes. In every
other scope it can only bind a name anew that is bound there already. This is so for each stretch of
its run, from where it begins or goes on to where it ends or pauses; what others do to the store
during a pause is their business.

`Guarantee` says of a relation between stores what an operation needs to know, so that each stretch
of an evaluation made of operations keeps the relation.
-/

namespace BracketScript

/-- Each stretch of the run that begins with the store `s` keeps the relation `keeps`. During a
pause, others change the store as `rely` allows. -/
inductive Run.Keeps {α : Type} (rely keeps : Store → Store → Prop) : Store → Run α → Prop
  | done {s t : Store} (a : α) : keeps s t → Keeps rely keeps s (.done a t)
  | stop {s t : Store} (reason : Stop) : keeps s t → Keeps rely keeps s (.stop reason t)
  | pause {s t : Store} {need : Need} {resume : need.Answer → Store → Run α} :
      keeps s t → (∀ answer u, rely t u → Keeps rely keeps u (resume answer u)) →
        Keeps rely keeps s (.pause need t resume)

theorem Run.Keeps.mono {α : Type} {rely keeps keeps' : Store → Store → Prop} {s : Store} {r : Run α}
    (hr : r.Keeps rely keeps s) (h : ∀ s t, keeps s t → keeps' s t) : r.Keeps rely keeps' s := by
  induction hr with
  | done a hkeeps => exact .done a (h _ _ hkeeps)
  | stop reason hkeeps => exact .stop reason (h _ _ hkeeps)
  | pause hkeeps _ ih => exact .pause (h _ _ hkeeps) ih

/-- A request changes channels only. -/
theorem Request.store_of_perform? {request : Request} {channel : ChannelId} {s t : Store}
    {answer : request.Answer} (h : request.perform? channel s = some (answer, t)) :
    ∃ channels, t = { s with channels } := by
  obtain ⟨queue, -, h⟩ := Option.bind_eq_some_iff.1 h
  obtain ⟨⟨answer', rest⟩, -, h⟩ := Option.bind_eq_some_iff.1 h
  cases h
  exact ⟨_, rfl⟩

theorem Need.store_of_told? {need : Need} {s t : Store} {entries rest : List Entry}
    {answer : need.Answer} (h : need.told? s entries = some (answer, t, rest)) :
    ∃ channels, t = { s with channels } := by
  cases need with
  | access channel request =>
    obtain ⟨⟨answer', t'⟩, hperform, h⟩ := Option.map_eq_some_iff.1 h
    cases h
    exact Request.store_of_perform? hperform
  | entry path =>
    cases entries with
    | nil => cases h
    | cons entry entries =>
      cases h
      exact ⟨_, rfl⟩
  | source origin text =>
    cases h
    exact ⟨_, rfl⟩
  | turn filled => cases h
  | completion task => cases h

/-- A relation that operations keep, where `holds` is so of the stores that they meet. -/
structure Guarantee (isOpen : ScopeId → Prop) (foreign : Foreign) (holds : Store → Prop)
    (rely keeps : Store → Store → Prop) : Prop where
  refl : ∀ s, keeps s s
  trans : ∀ {s t u}, keeps s t → keeps t u → keeps s u
  holds_of_keeps : ∀ {s t}, holds s → keeps s t → holds t
  holds_of_rely : ∀ {s t}, holds s → rely s t → holds t
  operation : ∀ {α : Type} {f : Store → α × Store} {s}, Operation isOpen f → holds s →
    keeps s (f s).2
  setUsed : ∀ s used, keeps s { s with used }
  fill : ∀ {s id name location slot} cell, s.slot id name location = .ok slot →
    keeps s (s.fill slot cell)
  newScope : ∀ {s} outer, holds s → isOpen (s.newScope outer).1 ∧ keeps s (s.newScope outer).2
  foreign : ∀ {α : Type} {m : Eval α} {s}, foreign α m → holds s → (m s).Keeps rely keeps s

namespace Guarantee

variable {isOpen : ScopeId → Prop} {foreign : Foreign} {holds : Store → Prop}
  {rely keeps : Store → Store → Prop} {α β : Type} {s t : Store}

theorem keeps_of_keeps (h : Guarantee isOpen foreign holds rely keeps) {r : Run α} (hst : keeps s t)
    (hr : r.Keeps rely keeps t) : r.Keeps rely keeps s := by
  cases hr with
  | done a hr => exact .done a (h.trans hst hr)
  | stop reason hr => exact .stop reason (h.trans hst hr)
  | pause hr hresume => exact .pause (h.trans hst hr) hresume

theorem bind (h : Guarantee isOpen foreign holds rely keeps) {r : Run α} {f : α → Store → Run β}
    (hs : holds s) (hr : r.Keeps rely keeps s)
    (hf : ∀ a t, holds t → (f a t).Keeps rely keeps t) : (r.bind f).Keeps rely keeps s := by
  induction hr with
  | done a hkeeps => exact h.keeps_of_keeps hkeeps (hf a _ (h.holds_of_keeps hs hkeeps))
  | stop reason hkeeps => exact .stop reason hkeeps
  | pause hkeeps _ ih =>
    refine .pause hkeeps fun answer u hu => ih answer u hu ?_
    exact h.holds_of_rely (h.holds_of_keeps hs hkeeps) hu

theorem flow {r : Run Cell} (hr : r.Keeps rely keeps s) : r.flow.Keeps rely keeps s := by
  induction hr with
  | done a hkeeps => exact .done _ hkeeps
  | stop reason hkeeps => cases reason <;> first | exact .done _ hkeeps | exact .stop _ hkeeps
  | pause hkeeps _ ih => exact .pause hkeeps ih

theorem attempt {r : Run α} (hr : r.Keeps rely keeps s) : r.attempt.Keeps rely keeps s := by
  induction hr with
  | done a hkeeps => exact .done _ hkeeps
  | stop reason hkeeps => cases reason <;> first | exact .done _ hkeeps | exact .stop _ hkeeps
  | pause hkeeps _ ih => exact .pause hkeeps ih

theorem turns (h : Guarantee isOpen foreign holds rely keeps) (n : Nat) (s : Store) :
    (Eval.turns n s).Keeps rely keeps s := by
  induction n generalizing s with
  | zero => exact .done () (h.refl s)
  | succ n ih => exact .pause (h.refl s) fun _ u _ => ih u

theorem work (h : Guarantee isOpen foreign holds rely keeps) (rounds : Nat) (s : Store) :
    (Eval.work rounds s).Keeps rely keeps s := by
  rw [Eval.work]
  split
  · exact h.keeps_of_keeps (h.setUsed s _) (h.turns _ _)
  · exact .done () (h.refl s)

theorem assign (h : Guarantee isOpen foreign holds rely keeps) (scope : ScopeId) (name : String)
    (cell : Cell) (location : Option Location) (s : Store) :
    (Eval.assign scope name cell location s).Keeps rely keeps s := by
  simp only [Eval.assign, Bind.bind, Eval.readOr]
  cases hslot : s.slot scope name location with
  | error fault => exact .stop _ (h.refl s)
  | ok slot => exact .done () (h.fill cell hslot)

/-- Each stretch of an evaluation made of operations keeps what operations keep. -/
theorem composed (h : Guarantee isOpen foreign holds rely keeps) {m : Eval α}
    (hm : Composed isOpen foreign m) {s : Store} (hs : holds s) : (m s).Keeps rely keeps s := by
  induction hm generalizing s with
  | pure a => exact .done a (h.refl s)
  | bind _ _ ihm ihf => exact h.bind hs (ihm hs) fun a t ht => ihf a ht
  | stop reason => exact .stop reason (h.refl s)
  | flow _ ih => exact flow (ih hs)
  | attempt _ ih => exact attempt (ih hs)
  | await need => exact .pause (h.refl s) fun answer u _ => .done answer (h.refl u)
  | work rounds => exact h.work rounds s
  | @read _ f _ => exact .done (f s) (h.refl s)
  | @readOr _ f _ =>
    rw [Eval.readOr]
    cases f s with
    | ok a => exact .done a (h.refl s)
    | error fault => exact .stop _ (h.refl s)
  | operation hf => exact .done _ (h.operation hf hs)
  | assign scope name cell location => exact h.assign scope name cell location s
  | childScope parent _ ih =>
    obtain ⟨hopen, hkeeps⟩ := h.newScope (s.chain parent) hs
    exact h.keeps_of_keeps hkeeps (ih _ hopen (h.holds_of_keeps hs hkeeps))
  | newTable _ ih =>
    obtain ⟨hopen, hkeeps⟩ := h.newScope [] hs
    exact h.keeps_of_keeps hkeeps (ih _ hopen (h.holds_of_keeps hs hkeeps))
  | foreign hm => exact h.foreign hm hs

/-- Where nobody else changes the store, a run keeps the relation from its start to its end. -/
theorem keeps_end (h : Guarantee isOpen foreign holds rely keeps)
    (hchannels : ∀ (s : Store) channels, rely s { s with channels } ∧ keeps s { s with channels })
    {r : Run α} (hr : r.Keeps rely keeps s) {entries : List Entry} {outcome : Except Stop α}
    (hend : r.end? entries = some (outcome, t)) : keeps s t := by
  induction hr generalizing entries with
  | done a hkeeps =>
    cases entries with
    | nil =>
      cases hend
      exact hkeeps
    | cons entry entries => cases hend
  | stop reason hkeeps =>
    cases entries with
    | nil =>
      cases hend
      exact hkeeps
    | cons entry entries => cases hend
  | @pause s u need resume hkeeps _ ih =>
    obtain ⟨⟨answer, u', rest⟩, htold, hend⟩ := Option.bind_eq_some_iff.1 hend
    obtain ⟨channels, rfl⟩ := Need.store_of_told? htold
    obtain ⟨hrely, hkeeps'⟩ := hchannels u channels
    exact h.trans hkeeps (h.trans hkeeps' (ih answer _ hrely hend))

end Guarantee

/-! ### Names -/

namespace Store

/-- Scopes only gain names, and those made before the scope with index `limit` gain none, but for
`own`. Which scopes are around a scope, and which packages were loaded into it, does not change. -/
structure KeepsNames (limit : Nat) (own : ScopeId) (s t : Store) : Prop where
  size_le : s.scopes.size ≤ t.scopes.size
  outer_eq : ∀ id : ScopeId, id.index < s.scopes.size → (t.scope id).outer = (s.scope id).outer
  packages_eq : ∀ id : ScopeId, id.index < s.scopes.size →
    (t.scope id).packages = (s.scope id).packages
  binds_of_binds : ∀ id name, (s.scope id).binds name = true → (t.scope id).binds name = true
  binds_eq : ∀ id : ScopeId, id.index < limit → id ≠ own →
    ∀ name, (t.scope id).binds name = (s.scope id).binds name

variable {s t u : Store} {limit : Nat} {own : ScopeId}

theorem KeepsNames.of_scopes_eq (h : t.scopes = s.scopes) : s.KeepsNames limit own t := by
  have hscope : ∀ id, t.scope id = s.scope id := fun id => by rw [scope, h, scope]
  exact ⟨by rw [h], fun id _ => by rw [hscope], fun id _ => by rw [hscope],
    fun id name => by rw [hscope]; exact fun hbinds => hbinds, fun id _ _ name => by rw [hscope]⟩

theorem KeepsNames.trans (h : s.KeepsNames limit own t) (h' : t.KeepsNames limit own u) :
    s.KeepsNames limit own u where
  size_le := h.size_le.trans h'.size_le
  outer_eq id hid :=
    (h'.outer_eq id (Nat.lt_of_lt_of_le hid h.size_le)).trans (h.outer_eq id hid)
  packages_eq id hid :=
    (h'.packages_eq id (Nat.lt_of_lt_of_le hid h.size_le)).trans (h.packages_eq id hid)
  binds_of_binds id name hbinds := h'.binds_of_binds id name (h.binds_of_binds id name hbinds)
  binds_eq id hid hown name := (h'.binds_eq id hid hown name).trans (h.binds_eq id hid hown name)

theorem KeepsNames.define {id : ScopeId} {name : String} (cell : Cell)
    (h : id = own ∨ limit ≤ id.index ∨ (s.scope id).binds name = true) :
    s.KeepsNames limit own (s.define id name cell) where
  size_le := by simp [Store.define]
  outer_eq other _ := by
    rw [scope_define]
    split <;> rfl
  packages_eq other _ := by
    rw [scope_define]
    split <;> rfl
  binds_of_binds other key hbinds := by
    rw [scope_define]
    split
    · rw [Scope.binds, Scope.get?_set]
      split
      · rfl
      · exact hbinds
    · exact hbinds
  binds_eq other hother hown key := by
    rw [scope_define]
    split
    · rename_i hsame
      obtain rfl : id = other := by
        cases id
        cases other
        simp_all
      rw [Scope.binds, Scope.get?_set]
      split
      · rename_i hkey
        rcases h with heq | hle | hbinds
        · exact absurd heq hown
        · exact absurd hother (Nat.not_lt.2 hle)
        · rw [hkey, hbinds]
          rfl
      · rfl
    · rfl

theorem KeepsNames.newScope (outer : List ScopeId) (h : limit ≤ s.scopes.size) :
    s.KeepsNames limit own (s.newScope outer).2 where
  size_le := by simp [Store.newScope]
  outer_eq id hid := by rw [scope_newScope, if_neg (Nat.ne_of_lt hid)]
  packages_eq id hid := by rw [scope_newScope, if_neg (Nat.ne_of_lt hid)]
  binds_of_binds id name hbinds := by
    rw [scope_newScope]
    split
    · rename_i hid
      rw [scope, Arena.get_of_size_le s.scopes (Nat.le_of_eq hid.symm)] at hbinds
      cases hbinds
    · exact hbinds
  binds_eq id hid _ name := by
    rw [scope_newScope, if_neg (Nat.ne_of_lt (Nat.lt_of_lt_of_le hid h))]

/-- The slot of a name is bound. -/
theorem binds_of_slot {id : ScopeId} {name : String} {location : Option Location} {slot : Slot}
    (h : s.slot id name location = .ok slot) : (s.scope slot.scope).binds slot.name = true := by
  rw [Store.slot] at h
  cases hsplit : Name.splitLast? name with
  | none =>
    simp only [hsplit, plainSlot] at h
    cases howner : s.owner? id name with
    | none => simp [howner] at h
    | some owner =>
      simp only [howner, Except.ok.injEq] at h
      subst h
      simpa using List.find?_some howner
  | some split =>
    obtain ⟨path, member⟩ := split
    simp only [hsplit] at h
    cases hholder : s.resolve id path location with
    | error fault => simp [hholder, Bind.bind, Except.bind] at h
    | ok holder =>
      simp only [hholder, Bind.bind, Except.bind] at h
      split at h
      · cases h
      · split at h
        · cases h
          assumption
        · cases h

end Store

/-- The scope is the one at hand or was made later than the first `limit` ones. -/
def IsOwn (limit : Nat) (own id : ScopeId) : Prop :=
  id = own ∨ limit ≤ id.index

def ScopesStay (s t : Store) : Prop :=
  s.scopes.size ≤ t.scopes.size

theorem scopes_load (s : Store) (tree : Tree) : (s.load tree).2.scopes = s.scopes := by
  rw [(s.extends_load tree).store_eq]

/-- Operations bind new names in the scope at hand and in new scopes only. -/
theorem guarantee_keepsNames (limit : Nat) (own : ScopeId) :
    Guarantee (IsOwn limit own) .none (fun s => limit ≤ s.scopes.size) ScopesStay
      (Store.KeepsNames limit own) where
  refl _ := .of_scopes_eq rfl
  trans := .trans
  holds_of_keeps hs h := Nat.le_trans hs h.size_le
  holds_of_rely hs h := Nat.le_trans hs h
  operation hf _ := by
    cases hf with
    | define name cell hopen =>
      rcases hopen with hown | hle
      · exact .define cell (.inl hown)
      · exact .define cell (.inr (.inl hle))
    | load tree => exact .of_scopes_eq (scopes_load _ tree)
    | _ => exact .of_scopes_eq rfl
  setUsed _ _ := .of_scopes_eq rfl
  fill cell hslot := .define cell (.inr (.inr (Store.binds_of_slot hslot)))
  newScope outer hs := ⟨.inr hs, .newScope outer hs⟩
  foreign hm _ := hm.elim

theorem bindMethods_done (members : ScopeId) (methods : List Method) (s : Store) :
    ∃ t, Form.bindMethods members methods s = .done () t ∧ t.launches = s.launches := by
  induction methods generalizing s with
  | nil => exact ⟨s, rfl, rfl⟩
  | cons method methods ih => exact ih _

theorem newHandle_done (kind : HandleKind) (methods : List Method) (s : Store) :
    ∃ handle t, Form.newHandle kind methods s = .done handle t ∧ t.launches = s.launches := by
  obtain ⟨t, hbind, hlaunches⟩ := bindMethods_done (s.newScope []).1 methods (s.newScope []).2
  refine ⟨_, _, congrArg (fun r => Run.bind r fun _ => Eval.newCell _) hbind, hlaunches⟩

theorem startTask_done (name : String) (site body : Cell) (scope : ScopeId) (s : Store) :
    ∃ task t, Form.startTask ⟨name, site, [body]⟩ scope s = .done task t ∧
      t.launches = s.launches ++ [⟨task, body, ⟨s.scopes.size⟩⟩] :=
  ⟨⟨s.tasks.size⟩, _, rfl, rfl⟩

/-- A keyword that starts a task leaves it to be launched in a scope that it makes for it. -/
theorem launches_of_spawn {ev : Evaluator} {k : Keyword}
    (hk : k = .spawnAsync ∨ k = .spawnThread) {call : Call} {scope : ScopeId} {s t : Store}
    {handle : Cell} (h : k.form ev call scope s = .done handle t) :
    ∃ task body, t.launches = s.launches ++ [⟨task, body, ⟨s.scopes.size⟩⟩] := by
  obtain ⟨kind, methods, hform⟩ : ∃ (kind : HandleKind) (methods : TaskId → List Method),
      k.form ev call scope = Form.startTask call scope >>= fun task =>
        Form.newHandle kind (methods task) := by
    rcases hk with rfl | rfl
    · exact ⟨.async, fun task => [.waitFor task, .resultOf task], rfl⟩
    · exact ⟨.thread, fun task => [.join task, .detach task, .isJoinable task, .threadName task],
        rfl⟩
  rw [hform] at h
  obtain ⟨name, site, operands⟩ := call
  match operands with
  | [body] =>
    obtain ⟨task, t₁, hstart, hlaunches⟩ := startTask_done name site body scope s
    obtain ⟨handle', t₂, hnew, hsame⟩ := newHandle_done kind (methods task) t₁
    have hall := congrArg (fun r => r.bind fun task => Form.newHandle kind (methods task)) hstart
    cases h.symm.trans (hall.trans hnew)
    exact ⟨task, body, hsame.trans hlaunches⟩
  | [] => cases h
  | _ :: _ :: _ => cases h

/-- Evaluating in a scope binds new names in this scope and in new ones only, however the evaluation
ends and whatever other tasks do while it waits. A task that is started has a scope of its own, made
when it is started, and so it binds no new name in a scope that was there before. -/
theorem evaluation_keeps_names {host : Host} (hpackages : host.packages = []) (fuel : Nat) :
    (∀ c own s, (eval host fuel c own s).Keeps ScopesStay
      (Store.KeepsNames s.scopes.size own) s) ∧
    (∀ c own s entries outcome t, (eval host fuel c own s).end? entries = some (outcome, t) →
      s.KeepsNames s.scopes.size own t) ∧
    ∀ k : Keyword, k = .spawnAsync ∨ k = .spawnThread → ∀ call scope s handle t,
      k.form (evaluator host fuel) call scope s = .done handle t →
      ∃ launch : Launch, t.launches = s.launches ++ [launch] ∧
        s.scopes.size ≤ launch.scope.index ∧
        ∀ answer u, ScopesStay t u →
          ((Machine.ofLaunch (evaluator host fuel).evaluate launch).resume answer u).Keeps
            ScopesStay (Store.KeepsNames s.scopes.size launch.scope) u := by
  have heval := fun isOpen => isComposed_evaluator hpackages isOpen fuel
  have hrun : ∀ c own s, (eval host fuel c own s).Keeps ScopesStay
      (Store.KeepsNames s.scopes.size own) s := fun c own s =>
    (guarantee_keepsNames s.scopes.size own).composed ((heval _).eval c (.inl rfl)) (Nat.le_refl _)
  refine ⟨hrun, fun c own s entries outcome t hend => ?_, fun k hk call scope s handle t h => ?_⟩
  · exact (guarantee_keepsNames s.scopes.size own).keeps_end
      (fun _ _ => ⟨Nat.le_refl _, .of_scopes_eq rfl⟩) (hrun c own s) hend
  · obtain ⟨task, body, hlaunches⟩ := launches_of_spawn hk h
    have hform := (guarantee_keepsNames s.scopes.size scope).composed
      (Composed.form (heval _) call (.inl rfl) k) (Nat.le_refl _)
    rw [h] at hform
    cases hform with
    | done _ hkeeps =>
    refine ⟨_, hlaunches, Nat.le_refl _, fun answer u hu => ?_⟩
    exact (guarantee_keepsNames s.scopes.size _).composed
      (Composed.evaluate (heval _) (.inl rfl) body) (Nat.le_trans hkeeps.size_le hu)

/-- The tree of `[list [var x 1] [set y x]]`. -/
def assigningTree : Tree :=
  .list [.atom (.keyword .list) ⟨1, 2, none⟩,
    .list [.atom (.keyword .define) ⟨1, 8, none⟩, .atom (.symbol "x") ⟨1, 12, none⟩,
      .atom (.integer 1) ⟨1, 14, none⟩] ⟨1, 7, none⟩,
    .list [.atom (.keyword .assign) ⟨1, 18, none⟩, .atom (.symbol "y") ⟨1, 22, none⟩,
      .atom (.symbol "x") ⟨1, 24, none⟩] ⟨1, 17, none⟩] ⟨1, 1, none⟩

/-- A scope in which `y` is bound, and a scope inside of it with the tree to be evaluated. -/
def assigningStore : Cell × Store :=
  ((Store.initial.define Store.root "y" (.builtIn .nil)).childScope Store.root).2.load assigningTree

/-- Binding `x` in an inner scope and `y` anew in the outer one leaves the outer one with its
names. -/
theorem evaluation_keeps_names_assigning :
    ∃ outcome t, (eval ⟨[], [], fun _ => none⟩ 4 assigningStore.1 ⟨1⟩ assigningStore.2).end? [] =
        some (outcome, t) ∧
      assigningStore.2.KeepsNames assigningStore.2.scopes.size ⟨1⟩ t ∧
      ((t.scope ⟨1⟩).get? "x").map (fun c => c.value.kind) = some .integer ∧
      ((t.scope Store.root).get? "y").map (fun c => c.value.kind) = some .integer := by
  have hrun : ((eval ⟨[], [], fun _ => none⟩ 4 assigningStore.1 ⟨1⟩ assigningStore.2).end? []).map
      (fun p => (((p.2.scope ⟨1⟩).get? "x").map (fun c => c.value.kind),
        ((p.2.scope Store.root).get? "y").map (fun c => c.value.kind))) =
      some (some .integer, some .integer) := by
    decide +kernel
  obtain ⟨⟨outcome, t⟩, hend, hkinds⟩ := Option.map_eq_some_iff.1 hrun
  obtain ⟨hx, hy⟩ := Prod.mk.inj hkinds
  exact ⟨outcome, t, hend, (evaluation_keeps_names rfl 4).2.1 _ _ _ _ _ _ hend, hx, hy⟩

end BracketScript
