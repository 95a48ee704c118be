import BracketScript.Evaluator
import BracketScript.Proofs.Depth
import Mathlib.Data.List.Forall2
import Mathlib.Data.Option.Defs
import Mathlib.Order.Basic

/-!
# Corresponding evaluations

A statement about all evaluations is proved by relating each evaluation to another one, or to
itself: from stores that correspond they come to corresponding values in corresponding stores. What
corresponds is a parameter. It depends on a world, which says what is known about the cells so far
and only grows.

Cells of programs and the values that programs compute are told apart throughout, since the former
are what is evaluated and the latter what is bound, stored and printed. `Lawful` lists what a
correspondence has to satisfy: the operations of the store keep it, and reading gives corresponding
things.
-/

namespace BracketScript

/-- What it means for two evaluations to correspond. -/
structure Correspondence where
  World : Type
  preorder : Preorder World
  stores : World → Store → Store → Prop
  /-- Values that programs compute. -/
  values : World → Cell → Cell → Prop
  /-- Cells of programs. -/
  codes : World → Cell → Cell → Prop
  /-- What waits in channels. -/
  queues : World → Queue Cell → Queue Cell → Prop
  /-- Programs may bind names in the scope. -/
  isOpen : World → ScopeId → Prop
  /-- The scope holds the methods of a handle. -/
  isTable : World → ScopeId → Prop
  /-- Names that occur in programs. -/
  names : String → Prop
  places : Option Location → Option Location → Prop
  /-- Texts that programs are read from. -/
  sources : Option String → String → Prop
  /-- What may be found at a path. -/
  entries : String → Entry → Prop
  /-- The first cell may become an item of the second. -/
  apart : Store → Cell → Cell → Prop
  /-- Other tasks may run in between. -/
  turns : Prop

namespace Correspondence

attribute [instance] Correspondence.preorder

inductive CodeValues (names : String → Prop) : Value → Value → Prop
  | symbol {name : String} : names name → CodeValues names (.symbol name) (.symbol name)
  | keyword (k : Keyword) : CodeValues names (.keyword k) (.keyword k)
  | string (text : String) : CodeValues names (.string text) (.string text)
  | integer (n : Int64) : CodeValues names (.integer n) (.integer n)
  | real (x : Float) : CodeValues names (.real x) (.real x)
  | list : CodeValues names .list .list

/-- What computed values hold, where the bodies of lambdas are cells of programs. -/
inductive DataValues (bindable : String → Prop) (codes : Cell → Cell → Prop) :
    Value → Value → Prop
  | integer (n : Int64) : DataValues bindable codes (.integer n) (.integer n)
  | real (x : Float) : DataValues bindable codes (.real x) (.real x)
  | string (text : String) : DataValues bindable codes (.string text) (.string text)
  | list : DataValues bindable codes .list .list
  | lambda {parameters : List String} {body body' : Cell} {scope : ScopeId} :
      (∀ name ∈ parameters, bindable name) → codes body body' →
        DataValues bindable codes (.lambda parameters body scope) (.lambda parameters body' scope)
  | box (members : ScopeId) : DataValues bindable codes (.box members) (.box members)
  | handle (kind : HandleKind) (members : ScopeId) :
      DataValues bindable codes (.handle kind members) (.handle kind members)
  | procedure (p : Procedure) : DataValues bindable codes (.procedure p) (.procedure p)

section Relations

variable (A : Correspondence)

def Bindable (name : String) : Prop :=
  A.names name ∧ Name.isDotted name = false

/-- The places of new cells: none, or those of values that are copied. -/
inductive Marks (w : A.World) : Option Location → Option Location → Prop
  | none : Marks w none none
  | copied {c d : Cell} : A.values w c d → Marks w c.location d.location

inductive Faults : Fault → Fault → Prop
  | parse {origin : Option String} {text : String} {error : ParseError} :
      A.sources origin text → parse origin text = .error error →
        Faults (.parse error) (.parse error)
  | failure (cause : Fault.Cause) {place place' : Option Location} :
      A.places place place' → Faults (.failure cause place) (.failure cause place')
  | assertion (label : String) {place place' : Option Location} :
      A.places place place' → Faults (.assertion label place) (.assertion label place')
  | unknownName (name : String) {place place' : Option Location} :
      A.places place place' → Faults (.unknownName name place) (.unknownName name place')

/-- What a store gives, or the fault of asking for it. -/
inductive Results {α β : Type} (R : α → β → Prop) : Except Fault α → Except Fault β → Prop
  | ok {a : α} {b : β} : R a b → Results R (.ok a) (.ok b)
  | error {fault fault' : Fault} : A.Faults fault fault' → Results R (.error fault) (.error fault')

inductive Stops (w : A.World) : Stop → Stop → Prop
  | breakOut : Stops w .breakOut .breakOut
  | yieldUp {c d : Cell} : A.values w c d → Stops w (.yieldUp c) (.yieldUp d)
  | fault {fault fault' : Fault} : A.Faults fault fault' → Stops w (.fault fault) (.fault fault')
  | exit (status : Int64) : Stops w (.exit status) (.exit status)
  | exhausted : Stops w .exhausted .exhausted

inductive Requests (w : A.World) : Request → Request → Prop
  | put {cells cells' : List Cell} :
      List.Forall₂ (A.values w) cells cells' → Requests w (.put cells) (.put cells')
  | get : Requests w .get .get
  | drain : Requests w .drain .drain
  | look : Requests w .look .look

inductive Needs (w : A.World) : Need → Need → Prop
  | turn (filled : Bool) : Needs w (.turn filled) (.turn filled)
  | access (channel : ChannelId) {request request' : Request} :
      A.Requests w request request' → Needs w (.access channel request) (.access channel request')
  | completion (task : TaskId) : Needs w (.completion task) (.completion task)
  | entry (path : String) : Needs w (.entry path) (.entry path)
  | source {origin : Option String} {text : String} :
      (∀ path, origin = some path → A.entries path (.file (.ok text))) →
        Needs w (.source origin text) (.source origin text)

def Answers (w : A.World) : (need need' : Need) → need.Answer → need'.Answer → Prop
  | .turn _, .turn _, _, _ => A.turns
  | .access _ (.put _), .access _ (.put _), _, _ => True
  | .access _ .get, .access _ .get, c, d => A.values w c d
  | .access _ .drain, .access _ .drain, cells, cells' => List.Forall₂ (A.values w) cells cells'
  | .access _ .look, .access _ .look, b, b' => b = b'
  | .completion _, .completion _, c, d => A.values w c d
  | .entry path, .entry _, entry, entry' => entry = entry' ∧ A.entries path entry
  | .source origin text, .source _ _, _, _ => A.sources origin text
  | _, _, _, _ => False

/-- Runs that come to the same end, or need the same and go on alike whatever has happened in
between. -/
inductive Runs {α β : Type} (R : A.World → α → β → Prop) : A.World → Run α → Run β → Prop
  | done {w w' : A.World} {a : α} {b : β} {s t : Store} :
      w ≤ w' → A.stores w' s t → R w' a b → Runs R w (.done a s) (.done b t)
  | stop {w w' : A.World} {reason reason' : Stop} {s t : Store} :
      w ≤ w' → A.stores w' s t → A.Stops w' reason reason' →
        Runs R w (.stop reason s) (.stop reason' t)
  | pause {w w' : A.World} {need need' : Need} {s t : Store}
      {resume : need.Answer → Store → Run α} {resume' : need'.Answer → Store → Run β} :
      w ≤ w' → A.stores w' s t → A.Needs w' need need' →
      (∀ (w'' : A.World) (answer : need.Answer) (answer' : need'.Answer) (s' t' : Store), w' ≤ w'' →
        A.stores w'' s' t' → A.Answers w'' need need' answer answer' →
          Runs R w'' (resume answer s') (resume' answer' t')) →
      Runs R w (.pause need s resume) (.pause need' t resume')

/-- Evaluations that run alike from all stores that correspond from now on. -/
def Evals {α β : Type} (w : A.World) (R : A.World → α → β → Prop) (m : Eval α) (m' : Eval β) :
    Prop :=
  ∀ w', w ≤ w' → ∀ s t, A.stores w' s t → A.Runs R w' (m s) (m' t)

end Relations

/-- What a correspondence has to satisfy. -/
structure Lawful (A : Correspondence) : Prop where
  values_mono {w w' : A.World} {c d : Cell} : w ≤ w' → A.values w c d → A.values w' c d
  codes_mono {w w' : A.World} {c d : Cell} : w ≤ w' → A.codes w c d → A.codes w' c d
  isOpen_mono {w w' : A.World} {scope : ScopeId} : w ≤ w' → A.isOpen w scope → A.isOpen w' scope
  isTable_mono {w w' : A.World} {scope : ScopeId} :
    w ≤ w' → A.isTable w scope → A.isTable w' scope
  values_value {w : A.World} {c d : Cell} :
    A.values w c d → DataValues A.Bindable (A.codes w) c.value d.value
  codes_value {w : A.World} {c d : Cell} : A.codes w c d → CodeValues A.names c.value d.value
  codes_place {w : A.World} {c d : Cell} : A.codes w c d → A.places c.location d.location
  literal {w : A.World} {c d : Cell} :
    A.codes w c d → c.value ≠ .list → DataValues A.Bindable (A.codes w) c.value d.value →
      A.values w c d
  same_eq {w : A.World} {c d c' d' : Cell} :
    A.values w c d → A.values w c' d' → c.same c' = d.same d'
  names_faultName : A.names Form.faultName
  places_orElse {place place' other other' : Option Location} :
    A.places place place' → A.places other other' →
      A.places (place <|> other) (place' <|> other')
  -- cells
  builtIn {w : A.World} {s t : Store} (k : Keyword) :
    A.stores w s t → A.values w (.builtIn k) (.builtIn k)
  newCell {w : A.World} {s t : Store} {v v' : Value} {place place' : Option Location} :
    A.stores w s t → A.Marks w place place' → DataValues A.Bindable (A.codes w) v v' →
      v ≠ .list → ∃ w', w ≤ w' ∧ A.stores w' (s.newCell v place #[]).2 (t.newCell v' place' #[]).2 ∧
        A.values w' (s.newCell v place #[]).1 (t.newCell v' place' #[]).1
  newList {w : A.World} {s t : Store} {cells cells' : List Cell} :
    A.stores w s t → List.Forall₂ (A.values w) cells cells' →
      ∃ w', w ≤ w' ∧
        A.stores w' (s.newCell .list none cells.toArray).2 (t.newCell .list none cells'.toArray).2 ∧
        A.values w' (s.newCell .list none cells.toArray).1 (t.newCell .list none cells'.toArray).1
  load {w : A.World} {s t : Store} {origin : Option String} {text : String} {trees : List Tree}
    {tree : Tree} :
    A.stores w s t → A.sources origin text → parse origin text = .ok trees → tree ∈ trees →
      ∃ w', w ≤ w' ∧ A.stores w' (s.load tree).2 (t.load tree).2 ∧
        A.codes w' (s.load tree).1 (t.load tree).1
  -- items
  valueItems {w : A.World} {s t : Store} {c d : Cell} :
    A.stores w s t → A.values w c d → c.value = .list →
      List.Forall₂ (A.values w) (s.items c.id) (t.items d.id)
  codeItems {w : A.World} {s t : Store} {c d : Cell} :
    A.stores w s t → A.codes w c d → c.value = .list →
      List.Forall₂ (A.codes w) (s.items c.id) (t.items d.id)
  setItems {w : A.World} {s t : Store} {c d : Cell} {cells cells' : List Cell} :
    A.stores w s t → A.values w c d → c.value = .list →
      List.Forall₂ (A.values w) cells cells' →
      (∀ item ∈ cells, item ∈ s.items c.id ∨ A.apart s item c) →
      ∃ w', w ≤ w' ∧ A.stores w' (s.modifyRow c.id fun _ => cells.toArray)
        (t.modifyRow d.id fun _ => cells'.toArray)
  apart_of_reaches {w : A.World} {s t : Store} {c d item item' : Cell} :
    A.stores w s t → A.values w c d → A.values w item item' → s.reaches item c = false →
      A.apart s item c
  apart_newCell {w : A.World} {s t : Store} {c d item item' : Cell} (v : Value)
    (place : Option Location) :
    A.stores w s t → A.values w c d → A.values w item item' → A.apart s item c →
      A.apart (s.newCell v place #[]).2 item c
  apart_new {w : A.World} {s t : Store} {c d : Cell} {v : Value} (place : Option Location) :
    A.stores w s t → A.values w c d → v ≠ .list →
      A.apart (s.newCell v place #[]).2 (s.newCell v place #[]).1 c
  apart_setUsed {s : Store} {c item : Cell} (used : Nat) :
    A.apart s item c → A.apart { s with used } item c
  apart_of_turns {s : Store} {c item : Cell} : A.turns → A.apart s item c
  fits_value {w : A.World} {s t : Store} {c d : Cell} :
    A.stores w s t → A.values w c d →
      s.depth = t.depth ∨ s.depth ≤ t.depth ∧ s.Fits s.depth c
  fits_code {w : A.World} {s t : Store} {c d : Cell} :
    A.stores w s t → A.codes w c d →
      s.depth = t.depth ∨ s.depth ≤ t.depth ∧ s.Fits s.depth c
  -- scopes
  outer_eq {w : A.World} {s t : Store} (id : ScopeId) :
    A.stores w s t → (s.scope id).outer = (t.scope id).outer
  packages_eq {w : A.World} {s t : Store} (id : ScopeId) :
    A.stores w s t → (s.scope id).packages = (t.scope id).packages
  get? {w : A.World} {s t : Store} (id : ScopeId) (name : String) :
    A.stores w s t → Option.Rel (A.values w) ((s.scope id).get? name) ((t.scope id).get? name)
  childScope {w : A.World} {s t : Store} (parent : ScopeId) :
    A.stores w s t → (s.childScope parent).1 = (t.childScope parent).1 ∧
      ∃ w', w ≤ w' ∧ A.stores w' (s.childScope parent).2 (t.childScope parent).2 ∧
        A.isOpen w' (s.childScope parent).1
  newTable {w : A.World} {s t : Store} :
    A.stores w s t → (s.newScope []).1 = (t.newScope []).1 ∧
      ∃ w', w ≤ w' ∧ A.stores w' (s.newScope []).2 (t.newScope []).2 ∧
        A.isTable w' (s.newScope []).1
  define {w : A.World} {s t : Store} {c d : Cell} {id : ScopeId} {name : String} :
    A.stores w s t → A.values w c d → A.isOpen w id ∧ A.Bindable name ∨ A.isTable w id →
      ∃ w', w ≤ w' ∧ A.stores w' (s.define id name c) (t.define id name d)
  redefine {w : A.World} {s t : Store} {c d : Cell} {id : ScopeId} {name : String} :
    A.stores w s t → A.values w c d → (s.scope id).binds name = true →
      ∃ w', w ≤ w' ∧ A.stores w' (s.define id name c) (t.define id name d)
  -- channels, references and tasks
  queues_toList {w : A.World} {q q' : Queue Cell} :
    A.queues w q q' → List.Forall₂ (A.values w) q.toList q'.toList
  queues_empty (w : A.World) : A.queues w .empty .empty
  queues_pushAll {w : A.World} {q q' : Queue Cell} {cells cells' : List Cell} :
    A.queues w q q' → List.Forall₂ (A.values w) cells cells' →
      A.queues w (q.pushAll cells) (q'.pushAll cells')
  queues_pop? {w : A.World} {q q' : Queue Cell} :
    A.queues w q q' →
      Option.Rel (fun p p' => A.values w p.1 p'.1 ∧ A.queues w p.2 p'.2) q.pop? q'.pop?
  channels_size_eq {w : A.World} {s t : Store} :
    A.stores w s t → s.channels.size = t.channels.size
  queue {w : A.World} {s t : Store} (id : ChannelId) :
    A.stores w s t → A.queues w (s.queue id) (t.queue id)
  setQueue {w : A.World} {s t : Store} {q q' : Queue Cell} (id : ChannelId) :
    A.stores w s t → A.queues w q q' →
      ∃ w', w ≤ w' ∧ A.stores w' (s.setQueue id q) (t.setQueue id q')
  newChannel {w : A.World} {s t : Store} :
    A.stores w s t → s.newChannel.1 = t.newChannel.1 ∧
      ∃ w', w ≤ w' ∧ A.stores w' s.newChannel.2 t.newChannel.2
  reference {w : A.World} {s t : Store} (id : RefId) :
    A.stores w s t → Option.Rel (A.values w) (s.reference id) (t.reference id)
  writeReference {w : A.World} {s t : Store} {c d : Cell} (id : RefId) :
    A.stores w s t → A.values w c d →
      ∃ w', w ≤ w' ∧ A.stores w' (s.writeReference id c) (t.writeReference id d)
  newReference {w : A.World} {s t : Store} {c d : Option Cell} :
    A.stores w s t → Option.Rel (A.values w) c d →
      (s.newReference c).1 = (t.newReference d).1 ∧
        ∃ w', w ≤ w' ∧ A.stores w' (s.newReference c).2 (t.newReference d).2
  result {w : A.World} {s t : Store} (id : TaskId) :
    A.stores w s t → Option.Rel (A.values w) (s.task id).result (t.task id).result
  joinable_eq {w : A.World} {s t : Store} (id : TaskId) :
    A.stores w s t → (s.task id).joinable = (t.task id).joinable
  release {w : A.World} {s t : Store} (id : TaskId) :
    A.stores w s t → ∃ w', w ≤ w' ∧
      A.stores w' (s.modifyTask id fun task => { task with joinable := false })
        (t.modifyTask id fun task => { task with joinable := false })
  newTask {w : A.World} {s t : Store} {body body' : Cell} {scope : ScopeId} :
    A.stores w s t → A.codes w body body' → A.isOpen w scope →
      (s.newTask body scope).1 = (t.newTask body' scope).1 ∧
        ∃ w', w ≤ w' ∧ A.stores w' (s.newTask body scope).2 (t.newTask body' scope).2
  -- output and turns
  write {w : A.World} {s t : Store} (text : String) :
    A.stores w s t → ∃ w', w ≤ w' ∧ A.stores w' (s.write text) (t.write text)
  isBusy_eq {w : A.World} {s t : Store} : A.stores w s t → s.isBusy = t.isBusy
  used_eq {w : A.World} {s t : Store} : A.stores w s t → s.used = t.used
  setUsed {w : A.World} {s t : Store} (used : Nat) :
    A.stores w s t → ∃ w', w ≤ w' ∧ A.stores w' { s with used } { t with used }

variable {A : Correspondence} {α β γ δ : Type}

/-! ### Runs -/

namespace Runs

variable {R : A.World → α → β → Prop} {Q : A.World → γ → δ → Prop} {w w' : A.World}

theorem of_le {r : Run α} {r' : Run β} (h : w ≤ w') (hr : A.Runs R w' r r') :
    A.Runs R w r r' := by
  cases hr with
  | done hle hst hR => exact .done (h.trans hle) hst hR
  | stop hle hst hreason => exact .stop (h.trans hle) hst hreason
  | pause hle hst hneed hresume => exact .pause (h.trans hle) hst hneed hresume

theorem of_done {a : α} {s : Store} {r : Run β} (h : A.Runs R w (.done a s) r) :
    ∃ w' b t, r = .done b t ∧ w ≤ w' ∧ A.stores w' s t ∧ R w' a b := by
  cases h with
  | done hle hst hR => exact ⟨_, _, _, rfl, hle, hst, hR⟩

theorem of_stop {reason : Stop} {s : Store} {r : Run β} (h : A.Runs R w (.stop reason s) r) :
    ∃ w' reason' t, r = .stop reason' t ∧ w ≤ w' ∧ A.stores w' s t ∧ A.Stops w' reason reason' := by
  cases h with
  | stop hle hst hreason => exact ⟨_, _, _, rfl, hle, hst, hreason⟩

theorem of_pause {need : Need} {s : Store} {resume : need.Answer → Store → Run α} {r : Run β}
    (h : A.Runs R w (.pause need s resume) r) :
    ∃ w' need' t resume', r = .pause need' t resume' ∧ w ≤ w' ∧ A.stores w' s t ∧
      A.Needs w' need need' ∧
      ∀ (w'' : A.World) (answer : need.Answer) (answer' : need'.Answer) (s' t' : Store), w' ≤ w'' →
        A.stores w'' s' t' → A.Answers w'' need need' answer answer' →
          A.Runs R w'' (resume answer s') (resume' answer' t') := by
  cases h with
  | pause hle hst hneed hresume => exact ⟨_, _, _, _, rfl, hle, hst, hneed, hresume⟩

theorem bind {r : Run α} {r' : Run β} {f : α → Store → Run γ} {f' : β → Store → Run δ}
    (hr : A.Runs R w r r')
    (hf : ∀ w', w ≤ w' → ∀ a b s t, R w' a b → A.stores w' s t → A.Runs Q w' (f a s) (f' b t)) :
    A.Runs Q w (r.bind f) (r'.bind f') := by
  induction hr with
  | done hle hst hR => exact (hf _ hle _ _ _ _ hR hst).of_le hle
  | stop hle hst hreason => exact .stop hle hst hreason
  | pause hle hst hneed _ ih =>
    refine .pause hle hst hneed fun w'' answer answer' s' t' hle' hst' hanswer => ?_
    exact ih w'' answer answer' s' t' hle' hst' hanswer fun w₃ hle'' =>
      hf w₃ (hle.trans (hle'.trans hle''))

end Runs

inductive Flows (A : Correspondence) (w : A.World) : Flow → Flow → Prop
  | value {c d : Cell} : A.values w c d → Flows A w (.value c) (.value d)
  | breakOut : Flows A w .breakOut .breakOut
  | yieldUp {c d : Cell} : A.values w c d → Flows A w (.yieldUp c) (.yieldUp d)

theorem Runs.flow {w : A.World} {r r' : Run Cell} (h : A.Runs A.values w r r') :
    A.Runs A.Flows w r.flow r'.flow := by
  induction h with
  | done hle hst hvalue => exact .done hle hst (.value hvalue)
  | stop hle hst hreason =>
    cases hreason with
    | breakOut => exact .done hle hst .breakOut
    | yieldUp hvalue => exact .done hle hst (.yieldUp hvalue)
    | fault hfault => exact .stop hle hst (.fault hfault)
    | exit status => exact .stop hle hst (.exit status)
    | exhausted => exact .stop hle hst .exhausted
  | pause hle hst hneed _ ih => exact .pause hle hst hneed ih

theorem Runs.attempt {R : A.World → α → β → Prop} {w : A.World} {r : Run α} {r' : Run β}
    (h : A.Runs R w r r') :
    A.Runs (fun w => A.Results (R w)) w r.attempt r'.attempt := by
  induction h with
  | done hle hst hR => exact .done hle hst (.ok hR)
  | stop hle hst hreason =>
    cases hreason with
    | breakOut => exact .stop hle hst .breakOut
    | yieldUp hvalue => exact .stop hle hst (.yieldUp hvalue)
    | fault hfault => exact .done hle hst (.error hfault)
    | exit status => exact .stop hle hst (.exit status)
    | exhausted => exact .stop hle hst .exhausted
  | pause hle hst hneed _ ih => exact .pause hle hst hneed ih

/-! ### Evaluations -/

namespace Evals

variable {R : A.World → α → β → Prop} {Q : A.World → γ → δ → Prop} {w : A.World}

theorem mono {w' : A.World} (h : w ≤ w') {m : Eval α} {m' : Eval β} (hm : A.Evals w R m m') :
    A.Evals w' R m m' :=
  fun w'' hle => hm w'' (h.trans hle)

theorem pure {a : α} {b : β} (h : ∀ w', w ≤ w' → R w' a b) :
    A.Evals w R (Pure.pure a) (Pure.pure b) :=
  fun w' hle _ _ hst => .done le_rfl hst (h w' hle)

theorem bind {m : Eval α} {m' : Eval β} {f : α → Eval γ} {f' : β → Eval δ}
    (hm : A.Evals w R m m')
    (hf : ∀ w', w ≤ w' → ∀ a b, R w' a b → A.Evals w' Q (f a) (f' b)) :
    A.Evals w Q (m >>= f) (m' >>= f') :=
  fun w' hle s t hst => (hm w' hle s t hst).bind fun w'' hle' a b s' t' hR hst' =>
    hf w'' (hle.trans hle') a b hR w'' le_rfl s' t' hst'

theorem bind_eq {m m' : Eval α} {f : α → Eval γ} {f' : α → Eval δ}
    (hm : A.Evals w (fun _ => Eq) m m')
    (hf : ∀ w', w ≤ w' → ∀ a, A.Evals w' Q (f a) (f' a)) :
    A.Evals w Q (m >>= f) (m' >>= f') := by
  refine hm.bind fun w' hle a b hab => ?_
  subst hab
  exact hf w' hle a

theorem map {m : Eval α} {m' : Eval β} {f : α → γ} {f' : β → δ} (hm : A.Evals w R m m')
    (hf : ∀ w', w ≤ w' → ∀ a b, R w' a b → ∀ w'', w' ≤ w'' → Q w'' (f a) (f' b)) :
    A.Evals w Q (f <$> m) (f' <$> m') := by
  rw [map_eq_pure_bind, map_eq_pure_bind]
  exact hm.bind fun w' hle a b hR => .pure (hf w' hle a b hR)

theorem stop {reason reason' : Stop} (h : ∀ w', w ≤ w' → A.Stops w' reason reason') :
    A.Evals w R (Eval.stop reason) (Eval.stop reason') :=
  fun w' hle _ _ hst => .stop le_rfl hst (h w' hle)

theorem fail {fault fault' : Fault} (h : A.Faults fault fault') :
    A.Evals w R (Eval.fail fault) (Eval.fail fault') :=
  .stop fun _ _ => .fault h

theorem read {f : Store → α} {f' : Store → β}
    (h : ∀ w', w ≤ w' → ∀ s t, A.stores w' s t → R w' (f s) (f' t)) :
    A.Evals w R (Eval.read f) (Eval.read f') :=
  fun w' hle s t hst => .done le_rfl hst (h w' hle s t hst)

theorem modify {f f' : Store → Store}
    (h : ∀ w', w ≤ w' → ∀ s t, A.stores w' s t → ∃ w'', w' ≤ w'' ∧ A.stores w'' (f s) (f' t)) :
    A.Evals w (fun _ _ _ => True) (Eval.modify f) (Eval.modify f') := by
  intro w' hle s t hst
  obtain ⟨w'', hle', hst'⟩ := h w' hle s t hst
  exact .done hle' hst' trivial

theorem make {f : Store → α × Store} {f' : Store → β × Store}
    (h : ∀ w', w ≤ w' → ∀ s t, A.stores w' s t →
      ∃ w'', w' ≤ w'' ∧ A.stores w'' (f s).2 (f' t).2 ∧ R w'' (f s).1 (f' t).1) :
    A.Evals w R (Eval.make f) (Eval.make f') := by
  intro w' hle s t hst
  obtain ⟨w'', hle', hst', hR⟩ := h w' hle s t hst
  exact .done hle' hst' hR

theorem make_eq {f f' : Store → α × Store}
    (h : ∀ w', w ≤ w' → ∀ s t, A.stores w' s t →
      (f s).1 = (f' t).1 ∧ ∃ w'', w' ≤ w'' ∧ A.stores w'' (f s).2 (f' t).2) :
    A.Evals w (fun _ => Eq) (Eval.make f) (Eval.make f') := by
  refine .make fun w' hle s t hst => ?_
  obtain ⟨heq, w'', hle', hst'⟩ := h w' hle s t hst
  exact ⟨w'', hle', hst', heq⟩

theorem readOr {f : Store → Except Fault α} {f' : Store → Except Fault β}
    (h : ∀ w', w ≤ w' → ∀ s t, A.stores w' s t → A.Results (R w') (f s) (f' t)) :
    A.Evals w R (Eval.readOr f) (Eval.readOr f') := by
  intro w' hle s t hst
  have hresults := h w' hle s t hst
  simp only [Eval.readOr]
  generalize f s = result at hresults
  generalize f' t = result' at hresults
  cases hresults with
  | ok hR => exact .done le_rfl hst hR
  | error hfault => exact .stop le_rfl hst (.fault hfault)

theorem await {need need' : Need} (h : ∀ w', w ≤ w' → A.Needs w' need need') :
    A.Evals w (fun w => A.Answers w need need') (.await need) (.await need') :=
  fun w' hle _ _ hst => .pause le_rfl hst (h w' hle) fun _ _ _ _ _ _ hst' hanswer =>
    .done le_rfl hst' hanswer

theorem flow {m m' : Eval Cell} (h : A.Evals w A.values m m') :
    A.Evals w A.Flows m.flow m'.flow :=
  fun w' hle s t hst => (h w' hle s t hst).flow

theorem attempt {m : Eval α} {m' : Eval β} (h : A.Evals w R m m') :
    A.Evals w (fun w => A.Results (R w)) m.attempt m'.attempt :=
  fun w' hle s t hst => (h w' hle s t hst).attempt

end Evals

end Correspondence

end BracketScript
