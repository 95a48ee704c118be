import BracketScript.Proofs.Relocation.Lawful

/-!
# What evaluations can lead to

A run that waits for no other task comes to an end with a value or without one, once it has been
told what is at the paths that it asks for. `Reachable` are the stores that evaluations lead to one
after the other, whether they come to a value or not, together with the values. Every such store is
alike to itself, so that no list contains itself and all walks into values end before they meet
their bound.
-/

namespace BracketScript

open Relation Correspondence

/-- What answers a need without other tasks, where `entries` are what is told about paths: the
answer, the store after that and what is left to be told. -/
def Need.told? : (need : Need) → Store → List Entry → Option (need.Answer × Store × List Entry)
  | .access channel request, s, entries =>
    (request.perform? channel s).map fun (answer, t) => (answer, t, entries)
  | .entry _, s, found :: entries => some (found, s, entries)
  | .source _ _, s, entries => some ((), s, entries)
  | _, _, _ => none

/-- What a run comes to without other tasks and the store in the end, where `entries` are what it is
told about the paths that it asks for. -/
def Run.end? {α : Type} : Run α → List Entry → Option (Except Stop α × Store)
  | .done a s, [] => some (.ok a, s)
  | .stop reason s, [] => some (.error reason, s)
  | .pause need s resume, entries =>
    (need.told? s entries).bind fun told => (resume told.1 told.2.1).end? told.2.2
  | _, _ => none

namespace Correspondence

variable {A : Correspondence} {α β : Type}

inductive Outcomes (R : A.World → α → β → Prop) (w : A.World) :
    Except Stop α → Except Stop β → Prop
  | ok {a : α} {b : β} : R w a b → Outcomes R w (.ok a) (.ok b)
  | error {reason reason' : Stop} :
      A.Stops w reason reason' → Outcomes R w (.error reason) (.error reason')

def Ends (R : A.World → α → β → Prop) (w : A.World) (p : Except Stop α × Store)
    (q : Except Stop β × Store) : Prop :=
  ∃ w', w ≤ w' ∧ A.stores w' p.2 q.2 ∧ Outcomes R w' p.1 q.1

/-- Corresponding needs are both answered, or neither is. -/
theorem Lawful.told? (hA : A.Lawful) (hentries : ∀ path entry, A.entries path entry)
    (hsources : ∀ origin text, A.sources origin text) {w : A.World} {s t : Store}
    (hst : A.stores w s t) {need need' : Need} (hneed : A.Needs w need need')
    (entries : List Entry) :
    Option.Rel
      (fun p p' => ∃ w', w ≤ w' ∧ A.stores w' p.2.1 p'.2.1 ∧ A.Answers w' need need' p.1 p'.1 ∧
        p.2.2 = p'.2.2)
      (need.told? s entries) (need'.told? t entries) := by
  cases hneed with
  | turn filled => exact .none
  | completion task => exact .none
  | source _ => exact .some ⟨w, le_rfl, hst, hsources _ _, rfl⟩
  | entry path =>
    cases entries with
    | nil => exact .none
    | cons entry entries => exact .some ⟨w, le_rfl, hst, ⟨rfl, hentries path entry⟩, rfl⟩
  | @access channel request request' hrequest =>
    have hperform := hA.perform? hst hrequest channel
    simp only [Need.told?]
    generalize request.perform? channel s = found at hperform
    generalize request'.perform? channel t = found' at hperform
    cases hperform with
    | none => exact .none
    | some hp =>
      obtain ⟨w', hle, hst', hanswer⟩ := hp
      exact .some ⟨w', hle, hst', hanswer, rfl⟩

/-- Corresponding runs both come to an end, or neither does. -/
theorem Runs.ends (hA : A.Lawful) (hentries : ∀ path entry, A.entries path entry)
    (hsources : ∀ origin text, A.sources origin text) {R : A.World → α → β → Prop} {w : A.World}
    {r : Run α} {r' : Run β} (h : A.Runs R w r r') (entries : List Entry) :
    Option.Rel (Ends R w) (r.end? entries) (r'.end? entries) := by
  induction h generalizing entries with
  | done hle hst hR =>
    cases entries with
    | nil => exact .some ⟨_, hle, hst, .ok hR⟩
    | cons entry entries => exact .none
  | stop hle hst hreason =>
    cases entries with
    | nil => exact .some ⟨_, hle, hst, .error hreason⟩
    | cons entry entries => exact .none
  | @pause w w₁ need need' s t resume resume' hle hst hneed _ ih =>
    have htold := hA.told? hentries hsources hst hneed entries
    simp only [Run.end?]
    generalize need.told? s entries = told at htold
    generalize need'.told? t entries = told' at htold
    cases htold with
    | none => exact .none
    | @some p p' hp =>
      obtain ⟨answer, s', rest⟩ := p
      obtain ⟨answer', t', rest'⟩ := p'
      obtain ⟨w₂, hle₂, hst₂, hanswer, hrest⟩ := hp
      obtain rfl : rest = rest' := hrest
      have hends := ih w₂ answer answer' s' t' hle₂ hst₂ hanswer rest
      simp only [Option.bind_some]
      generalize (resume answer s').end? rest = found at hends
      generalize (resume' answer' t').end? rest = found' at hends
      cases hends with
      | none => exact .none
      | some hends =>
        obtain ⟨w₃, hle₃, hends⟩ := hends
        exact .some ⟨w₃, hle.trans (hle₂.trans hle₃), hends⟩

end Correspondence

/-! ### Reachable stores -/

/-- The stores that evaluations lead to, without packages and one after the other, and the values
that they came to. -/
inductive Reachable : Store → List Cell → Prop
  | initial : Reachable .initial []
  | value {host : Host} {s t : Store} {results : List Cell} {entries : List Entry} {c : Cell}
      (fuel : Nat) (scope : ScopeId) (tree : Tree) :
      Reachable s results → host.packages = [] →
      ((evaluator host fuel).runTree scope tree s).end? entries = some (.ok c, t) →
        Reachable t (c :: results)
  | failure {host : Host} {s t : Store} {results : List Cell} {entries : List Entry}
      {reason : Stop} (fuel : Nat) (scope : ScopeId) (tree : Tree) :
      Reachable s results → host.packages = [] →
      ((evaluator host fuel).runTree scope tree s).end? entries = some (.error reason, t) →
        Reachable t results

/-- The store and the values that evaluations come to one after the other, when they ask for
nothing. -/
def Host.after (host : Host) (fuel : Nat) (scope : ScopeId) (s : Store) (results : List Cell) :
    List Tree → Option (Store × List Cell)
  | [] => some (s, results)
  | tree :: trees =>
    match ((evaluator host fuel).runTree scope tree s).end? [] with
    | some (.ok c, t) => host.after fuel scope t (c :: results) trees
    | some (.error _, t) => host.after fuel scope t results trees
    | none => none

/-- What a program can get hold of: the values it came to, what names are bound to, what waits in
channels and stands in references, and the items of all these. -/
inductive Held (s : Store) (results : List Cell) : Cell → Prop
  | result {c : Cell} : c ∈ results → Held s results c
  | bound {c : Cell} (scope : ScopeId) (name : String) :
      (s.scope scope).get? name = some c → Held s results c
  | queued {c : Cell} (channel : ChannelId) : c ∈ (s.queue channel).toList → Held s results c
  | referenced {c : Cell} (id : RefId) : s.reference id = some c → Held s results c
  | item {c d : Cell} : Held s results c → c.value = .list → d ∈ s.items c.id → Held s results d

namespace Shift

def none : Shift := ⟨Keyword.all.length, 0⟩

@[simp] theorem move_none (id : CellId) : none.move id = id := by
  simp [move, none]

end Shift

theorem Keyword.index_lt (k : Keyword) : k.index < Keyword.all.length :=
  List.idxOf_lt_length_of_mem k.mem_all

theorem rows_initial (i : Nat) : Store.initial.itemRows.get i = #[] := by
  simp only [Store.initial, Arena.get, List.getElem?_toArray, List.getElem?_map]
  cases Keyword.all[i]? <;> rfl

theorem rowsAlike_initial :
    RowsAlike .none ⟨Keyword.all.length, fun _ => .leaf⟩ Store.initial.itemRows
      Store.initial.itemRows where
  size_eq := rfl
  size_eq' := rfl
  fixed_le := Nat.le_refl _
  builtIn k := ⟨k.index_lt, rfl⟩
  items id _ := by
    rw [Shift.move_none, rows_initial]
    exact .nil
  acyclic id hpath := by
    obtain ⟨_, ⟨c, hc, _⟩, _⟩ := TransGen.head'_iff.1 hpath
    rw [rows_initial] at hc
    exact absurd hc List.not_mem_nil

/-- The store in which programs start is alike to itself. -/
theorem storesAlike_initial :
    StoresAlike .none ⟨Keyword.all.length, fun _ => .leaf⟩ .initial .initial where
  rows := rowsAlike_initial
  scopes := ArenasAlike.push ⟨rfl, fun _ => ⟨rfl, rfl, fun _ => .none⟩⟩ ⟨rfl, rfl, fun _ => .none⟩
  channels := ⟨rfl, fun _ => .nil⟩
  refs := ⟨rfl, fun _ => .none⟩
  tasks := ⟨rfl, fun _ => ⟨rfl, .none⟩⟩
  running_eq := rfl
  launches := .nil
  used_eq := rfl
  output_eq := rfl

/-- Trees that differ in places only are evaluated alike. -/
theorem runTree_alike {σ : Shift} {w : Census} {host : Host} (hpackages : host.packages = [])
    (fuel : Nat) (scope : ScopeId) {tree tree' : Tree} (htree : tree.unplaced = tree'.unplaced) :
    (relocation σ).Evals w (ValuesAlike σ) ((evaluator host fuel).runTree scope tree)
      ((evaluator host fuel).runTree scope tree') := by
  have hA := lawful_relocation σ
  have hev := hA.evaluates hpackages (fun _ _ _ => trivial) fuel
  have hload : (relocation σ).Evals w (CodesAlike σ) (Eval.make fun s => s.load tree)
      (Eval.make fun s => s.load tree') :=
    .make fun _ _ _ _ hst => StoresAlike.load hst htree
  exact hload.bind fun _ _ _ _ hcode => hA.evaluate hev hcode trivial

/-- What an evaluation leads to from a store that is alike to itself is alike to itself. -/
theorem alike_of_end {w : Census} {s t : Store} (h : StoresAlike .none w s s) {host : Host}
    (hpackages : host.packages = []) {fuel : Nat} {scope : ScopeId} {tree : Tree}
    {entries : List Entry} {outcome : Except Stop Cell}
    (hend : ((evaluator host fuel).runTree scope tree s).end? entries = some (outcome, t)) :
    ∃ w', w ≤ w' ∧ StoresAlike .none w' t t ∧ ∀ c, outcome = .ok c → ValuesAlike .none w' c c := by
  have htree : tree.unplaced = tree.unplaced := rfl
  -- the evaluation is related to itself
  have hruns := runTree_alike hpackages fuel scope htree w le_rfl s s h
  have hends := hruns.ends (lawful_relocation _) (fun _ _ => trivial) (fun _ _ => trivial) entries
  rw [hend] at hends
  cases hends with
  | some hends =>
    obtain ⟨w', hle, hst, houtcome⟩ := hends
    refine ⟨w', hle, hst, fun c hc => ?_⟩
    subst hc
    cases houtcome with
    | ok hvalue => exact hvalue

namespace Reachable

variable {s : Store} {results : List Cell}

theorem alike (h : Reachable s results) :
    ∃ w, StoresAlike .none w s s ∧ ∀ c ∈ results, ValuesAlike .none w c c := by
  induction h with
  | initial => exact ⟨_, storesAlike_initial, nofun⟩
  | value fuel scope tree _ hpackages hend ih =>
    obtain ⟨w, hst, hresults⟩ := ih
    obtain ⟨w', hle, hst', hvalue⟩ := alike_of_end hst hpackages hend
    refine ⟨w', hst', List.forall_mem_cons.2 ⟨hvalue _ rfl, fun d hd => ?_⟩⟩
    exact (hresults d hd).mono hle
  | failure fuel scope tree _ hpackages hend ih =>
    obtain ⟨w, hst, hresults⟩ := ih
    obtain ⟨w', hle, hst', -⟩ := alike_of_end hst hpackages hend
    exact ⟨w', hst', fun d hd => (hresults d hd).mono hle⟩

theorem after (h : Reachable s results) {host : Host} (hpackages : host.packages = []) {fuel : Nat}
    {scope : ScopeId} {trees : List Tree} {t : Store} {results' : List Cell}
    (hafter : host.after fuel scope s results trees = some (t, results')) :
    Reachable t results' := by
  induction trees generalizing s results with
  | nil =>
    cases hafter
    exact h
  | cons tree trees ih =>
    rw [Host.after] at hafter
    split at hafter
    · next hend => exact ih (.value fuel scope tree h hpackages hend) hafter
    · next hend => exact ih (.failure fuel scope tree h hpackages hend) hafter
    · cases hafter

end Reachable

theorem Held.alike {w : Census} {s : Store} {results : List Cell} (hst : StoresAlike .none w s s)
    (hresults : ∀ c ∈ results, ValuesAlike .none w c c) {c : Cell} (h : Held s results c) :
    ∃ d, ValuesAlike .none w c d := by
  induction h with
  | result hc => exact ⟨_, hresults _ hc⟩
  | bound scope name hc =>
    have hvalue := (hst.scopes.get scope.index).get? name
    change Option.Rel _ ((s.scope scope).get? name) ((s.scope scope).get? name) at hvalue
    rw [hc] at hvalue
    cases hvalue with
    | some hvalue => exact ⟨_, hvalue⟩
  | queued channel hc =>
    obtain ⟨d, -, hvalue⟩ := exists_of_mem (hst.channels.get channel.index) hc
    exact ⟨d, hvalue⟩
  | referenced id hc =>
    have hvalue := hst.refs.get id.index
    change Option.Rel _ (s.reference id) (s.reference id) at hvalue
    rw [hc] at hvalue
    cases hvalue with
    | some hvalue => exact ⟨_, hvalue⟩
  | item _ hlist hitem ih =>
    obtain ⟨_, hvalue⟩ := ih
    obtain ⟨d, -, hitem⟩ := exists_of_mem (hst.valueItems hvalue hlist) hitem
    exact ⟨d, hitem⟩

/-- No list that evaluations lead to contains itself. The walks into the values that a program can
get hold of therefore come to an end, and so soon that their bound makes no difference. -/
theorem isAcyclic_of_reachable {s : Store} {results : List Cell} (h : Reachable s results) :
    IsAcyclic s.itemRows ∧ ∀ c, Held s results c → s.Fits s.depth c ∧
      ∀ n, s.depth ≤ n →
        (∀ target, s.reachesWithin target n c = s.reaches c target) ∧
        (∀ scope, ∃ text, s.stringify scope c = .ok text ∧ s.stringifyWithin scope n c = .ok text) ∧
        s.quoteWithin n c = s.quote c := by
  obtain ⟨w, hst, hresults⟩ := h.alike
  refine ⟨hst.rows.acyclic, fun c hc => ?_⟩
  obtain ⟨d, hvalue⟩ := hc.alike hst hresults
  have hfits := hst.fits (.inr ⟨d, hvalue⟩)
  refine ⟨hfits, fun n hn => ⟨fun target => Store.reachesWithin_of_fits hn hfits target,
    fun scope => ?_, Store.quoteWithin_of_fits hn hfits⟩⟩
  have hA := lawful_relocation .none
  obtain ⟨text, htext, -⟩ := hA.stringify hst hvalue scope
  exact ⟨text, htext, (hA.stringifyWithin_of_fits hst hvalue scope hn hfits).trans htext⟩

/-- The tree of `[var l [list [list]]]`. -/
def nestedTree : Tree :=
  .list [.atom (.keyword .define) ⟨1, 2, none⟩, .atom (.symbol "l") ⟨1, 6, none⟩,
    .list [.atom (.keyword .list) ⟨1, 9, none⟩,
      .list [.atom (.keyword .list) ⟨1, 15, none⟩] ⟨1, 14, none⟩] ⟨1, 8, none⟩] ⟨1, 1, none⟩

/-- The tree of `[push l l]`. -/
def selfPushTree : Tree :=
  .list [.atom (.keyword .push) ⟨2, 2, none⟩, .atom (.symbol "l") ⟨2, 7, none⟩,
    .atom (.symbol "l") ⟨2, 9, none⟩] ⟨2, 1, none⟩

/-- After a list was refused as an item of itself, all walks into it still end. -/
theorem isAcyclic_of_refused_push :
    ∃ s results c, Reachable s results ∧ Held s results c ∧ s.quote c = "[[]]" ∧
      IsAcyclic s.itemRows ∧ ∀ n, s.depth ≤ n → s.quoteWithin n c = "[[]]" := by
  have hrun : (Host.after ⟨[], [], fun _ => none⟩ 4 Store.root .initial []
      [nestedTree, selfPushTree]).map (fun p => p.2.map p.1.quote) = some ["[[]]"] := by
    decide +kernel
  obtain ⟨⟨s, results⟩, hafter, hquotes⟩ := Option.map_eq_some_iff.1 hrun
  obtain ⟨c, others, rfl, hquote, -⟩ := List.map_eq_cons_iff.1 hquotes
  have hreachable := Reachable.initial.after rfl hafter
  have hheld : Held s (c :: others) c := .result List.mem_cons_self
  obtain ⟨hacyclic, hwalks⟩ := isAcyclic_of_reachable hreachable
  refine ⟨s, _, c, hreachable, hheld, hquote, hacyclic, fun n hn => ?_⟩
  exact ((hwalks c hheld).2 n hn).2.2.trans hquote

end BracketScript
