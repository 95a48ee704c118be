import BracketScript.Proofs.Reachable
import BracketScript.Proofs.RoundTrip

/-!
# Programs that pass through their text

`[decompose [compose e]]` turns the expression `e` into its text and evaluates what this text is
read as. The text is read as `e` with other places, which have no influence on evaluation, so this
means the same as `e`. The cells that are made on the way only move the identities of those made
later.
-/

namespace BracketScript

open Correspondence

/-! ### Calls of keywords -/

section Calls

variable {host : Host} {s : Store} {c head : Cell} {operands : List Cell} {k : Keyword}
  {scope : ScopeId}

/-- A list that starts with a keyword calls the procedure of the keyword. -/
theorem eval_keyword (hvalue : c.value = .list) (hitems : s.items c.id = head :: operands)
    (hhead : head.value = .keyword k) (n : Nat) :
    eval host (n + 2) c scope s =
      k.form (evaluator host (n + 1)) ⟨k.name, c, operands⟩ scope s := by
  have hread : (Eval.read fun s => s.items c.id) s = .done (head :: operands) s := by
    rw [Eval.read, hitems]
  have hkeyword : eval host (n + 1) head scope s = .done (.builtIn k) s := by
    rw [eval, Evaluator.step, hhead]
    rfl
  rw [eval, Evaluator.step, hvalue]
  exact (Eval.bind_of_done hread).trans (Eval.bind_of_done hkeyword)

/-- Composing an expression makes its text. -/
theorem eval_compose {operand : Cell} (hvalue : c.value = .list)
    (hitems : s.items c.id = [head, operand]) (hhead : head.value = .keyword .compose) (n : Nat) :
    eval host (n + 2) c scope s =
      .done (s.newCell (.string (s.quote operand)) none #[]).1
        (s.newCell (.string (s.quote operand)) none #[]).2 := by
  rw [eval_keyword hvalue hitems hhead]
  rfl

end Calls

namespace Evaluator

variable {ev : Evaluator} {s : Store} {scope : ScopeId}

/-- Without other tasks, a text with one expression is evaluated as this expression. -/
theorem runText_eq_runTree (hidle : s.isBusy = false) {origin : Option String} {text : String}
    {tree : Tree} (hparse : parse origin text = .ok [tree]) :
    ev.runText origin text scope s = ev.runTree scope tree s := by
  have hwork : ∀ rounds, Eval.work rounds s = .done () s := Eval.work_of_not_isBusy hidle
  have htext : Eval.workThrough text s = .done () s := hwork _
  refine (Eval.bind_of_done (hwork 1)).trans ((Eval.bind_of_done htext).trans ?_)
  simp only [hparse, runTrees, bind_map_left]
  exact congrFun (bind_pure _) s

end Evaluator

/-! ### Settled evaluations -/

namespace Eval

theorem settle_eq_of_eq {m k : Eval Cell} {s t : Store} (h : m s = k t) :
    m.settle s = k.settle t := by
  change (m s).flow.bind _ = (k t).flow.bind _
  rw [h]

/-- No break or yield is left to be settled. -/
theorem settle_settle (m : Eval Cell) : m.settle.settle = m.settle := by
  have hrun (r : Run Cell) (s : Store) :
      settle (settle fun _ => r) s = settle (fun _ => r) s := by
    induction r with
    | done c t => rfl
    | stop reason t => cases reason <;> rfl
    | pause need t resume ih =>
      have hresume : (fun answer u => settle (settle fun _ => resume answer u) u) =
          fun answer u => settle (fun _ => resume answer u) u :=
        funext fun answer => funext fun u => ih answer u
      exact congrArg (Run.pause need t) hresume
  funext s
  exact (settle_eq_of_eq (settle_eq_of_eq rfl)).trans ((hrun (m s) s).trans (settle_eq_of_eq rfl))

/-- What has been settled does not end in a break or yield. -/
theorem end?_settle {m : Eval Cell} {s t : Store} {entries : List Entry} {reason : Stop}
    (h : (m.settle s).end? entries = some (.error reason, t)) :
    reason ≠ .breakOut ∧ ∀ c, reason ≠ .yieldUp c := by
  have hrun (r : Run Cell) (told : List Entry)
      (hend : (settle (fun _ => r) s).end? told = some (.error reason, t)) :
      reason ≠ .breakOut ∧ ∀ c, reason ≠ .yieldUp c := by
    induction r generalizing told with
    | done c u => cases told <;> cases hend
    | stop reason' u =>
      cases told with
      | cons entry told => cases reason' <;> cases hend
      | nil => cases reason' <;> cases hend <;> exact ⟨nofun, nofun⟩
    | pause need u resume ih =>
      obtain ⟨⟨answer, v, rest⟩, -, hrest⟩ := Option.bind_eq_some_iff.1 hend
      exact ih answer v rest hrest
  exact hrun (m s) entries h

end Eval

/-! ### Recomposing -/

/-- The expression `[decompose [compose e]]`, with the places of its words and brackets. -/
def Tree.recomposing (e : Tree) (outer inner decompose compose : Location) : Tree :=
  .list [.atom (.keyword .decompose) decompose,
    .list [.atom (.keyword .compose) compose, e] inner] outer

section Recomposing

variable {host : Host} {scope : ScopeId} {s : Store} {e other : Tree}

/-- Recomposing is reading the text of the expression again. -/
theorem eval_recomposing {outer inner decompose compose : Location} {c : Cell}
    (h : s.Holds (e.recomposing outer inner decompose compose) c)
    (hsize : e.count ≤ s.itemRows.size) (n : Nat) :
    eval host (n + 3) c scope s =
      .pause (.source none e.text) (s.newCell (.string e.text) none #[]).2 fun _ =>
        (evaluator host (n + 2)).runText none e.text scope := by
  obtain ⟨hvalue, -, hitems⟩ := h
  match hcells : s.items c.id, hitems with
  | [head, operand], ⟨hhead, ⟨hlist, _, hoperands⟩, _⟩ =>
    match hcells' : s.items operand.id, hoperands with
    | [head', code], ⟨hhead', hcode, _⟩ =>
      have hcompose : eval host (n + 2) operand scope s = _ := eval_compose hlist hcells' hhead' n
      rw [Store.quote_of_holds hcode hsize] at hcompose
      rw [eval_keyword hvalue hcells hhead]
      exact Eval.bind_of_done hcompose

/-- Recomposing an expression evaluates the expression that its text is read as, in a store with
more cells. -/
theorem runTree_recomposing {outer inner decompose compose : Location} (hidle : s.isBusy = false)
    (hparse : parse none e.text = .ok [other]) (n : Nat) :
    ∃ t : Store, t.Extends s ∧ t.itemRows.size = s.itemRows.size + (e.count + 5) ∧
      ((evaluator host (n + 3)).runTree scope
          (e.recomposing outer inner decompose compose) s).end? =
        ((evaluator host (n + 2)).runTree scope other t).end? := by
  generalize htree : e.recomposing outer inner decompose compose = tree
  have hcount : tree.count = e.count + 4 := by
    rw [← htree]
    simp only [Tree.recomposing, Tree.count, Tree.countAll]
    omega
  have hextends := s.extends_load tree
  have hsize : (s.load tree).2.itemRows.size = s.itemRows.size + (e.count + 4) := by
    rw [s.size_load tree, hcount]
  have hholds : (s.load tree).2.Holds (e.recomposing outer inner decompose compose)
      (s.load tree).1 := by
    rw [htree]
    exact s.holds_load tree
  have heval : eval host (n + 3) (s.load tree).1 scope (s.load tree).2 = _ :=
    eval_recomposing hholds (by omega) n
  generalize ht : ((s.load tree).2.newCell (.string e.text) none #[]).2 = t at heval
  have hidle' : t.isBusy = false := by
    rw [← ht, ← hidle]
    change (s.load tree).2.isBusy = s.isBusy
    rw [hextends.store_eq]
    rfl
  have hrun : (evaluator host (n + 2)).runText none e.text scope t =
      (eval host (n + 2) (t.load other).1 scope).settle (t.load other).2 :=
    Evaluator.runText_eq_runTree hidle' hparse
  refine ⟨t, ht ▸ ((s.load tree).2.extends_newCell _ _ _).trans hextends, ?_, ?_⟩
  · rw [← ht, Store.size_newCell, hsize]
    rfl
  · funext entries
    -- what was read is settled already, so settling it again changes nothing
    calc ((evaluator host (n + 3)).runTree scope tree s).end? entries
      _ = ((eval host (n + 3) (s.load tree).1 scope).settle (s.load tree).2).end? entries := rfl
      _ = (((evaluator host (n + 2)).runText none e.text scope).settle t).end? entries := by
        rw [Eval.settle_eq_of_eq (k := fun _ => _) (t := t) heval]
        rfl
      _ = ((eval host (n + 2) (t.load other).1 scope).settle.settle (t.load other).2).end?
          entries := by rw [Eval.settle_eq_of_eq hrun]
      _ = ((evaluator host (n + 2)).runTree scope other t).end? entries := by
        rw [Eval.settle_settle]
        rfl

end Recomposing

/-! ### Stores with more cells -/

section Extended

variable {w : Census} {σ σ' : Shift} {c d : Cell}

theorem CodesAlike.moved (hmove : ∀ id : CellId, id.index < w.size → σ'.move id = σ.move id)
    (hc : CodesAlike σ w c d) : CodesAlike σ' w c d :=
  { hc with id_eq := hc.id_eq.trans (hmove c.id hc.id_lt).symm }

theorem ValuesAlike.moved (hmove : ∀ id : CellId, id.index < w.size → σ'.move id = σ.move id)
    (hc : ValuesAlike σ w c d) : ValuesAlike σ' w c d :=
  { hc with
    id_eq := hc.id_eq.trans (hmove c.id hc.id_lt).symm
    value := hc.value.imp_codes fun _ _ => CodesAlike.moved hmove }

theorem ItemsAlike.moved (hmove : ∀ id : CellId, id.index < w.size → σ'.move id = σ.move id)
    {role : Role} (hc : ItemsAlike σ w role c d) : ItemsAlike σ' w role c d := by
  cases role with
  | code => exact CodesAlike.moved hmove hc
  | data => exact ValuesAlike.moved hmove hc
  | atom => exact hc
  | leaf => exact hc

/-- Adding cells to one of two stores makes room among the identities. -/
theorem StoresAlike.extended {s t : Store} (h : StoresAlike .none w s s) (hextends : t.Extends s)
    {offset : Nat} (hsize : t.itemRows.size = s.itemRows.size + offset) :
    StoresAlike ⟨s.itemRows.size, offset⟩ w s t := by
  have hmove : ∀ id : CellId, id.index < w.size →
      Shift.move ⟨s.itemRows.size, offset⟩ id = Shift.none.move id := by
    intro id hid
    rw [Shift.move_none]
    exact Shift.move_of_lt _ (h.rows.size_eq ▸ hid)
  rw [hextends.store_eq]
  refine h.withRows (fun _ _ => CodesAlike.moved hmove) (fun _ _ => ValuesAlike.moved hmove) ?_
  exact {
    size_eq := h.rows.size_eq
    size_eq' := by rw [hsize, h.rows.size_eq]
    fixed_le := Nat.le_of_eq h.rows.size_eq
    builtIn := fun k =>
      ⟨Nat.lt_of_lt_of_le (h.rows.builtIn k).1 (h.rows.size_eq ▸ h.rows.fixed_le),
        (h.rows.builtIn k).2⟩
    items := fun id hid => by
      have hitems := h.rows.items id hid
      have hrow : t.itemRows.get id.index = s.itemRows.get id.index :=
        hextends.row_eq id (h.rows.size_eq ▸ hid)
      rw [hmove id hid]
      rw [Shift.move_none] at hitems ⊢
      rw [hrow]
      exact hitems.imp fun _ _ => ItemsAlike.moved hmove
    acyclic := h.rows.acyclic }

end Extended

/-! ### The same outcome -/

/-- What two evaluations come to, up to places and moved identities. -/
inductive OutcomesAlike (σ : Shift) (w : Census) : Except Stop Cell → Except Stop Cell → Prop
  | value {c d : Cell} : ValuesAlike σ w c d → OutcomesAlike σ w (.ok c) (.ok d)
  | fault {fault fault' : Fault} :
      fault.category = fault'.category → fault.message = fault'.message →
        OutcomesAlike σ w (.error (.fault fault)) (.error (.fault fault'))
  | exit (status : Int64) : OutcomesAlike σ w (.error (.exit status)) (.error (.exit status))
  | exhausted : OutcomesAlike σ w (.error .exhausted) (.error .exhausted)

/-- Evaluations that come to the same and leave stores that are alike. -/
def EndsAlike (σ : Shift) (p q : Except Stop Cell × Store) : Prop :=
  ∃ w, StoresAlike σ w p.2 q.2 ∧ OutcomesAlike σ w p.1 q.1

/-- Trees that differ in places only come to the same in stores that are alike. -/
theorem endsAlike_runTree {σ : Shift} {w : Census} {s t : Store} (hst : StoresAlike σ w s t)
    {host : Host} (hpackages : host.packages = []) (fuel : Nat) (scope : ScopeId)
    {tree tree' : Tree} (htree : tree.unplaced = tree'.unplaced) (entries : List Entry) :
    Option.Rel (EndsAlike σ) (((evaluator host fuel).runTree scope tree s).end? entries)
      (((evaluator host fuel).runTree scope tree' t).end? entries) := by
  have hruns := runTree_alike hpackages fuel scope htree w le_rfl s t hst
  have hends := hruns.ends (lawful_relocation σ) (fun _ _ => trivial) (fun _ _ => trivial) entries
  generalize hleft : ((evaluator host fuel).runTree scope tree s).end? entries = p at hends
  generalize ((evaluator host fuel).runTree scope tree' t).end? entries = q at hends
  cases hends with
  | none => exact .none
  | @some p q hends =>
    obtain ⟨w', -, hst', houtcome⟩ := hends
    refine .some ⟨w', hst', ?_⟩
    obtain ⟨outcome, u⟩ := p
    obtain ⟨outcome', u'⟩ := q
    cases houtcome with
    | ok hvalue => exact .value hvalue
    | error hstop =>
      obtain ⟨hbreak, hyield⟩ := Eval.end?_settle hleft
      cases hstop with
      | breakOut => exact absurd rfl hbreak
      | yieldUp _ => exact absurd rfl (hyield _)
      | fault hfault => exact .fault hfault.category_eq hfault.message_eq
      | exit status => exact .exit status
      | exhausted => exact .exhausted

/-- Places do not influence evaluation, and neither does passing through the text of an expression
that was read and has finite reals: evaluating `[decompose [compose e]]`, which nests one deeper
than `e`, has the same effects as evaluating `e` and comes to the same value, to a fault of the same
category and message, or to no end either. The cells that are made for the text move the identities
of later ones. -/
theorem recomposing_alike {s : Store} {results : List Cell} (h : Reachable s results)
    (hidle : s.isBusy = false) {host : Host} (hpackages : host.packages = []) {tree e : Tree}
    (hread : tree.IsRead) (hpart : e.IsPart tree) (hlist : e.IsList) (hfinite : e.HasFiniteReals)
    (outer inner decompose compose : Location) (scope : ScopeId) {fuel : Nat} (hfuel : 2 ≤ fuel)
    (entries : List Entry) :
    (∀ e' : Tree, e.unplaced = e'.unplaced →
      Option.Rel (EndsAlike .none) (((evaluator host fuel).runTree scope e s).end? entries)
        (((evaluator host fuel).runTree scope e' s).end? entries)) ∧
    Option.Rel (EndsAlike ⟨s.itemRows.size, e.count + 5⟩)
      (((evaluator host fuel).runTree scope e s).end? entries)
      (((evaluator host (fuel + 1)).runTree scope
        (e.recomposing outer inner decompose compose) s).end? entries) := by
  obtain ⟨n, rfl⟩ : ∃ n, fuel = n + 2 := Nat.exists_eq_add_of_le' hfuel
  obtain ⟨w, hst, -⟩ := h.alike
  refine ⟨fun e' he' => endsAlike_runTree hst hpackages _ scope he' entries, ?_⟩
  obtain ⟨other, hother, hparse⟩ :=
    Tree.parse_text hlist (hread.isSpellable_of_isPart hpart hfinite) none
  obtain ⟨t, hextends, hsize, hrun⟩ := runTree_recomposing hidle hparse n
  rw [hrun]
  exact endsAlike_runTree (hst.extended hextends hsize) hpackages _ scope hother.symm entries

/-- Binding a negative zero does the same through its text. -/
theorem recomposing_negativeZero :
    let place : Location := ⟨1, 1, none⟩
    let left := (evaluator ⟨[], [], fun _ => none⟩ 2).runTree Store.root .negativeZero .initial
    let right := (evaluator ⟨[], [], fun _ => none⟩ 3).runTree Store.root
      (Tree.negativeZero.recomposing place place place place) .initial
    parse none "[var x -0.0]" = .ok [.negativeZero] ∧ (left.end? []).isSome = true ∧
      Option.Rel (EndsAlike ⟨Store.initial.itemRows.size, Tree.negativeZero.count + 5⟩)
        (left.end? []) (right.end? []) := by
  have hread : Tree.negativeZero.IsRead :=
    .inl ⟨none, _, _, parse_negativeZero, List.mem_cons_self⟩
  exact ⟨parse_negativeZero, by decide +kernel,
    (recomposing_alike .initial rfl rfl hread (.refl _) ⟨_, _, rfl⟩ hasFiniteReals_negativeZero
      _ _ _ _ _ (Nat.le_refl 2) []).2⟩

end BracketScript
