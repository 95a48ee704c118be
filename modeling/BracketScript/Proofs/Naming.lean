import BracketScript.Proofs.RoundTrip
import BracketScript.Proofs.Scoping
import BracketScript.Proofs.Separation

/-!
# The names that programs bind

Names are bound by many forms, and each of them takes its names from symbols of a program or from
the parameters of a lambda, which were such symbols. A program is read from a text, and what the
scanner finds as a symbol is a word that it finds as the same symbol again; where this word names a
procedure, the program has a keyword in its place. So the scopes of programs bind words only which
mean nothing else. Beside them there are the tables of the methods of handles. Their names are given
by the language, and some of them are names of procedures.

A table is a scope with no scope around it, while the scopes of programs and the members of boxes
are made inside another one, but for the first scope.
-/

namespace BracketScript

open Relation Correspondence

/-! ### Names of programs that were read -/

/-- The name of a symbol that a program can have. -/
abbrev IsSymbolName (name : String) : Prop :=
  (Atom.symbol name).IsSpellable

theorem Tree.IsRead.namedIn {tree : Tree} (h : tree.IsRead) : tree.NamedIn IsSymbolName := by
  intro name location hmark
  obtain ⟨line, text, token, htoken, htokenmark⟩ := h.marks_of_scan hmark
  obtain ⟨leaf, hkind, hleaf, -⟩ := kind_of_mark_eq_atom htokenmark
  rw [IsSymbolName, ← hleaf]
  apply Atom.isSpellable_ofLeaf
  · rintro other rfl
    exact Token.isSymbolWord_of_mem_scanFrom htoken hkind
  · intro value hvalue
    rw [hleaf] at hvalue
    cases hvalue

/-- A line with nothing but such a name is scanned as the symbol with this name. -/
theorem IsSymbolName.scan_eq {name : String} (h : IsSymbolName name) (line : Line) :
    Token.scan line name = ⟨[⟨.leaf (.symbol name), line.locate 1⟩], none⟩ := by
  have hleaf : Token.leafOfWord name.toList = .ok (.symbol name) := by
    rw [Token.leafOfWord_of_begins_eq_false h.1.begins_eq, String.ofList_toList]
  have hend : EndsWord [] := by
    intro c hc
    cases hc
  have hscan := Token.scanFrom_word h.1.ne_nil h.1.isWordChar hleaf hend line 1
  rw [List.append_nil] at hscan
  rw [Token.scan, hscan, Token.scanFrom]
  rfl

theorem isSymbolName_faultName : IsSymbolName Form.faultName := by
  refine ⟨⟨by decide, List.all_eq_true.1 (by decide +kernel), by decide +kernel⟩, by decide +kernel⟩

/-! ### Scopes and tables -/

namespace Store

/-- The scope is the first one, or it was made inside another one. -/
def IsLexical (s : Store) (id : ScopeId) : Prop :=
  id = root ∨ (s.scope id).outer ≠ []

/-- The tables are no lexical scopes, and all names are bindable but those in tables. -/
structure Named (bindable : String → Prop) (tables : ScopeId → Prop) (s : Store) : Prop where
  size_pos : 0 < s.scopes.size
  table_lt : ∀ id, tables id → id.index < s.scopes.size
  not_lexical : ∀ id, tables id → ¬s.IsLexical id
  bound : ∀ id name, ¬tables id → (s.scope id).binds name = true → bindable name

namespace Named

variable {bindable : String → Prop} {tables : ScopeId → Prop} {s t : Store} {id : ScopeId}
  {name : String}

theorem of_scopes_eq (hs : s.Named bindable tables) (h : t.scopes = s.scopes) :
    t.Named bindable tables := by
  have hscope (id : ScopeId) : t.scope id = s.scope id := by rw [scope, scope, h]
  refine ⟨by rw [h]; exact hs.size_pos, fun id hid => by rw [h]; exact hs.table_lt id hid,
    fun id hid => ?_, fun id name hid => ?_⟩
  · rw [IsLexical, hscope]
    exact hs.not_lexical id hid
  · rw [hscope]
    exact hs.bound id name hid

theorem newScope (hs : s.Named bindable tables) (outer : List ScopeId) :
    (s.newScope outer).2.Named bindable tables := by
  refine ⟨?_, fun id hid => ?_, fun id hid => ?_, fun id name hid => ?_⟩
  · simp [Store.newScope]
  · exact Nat.lt_of_lt_of_le (hs.table_lt id hid) (by simp [Store.newScope])
  · rw [IsLexical, scope_newScope, if_neg (Nat.ne_of_lt (hs.table_lt id hid))]
    exact hs.not_lexical id hid
  · rw [scope_newScope]
    split
    · exact fun hbinds => absurd hbinds Bool.false_ne_true
    · exact hs.bound id name hid

/-- A scope with no scope around it becomes a table. -/
theorem newTable (hs : s.Named bindable tables) :
    (s.newScope []).2.Named bindable fun id => tables id ∨ id = (s.newScope []).1 := by
  have hnew := hs.newScope []
  refine ⟨hnew.size_pos, fun id hid => ?_, fun id hid => ?_, fun id name hid => ?_⟩
  · rcases hid with hid | rfl
    · exact hnew.table_lt id hid
    · simp [Store.newScope]
  · rcases hid with hid | rfl
    · exact hnew.not_lexical id hid
    · rintro (hroot | houter)
      · exact Nat.ne_of_gt hs.size_pos (congrArg ScopeId.index hroot)
      · rw [scope_newScope] at houter
        exact houter (congrArg Scope.outer (if_pos rfl))
  · exact hnew.bound id name fun htable => hid (.inl htable)

theorem define (hs : s.Named bindable tables)
    (h : bindable name ∨ tables id ∨ (s.scope id).binds name = true) (c : Cell) :
    (s.define id name c).Named bindable tables := by
  have houter (other : ScopeId) : ((s.define id name c).scope other).outer =
      (s.scope other).outer := by
    rw [scope_define]
    split <;> rfl
  have hsize : (s.define id name c).scopes.size = s.scopes.size := Arena.size_modify _ _ _
  refine ⟨by rw [hsize]; exact hs.size_pos, fun other hother => ?_, fun other hother => ?_,
    fun other key hother => ?_⟩
  · rw [hsize]
    exact hs.table_lt other hother
  · rw [IsLexical, houter]
    exact hs.not_lexical other hother
  · rw [scope_define]
    split
    · next hid =>
      obtain rfl : id = other := congrArg ScopeId.mk hid.1
      rw [Scope.binds, Scope.get?_set]
      split
      · next hkey =>
        intro _
        rcases h with hname | htable | hbinds
        · exact hkey ▸ hname
        · exact absurd htable hother
        · exact hkey ▸ hs.bound id name hother hbinds
      · exact hs.bound id key hother
    · exact hs.bound other key hother

end Named

end Store

/-! ### The invariant -/

/-- The invariant together with this: all names are bindable but those in tables. -/
def Invariant.naming (I : Invariant) : Invariant where
  World := I.World × (ScopeId → Prop)
  preorder := inferInstance
  stores w s := I.stores w.1 s ∧ s.Named I.diagonal.Bindable w.2
  values w := I.values w.1
  codes w := I.codes w.1
  isOpen w := I.isOpen w.1
  isTable w id := I.isTable w.1 id ∧ w.2 id
  names := I.names
  places := I.places
  sources := I.sources
  entries := I.entries
  apart := I.apart
  turns := I.turns

theorem Invariant.marks_of_naming {I : Invariant} {w : I.naming.World}
    {place place' : Option Location} (h : I.naming.diagonal.Marks w place place') :
    I.diagonal.Marks w.1 place place' := by
  cases h with
  | none => exact .none
  | copied hc => exact .copied hc

theorem Invariant.Lawful.naming {I : Invariant} (hI : I.Lawful) : I.naming.Lawful where
  values_mono hle hc := hI.values_mono hle.1 hc
  codes_mono hle hc := hI.codes_mono hle.1 hc
  isOpen_mono hle h := hI.isOpen_mono hle.1 h
  isTable_mono hle h := ⟨hI.isTable_mono hle.1 h.1, hle.2 _ h.2⟩
  values_value hc := hI.values_value hc
  codes_value hc := hI.codes_value hc
  codes_place hc := hI.codes_place hc
  literal hc hlist hdata := hI.literal hc hlist hdata
  names_faultName := hI.names_faultName
  places_orElse := hI.places_orElse
  builtIn k hs := hI.builtIn k hs.1
  newCell {w _ _ _} hs hplace hv hlist := by
    obtain ⟨w', hle, hs', hc⟩ := hI.newCell hs.1 (marks_of_naming hplace) hv hlist
    exact ⟨(w', w.2), ⟨hle, le_rfl⟩, ⟨hs', hs.2.of_scopes_eq rfl⟩, hc⟩
  newList {w _ _} hs hcells := by
    obtain ⟨w', hle, hs', hc⟩ := hI.newList hs.1 hcells
    exact ⟨(w', w.2), ⟨hle, le_rfl⟩, ⟨hs', hs.2.of_scopes_eq rfl⟩, hc⟩
  load {w s _ _ _ tree} hs hsource hparse htree := by
    obtain ⟨w', hle, hs', hc⟩ := hI.load hs.1 hsource hparse htree
    exact ⟨(w', w.2), ⟨hle, le_rfl⟩, ⟨hs', hs.2.of_scopes_eq (scopes_load s tree)⟩, hc⟩
  valueItems hs hc hlist := hI.valueItems hs.1 hc hlist
  codeItems hs hc hlist := hI.codeItems hs.1 hc hlist
  setItems hs hc hlist hcells hapart :=
    ⟨hI.setItems hs.1 hc hlist hcells hapart, hs.2.of_scopes_eq rfl⟩
  apart_of_reaches hs hc hitem hreaches := hI.apart_of_reaches hs.1 hc hitem hreaches
  apart_newCell v place hs hc hitem hapart := hI.apart_newCell v place hs.1 hc hitem hapart
  apart_new place hs hc hlist := hI.apart_new place hs.1 hc hlist
  apart_setUsed := hI.apart_setUsed
  apart_of_turns := hI.apart_of_turns
  get? hs hc := hI.get? hs.1 hc
  childScope {w _} parent hs := by
    obtain ⟨w', hle, hs', hopen⟩ := hI.childScope parent hs.1
    exact ⟨(w', w.2), ⟨hle, le_rfl⟩, ⟨hs', hs.2.newScope _⟩, hopen⟩
  newTable {w s} hs := by
    obtain ⟨w', hle, hs', htable⟩ := hI.newTable hs.1
    exact ⟨(w', fun id => w.2 id ∨ id = (s.newScope []).1), ⟨hle, fun _ => .inl⟩,
      ⟨hs', hs.2.newTable⟩, htable, .inr rfl⟩
  define hs hc h :=
    ⟨hI.define hs.1 hc (h.imp_right And.left),
      hs.2.define (h.imp And.right fun htable => .inl htable.2) _⟩
  redefine hs hc hbinds := ⟨hI.redefine hs.1 hc hbinds, hs.2.define (.inr (.inr hbinds)) _⟩
  queue hs hc := hI.queue hs.1 hc
  setQueue id hs hq := ⟨hI.setQueue id hs.1 hq, hs.2.of_scopes_eq rfl⟩
  newChannel hs := ⟨hI.newChannel hs.1, hs.2.of_scopes_eq rfl⟩
  reference hs hc := hI.reference hs.1 hc
  writeReference id hs hc := ⟨hI.writeReference id hs.1 hc, hs.2.of_scopes_eq rfl⟩
  newReference hs hinitial := ⟨hI.newReference hs.1 hinitial, hs.2.of_scopes_eq rfl⟩
  result hs hc := hI.result hs.1 hc
  release id hs := ⟨hI.release id hs.1, hs.2.of_scopes_eq rfl⟩
  endTask id hs hc := ⟨hI.endTask id hs.1 hc, hs.2.of_scopes_eq rfl⟩
  newTask hs hbody hscope := ⟨hI.newTask hs.1 hbody hscope, hs.2.of_scopes_eq rfl⟩
  launch hs hlaunch := hI.launch hs.1 hlaunch
  clearLaunches hs := ⟨hI.clearLaunches hs.1, hs.2.of_scopes_eq rfl⟩
  setOutput output hs := ⟨hI.setOutput output hs.1, hs.2.of_scopes_eq rfl⟩
  setUsed used hs := ⟨hI.setUsed used hs.1, hs.2.of_scopes_eq rfl⟩

/-- The invariant that programs and values are apart and that names are those of symbols. -/
def symbolNaming : Invariant :=
  (placedSeparation (fun _ => True) IsSymbolName (fun _ _ => True) fun _ _ => True).naming

theorem isGeneral_symbolNaming : symbolNaming.IsGeneral Tree.IsRead where
  lawful := (lawful_placedSeparation
    (fun _ _ _ _ hparse tree htree =>
      ⟨tree.placedIn_true, Tree.IsRead.namedIn (.inl ⟨_, _, _, hparse, htree⟩)⟩)
    isSymbolName_faultName).naming
  entries _ _ := trivial
  sources _ _ := trivial
  isOpen _ _ := trivial
  turns := trivial
  load {w s tree} hread hs := by
    obtain ⟨w', hle, hs', hcode⟩ := Ledger.Agrees.load hs.1 tree.placedIn_true hread.namedIn
    exact ⟨(w', w.2), ⟨hle, le_rfl⟩, ⟨hs', hs.2.of_scopes_eq (scopes_load s tree)⟩, hcode⟩

theorem Store.named_initial (bindable : String → Prop) :
    Store.initial.Named bindable fun _ => False := by
  refine ⟨by decide, nofun, nofun, fun id name _ hbinds => ?_⟩
  rw [scope, initial, Arena.get_push] at hbinds
  split at hbinds <;> cases hbinds

/-- Names are well formed. Where all programs were read from texts and there are no packages, the
scopes of programs and the members of boxes bind names only that are scanned as one symbol with this
name, that have no dot and that are names of no procedure. This is so at any moment of any
evaluation, and whatever texts are imported and decomposed. -/
theorem bound_names_are_symbols {host : Host} (hpackages : host.packages = []) {fuel : Nat}
    {κ : Configuration} (h : κ.Reaches (evaluator host fuel))
    (hread : ∀ p ∈ κ.programs, p.1.IsRead) {id : ScopeId} (hid : κ.store.IsLexical id)
    {name : String} (hbinds : (κ.store.scope id).binds name = true) :
    (∀ line, Token.scan line name = ⟨[⟨.leaf (.symbol name), line.locate 1⟩], none⟩) ∧
      '.' ∉ name.toList ∧ ∀ k : Keyword, k.name ≠ name := by
  have hinitial : symbolNaming.Covers (⟨Keyword.all.length, fun _ => none⟩, fun _ => False)
      .initial :=
    ⟨⟨Ledger.agrees_initial _ _, Store.named_initial _⟩, nofun, nofun, nofun⟩
  obtain ⟨w, -, hκ⟩ := hinitial.later isGeneral_symbolNaming hpackages h hread
  obtain ⟨hname, hdotted⟩ := hκ.store.2.bound id name
    (fun htable => hκ.store.2.not_lexical id htable hid) hbinds
  refine ⟨IsSymbolName.scan_eq hname, ?_, fun k hk => ?_⟩
  · simpa [Name.isDotted] using hdotted
  · have hnone : Keyword.ofName? name = none := hname.2
    rw [← hk, Keyword.ofName?_name] at hnone
    cases hnone

/-- The name that `[var x -0.0]` binds is scanned as the symbol that it came from. -/
theorem bound_names_are_symbols_variable :
    ∃ κ : Configuration, κ.Reaches (evaluator ⟨[], [], fun _ => none⟩ 2) ∧
      κ.programs.map Prod.fst = [.negativeZero] ∧ (∀ p ∈ κ.programs, p.1.IsRead) ∧
      (κ.store.scope Store.root).binds "x" = true ∧
      ∀ line, Token.scan line "x" = ⟨[⟨.leaf (.symbol "x"), line.locate 1⟩], none⟩ := by
  have hrun : (((evaluator ⟨[], [], fun _ => none⟩ 2).runTree Store.root .negativeZero
      .initial).end? []).map (fun p => (p.1.isOk, (p.2.scope Store.root).binds "x")) =
        some (true, true) := by
    decide +kernel
  obtain ⟨⟨outcome, t⟩, hend, hvalues⟩ := Option.map_eq_some_iff.1 hrun
  obtain ⟨hok, hbinds⟩ := Prod.mk.inj hvalues
  cases outcome with
  | error reason => cases hok
  | ok c =>
    have hreaches := Configuration.Reaches.value (κ := .initial) .refl .negativeZero Store.root hend
    have hread : ∀ p ∈ [(Tree.negativeZero, (Store.initial.load .negativeZero).1)], p.1.IsRead := by
      intro p hp
      rw [List.mem_singleton.1 hp]
      exact .inl ⟨none, _, _, parse_negativeZero, List.mem_cons_self⟩
    exact ⟨_, hreaches, rfl, hread, hbinds,
      (bound_names_are_symbols rfl hreaches hread (.inl rfl) hbinds).1⟩

end BracketScript
