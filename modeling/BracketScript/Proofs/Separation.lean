import BracketScript.Proofs.Configurations
import BracketScript.Proofs.Grammar
import BracketScript.Proofs.Loading

/-!
# Programs and values are apart

What programs compute and bind, store, send and print are values: numbers, strings, lambdas, boxes,
handles, procedures, and lists of these that were made by evaluation. The lists of a program are
never among them, so that no evaluation changes a program.

A ledger keeps the items of all lists of programs. It only grows, and each store agrees with it.
Every cell of a program has a place, and the symbols of programs have names. Both are of a kind that
can be chosen.
-/

namespace BracketScript

open Relation Correspondence

namespace Tree

mutual

def PlacedIn (good : Location → Prop) : Tree → Prop
  | .atom _ location => good location
  | .list items location => good location ∧ AllPlacedIn good items

def AllPlacedIn (good : Location → Prop) : List Tree → Prop
  | [] => True
  | tree :: trees => tree.PlacedIn good ∧ AllPlacedIn good trees

end

mutual

theorem placedIn_true (tree : Tree) : tree.PlacedIn fun _ => True := by
  match tree with
  | .atom _ _ => trivial
  | .list items _ => exact ⟨trivial, allPlacedIn_true items⟩

theorem allPlacedIn_true (trees : List Tree) : AllPlacedIn (fun _ => True) trees := by
  match trees with
  | [] => trivial
  | tree :: trees => exact ⟨placedIn_true tree, allPlacedIn_true trees⟩

end

def NamedIn (names : String → Prop) (tree : Tree) : Prop :=
  ∀ name location, .atom (.symbol name) location ∈ tree.marks → names name

end Tree

/-- How many cells there are, and the items of those that are lists of programs. The places of
programs are good, and their symbols have the `names`. -/
structure Ledger (good : Location → Prop) (names : String → Prop) where
  size : Nat
  lists : CellId → Option (List Cell)

namespace Ledger

variable {good : Location → Prop} {names : String → Prop}

/-- A ledger goes on with more cells and keeps the items of the lists of programs. -/
instance : Preorder (Ledger good names) where
  le w w' := w.size ≤ w'.size ∧ ∀ id : CellId, id.index < w.size → w'.lists id = w.lists id
  le_refl w := ⟨Nat.le_refl _, fun _ _ => rfl⟩
  le_trans _ _ _ h h' := ⟨h.1.trans h'.1, fun id hid =>
    (h'.2 id (Nat.lt_of_lt_of_le hid h.1)).trans (h.2 id hid)⟩

/-- The ledger with one more cell, the items of which are given if it is a list of a program. -/
def add (w : Ledger good names) (items : Option (List Cell)) : Ledger good names :=
  ⟨w.size + 1, Function.update w.lists ⟨w.size⟩ items⟩

theorem add_lists_of_lt (w : Ledger good names) (items : Option (List Cell)) {id : CellId}
    (h : id.index < w.size) : (w.add items).lists id = w.lists id :=
  Function.update_of_ne (fun heq => absurd (congrArg CellId.index heq) (Nat.ne_of_lt h)) _ _

theorem add_lists_self (w : Ledger good names) (items : Option (List Cell)) :
    (w.add items).lists ⟨w.size⟩ = items :=
  Function.update_self _ _ _

theorem le_add (w : Ledger good names) (items : Option (List Cell)) : w ≤ w.add items :=
  ⟨Nat.le_succ _, fun _ => w.add_lists_of_lt items⟩

/-- A cell of a program. -/
structure Code (w : Ledger good names) (c : Cell) : Prop where
  id_lt : c.id.index < w.size
  place : ∃ location, c.location = some location ∧ good location
  value : CodeValues names c.value c.value
  lists_ne : c.value = .list → w.lists c.id ≠ none

/-- A value that a program computes. -/
structure Data (w : Ledger good names) (c : Cell) : Prop where
  id_lt : c.id.index < w.size
  value : DataValues (fun name => names name ∧ Name.isDotted name = false)
    (fun c d => c = d ∧ w.Code c) c.value c.value
  location_eq : c.value = .list → c.location = none
  lists_eq : c.value = .list → w.lists c.id = none

variable {w w' : Ledger good names} {c d : Cell} {s t : Store}

theorem Code.location_ne (hc : w.Code c) : c.location ≠ none := by
  obtain ⟨location, hlocation, -⟩ := hc.place
  rw [hlocation]
  exact nofun

theorem Code.mono (h : w ≤ w') (hc : w.Code c) : w'.Code c where
  id_lt := Nat.lt_of_lt_of_le hc.id_lt h.1
  place := hc.place
  value := hc.value
  lists_ne hlist := by
    rw [h.2 _ hc.id_lt]
    exact hc.lists_ne hlist

theorem Data.mono (h : w ≤ w') (hc : w.Data c) : w'.Data c where
  id_lt := Nat.lt_of_lt_of_le hc.id_lt h.1
  value := hc.value.imp_codes fun _ _ hbody => ⟨hbody.1, hbody.2.mono h⟩
  location_eq := hc.location_eq
  lists_eq hlist := (h.2 _ hc.id_lt).trans (hc.lists_eq hlist)

theorem Code.literal (hc : w.Code c) (hlist : c.value ≠ .list)
    (hdata : DataValues (fun name => names name ∧ Name.isDotted name = false)
      (fun c d => c = d ∧ w.Code c) c.value c.value) : w.Data c :=
  ⟨hc.id_lt, hdata, fun h => absurd h hlist, fun h => absurd h hlist⟩

/-- The store agrees with the ledger: programs are as they were loaded, and everything else holds
values. -/
structure Agrees (w : Ledger good names) (s : Store) : Prop where
  size_eq : s.itemRows.size = w.size
  builtIn_le : Keyword.all.length ≤ w.size
  program : ∀ (id : CellId) cells, id.index < w.size → w.lists id = some cells →
    s.items id = cells ∧ ∀ c ∈ cells, w.Code c
  computed : ∀ id : CellId, id.index < w.size → w.lists id = none → ∀ c ∈ s.items id, w.Data c
  bound : ∀ id name c, (s.scope id).get? name = some c → w.Data c
  queued : ∀ id, ∀ c ∈ (s.queue id).toList, w.Data c
  referenced : ∀ id c, s.reference id = some c → w.Data c
  completed : ∀ id c, (s.task id).result = some c → w.Data c
  launched : ∀ launch ∈ s.launches, w.Code launch.body

/-! ### Cells -/

namespace Agrees

/-- One more cell, with the items of a list of a program or with values. -/
theorem newCell (h : w.Agrees s) (v : Value) (place : Option Location) {row : Array Cell}
    {items : Option (List Cell)}
    (hrow : items = some row.toList ∧ (∀ c ∈ row.toList, w.Code c) ∨
      items = none ∧ ∀ c ∈ row.toList, w.Data c) :
    (w.add items).Agrees (s.newCell v place row).2 := by
  have hle := w.le_add items
  have hnew : ∀ id : CellId, id.index < w.size + 1 → ¬id.index < w.size → id = ⟨w.size⟩ := by
    intro id hid hnot
    exact congrArg CellId.mk (Nat.le_antisymm (Nat.le_of_lt_succ hid) (Nat.not_lt.1 hnot))
  have hold : ∀ id : CellId, id.index < w.size →
      (s.newCell v place row).2.items id = s.items id := by
    intro id hid
    rw [Store.items_newCell, if_neg (Nat.ne_of_lt (h.size_eq ▸ hid))]
  have hself : (s.newCell v place row).2.items ⟨w.size⟩ = row.toList := by
    rw [Store.items_newCell, if_pos h.size_eq.symm]
  refine ⟨?_, Nat.le_succ_of_le h.builtIn_le, fun id cells hid hcells => ?_,
    fun id hid hlists => ?_,
    fun id name c hc => (h.bound id name c hc).mono hle, fun id c hc => (h.queued id c hc).mono hle,
    fun id c hc => (h.referenced id c hc).mono hle, fun id c hc => (h.completed id c hc).mono hle,
    fun launch hlaunch => (h.launched launch hlaunch).mono hle⟩
  · rw [Store.size_newCell, h.size_eq]
    rfl
  · by_cases hlt : id.index < w.size
    · rw [w.add_lists_of_lt items hlt] at hcells
      obtain ⟨heq, hcode⟩ := h.program id cells hlt hcells
      exact ⟨(hold id hlt).trans heq, fun c hc => (hcode c hc).mono hle⟩
    · obtain rfl := hnew id hid hlt
      rw [w.add_lists_self] at hcells
      rcases hrow with ⟨hitems, hcode⟩ | ⟨hitems, -⟩
      · obtain rfl := Option.some.inj (hitems.symm.trans hcells)
        exact ⟨hself, fun c hc => (hcode c hc).mono hle⟩
      · rw [hitems] at hcells
        cases hcells
  · by_cases hlt : id.index < w.size
    · rw [w.add_lists_of_lt items hlt] at hlists
      rw [hold id hlt]
      exact fun c hc => (h.computed id hlt hlists c hc).mono hle
    · obtain rfl := hnew id hid hlt
      rw [w.add_lists_self] at hlists
      rw [hself]
      rcases hrow with ⟨hitems, -⟩ | ⟨-, hdata⟩
      · rw [hitems] at hlists
        cases hlists
      · exact fun c hc => (hdata c hc).mono hle

theorem id_newCell (h : w.Agrees s) (v : Value) (place : Option Location) (row : Array Cell) :
    (s.newCell v place row).1.id = ⟨w.size⟩ :=
  congrArg CellId.mk h.size_eq

theorem newLeaf (h : w.Agrees s) {v : Value} (place : Option Location)
    (hv : DataValues (fun name => names name ∧ Name.isDotted name = false)
      (fun c d => c = d ∧ w.Code c) v v) (hlist : v ≠ .list) :
    ∃ w', w ≤ w' ∧ w'.Agrees (s.newCell v place #[]).2 ∧ w'.Data (s.newCell v place #[]).1 := by
  have hle := w.le_add none
  refine ⟨w.add none, hle, h.newCell v place (.inr ⟨rfl, by simp⟩), ?_, ?_,
    fun heq => absurd heq hlist, fun heq => absurd heq hlist⟩
  · rw [h.id_newCell]
    exact Nat.lt_succ_self _
  · exact hv.imp_codes fun _ _ hbody => ⟨hbody.1, hbody.2.mono hle⟩

theorem newList (h : w.Agrees s) {cells : List Cell} (hcells : ∀ c ∈ cells, w.Data c) :
    ∃ w', w ≤ w' ∧ w'.Agrees (s.newCell .list none cells.toArray).2 ∧
      w'.Data (s.newCell .list none cells.toArray).1 := by
  refine ⟨w.add none, w.le_add none, h.newCell _ _ (.inr ⟨rfl, hcells⟩), ?_, .list,
    fun _ => rfl, fun _ => ?_⟩
  · rw [h.id_newCell]
    exact Nat.lt_succ_self _
  · rw [h.id_newCell]
    exact w.add_lists_self none

theorem newAtom (h : w.Agrees s) {a : Atom} {location : Location} (hgood : good location)
    (hnamed : (Tree.atom a location).NamedIn names) :
    ∃ w', w ≤ w' ∧ w'.Agrees (s.newCell a.value (some location) #[]).2 ∧
      w'.Code (s.newCell a.value (some location) #[]).1 := by
  have hvalue : CodeValues names a.value a.value ∧ a.value ≠ .list := by
    cases a with
    | symbol name => exact ⟨.symbol (hnamed name location List.mem_cons_self), nofun⟩
    | keyword k => exact ⟨.keyword k, nofun⟩
    | string text => exact ⟨.string text, nofun⟩
    | integer value => exact ⟨.integer value, nofun⟩
    | real value => exact ⟨.real value, nofun⟩
  refine ⟨w.add none, w.le_add none, h.newCell _ _ (.inr ⟨rfl, by simp⟩), ?_,
    ⟨location, rfl, hgood⟩, hvalue.1, fun heq => absurd heq hvalue.2⟩
  rw [h.id_newCell]
  exact Nat.lt_succ_self _

theorem newProgramList (h : w.Agrees s) {location : Location} (hgood : good location)
    {cells : List Cell} (hcells : ∀ c ∈ cells, w.Code c) :
    ∃ w', w ≤ w' ∧ w'.Agrees (s.newCell .list (some location) cells.toArray).2 ∧
      w'.Code (s.newCell .list (some location) cells.toArray).1 := by
  refine ⟨w.add (some cells), w.le_add _, h.newCell _ _ (.inl ⟨rfl, hcells⟩), ?_,
    ⟨location, rfl, hgood⟩, .list, fun _ => ?_⟩
  · rw [h.id_newCell]
    exact Nat.lt_succ_self _
  · rw [h.id_newCell, w.add_lists_self]
    exact nofun

end Agrees

mutual

/-- Loading a tree makes cells of a program. -/
theorem Agrees.load {w : Ledger good names} {s : Store} (h : w.Agrees s) {tree : Tree}
    (hplaced : tree.PlacedIn good) (hnamed : tree.NamedIn names) :
    ∃ w', w ≤ w' ∧ w'.Agrees (s.load tree).2 ∧ w'.Code (s.load tree).1 := by
  match tree with
  | .atom a location => exact h.newAtom hplaced hnamed
  | .list items location =>
    obtain ⟨w₁, hle₁, h₁, hcells⟩ := h.loadAll hplaced.2 fun name place hmark =>
      hnamed name place (by simp [Tree.marks_list, hmark])
    obtain ⟨w₂, hle₂, h₂, hcode⟩ := h₁.newProgramList hplaced.1 hcells
    exact ⟨w₂, hle₁.trans hle₂, h₂, hcode⟩

theorem Agrees.loadAll {w : Ledger good names} {s : Store} (h : w.Agrees s) {trees : List Tree}
    (hplaced : Tree.AllPlacedIn good trees)
    (hnamed : ∀ name location, .atom (.symbol name) location ∈ Tree.marksAll trees → names name) :
    ∃ w', w ≤ w' ∧ w'.Agrees (s.loadAll trees).2 ∧ ∀ c ∈ (s.loadAll trees).1, w'.Code c := by
  match trees with
  | [] => exact ⟨w, le_rfl, h, nofun⟩
  | tree :: trees =>
    obtain ⟨w₁, hle₁, h₁, hcode⟩ := h.load hplaced.1 fun name place hmark =>
      hnamed name place (by simp [Tree.marksAll_cons, hmark])
    obtain ⟨w₂, hle₂, h₂, hcodes⟩ := h₁.loadAll hplaced.2 fun name place hmark =>
      hnamed name place (by simp [Tree.marksAll_cons, hmark])
    exact ⟨w₂, hle₁.trans hle₂, h₂, List.forall_mem_cons.2 ⟨hcode.mono hle₂, hcodes⟩⟩

end

namespace Agrees

theorem codeItems (h : w.Agrees s) (hc : w.Code c) (hlist : c.value = .list) :
    ∀ item ∈ s.items c.id, w.Code item := by
  obtain ⟨cells, hcells⟩ := Option.ne_none_iff_exists'.1 (hc.lists_ne hlist)
  obtain ⟨heq, hcode⟩ := h.program c.id cells hc.id_lt hcells
  rw [heq]
  exact hcode

theorem dataItems (h : w.Agrees s) (hc : w.Data c) (hlist : c.value = .list) :
    ∀ item ∈ s.items c.id, w.Data item :=
  h.computed c.id hc.id_lt (hc.lists_eq hlist)

/-- Only lists that were computed are changed. -/
theorem setItems (h : w.Agrees s) (hc : w.Data c) (hlist : c.value = .list) {cells : List Cell}
    (hcells : ∀ item ∈ cells, w.Data item) :
    w.Agrees (s.modifyRow c.id fun _ => cells.toArray) := by
  have hitems : ∀ id, (s.modifyRow c.id fun _ => cells.toArray).items id =
      if c.id.index = id.index ∧ id.index < s.itemRows.size then cells else s.items id :=
    fun id => s.items_modifyRow c.id id (g := fun _ => cells) fun _ => rfl
  have hsame : ∀ id : CellId, c.id.index = id.index → w.lists id = none := by
    intro id hid
    rw [← hc.lists_eq hlist, show c.id = id from congrArg CellId.mk hid]
  refine { h with
    size_eq := (Arena.size_modify _ _ _).trans h.size_eq
    program := fun id items hid hlists => ?_
    computed := fun id hid hlists => ?_ }
  · rw [hitems, if_neg fun hand => ?_]
    · exact h.program id items hid hlists
    · rw [hsame id hand.1] at hlists
      cases hlists
  · rw [hitems]
    split
    · exact hcells
    · exact h.computed id hid hlists

/-! ### Scopes, channels, references and tasks -/

theorem define (h : w.Agrees s) (hc : w.Data c) (id : ScopeId) (name : String) :
    w.Agrees (s.define id name c) := by
  refine { h with bound := fun other key d hd => ?_ }
  rw [Store.scope_define] at hd
  split at hd
  · rw [Scope.get?_set] at hd
    split at hd
    · exact Option.some.inj hd ▸ hc
    · exact h.bound other key d hd
  · exact h.bound other key d hd

theorem newScope (h : w.Agrees s) (outer : List ScopeId) : w.Agrees (s.newScope outer).2 := by
  refine { h with bound := fun other key d hd => ?_ }
  rw [Store.scope_newScope] at hd
  split at hd
  · cases hd
  · exact h.bound other key d hd

theorem setQueue (h : w.Agrees s) {q : Queue Cell} (hq : ∀ c ∈ q.toList, w.Data c)
    (id : ChannelId) : w.Agrees (s.setQueue id q) := by
  refine { h with queued := fun other d hd => ?_ }
  rw [Store.queue, Store.setQueue, Arena.get_modify] at hd
  split at hd
  · exact hq d hd
  · exact h.queued other d hd

theorem newChannel (h : w.Agrees s) : w.Agrees s.newChannel.2 := by
  refine { h with queued := fun other d hd => ?_ }
  rw [Store.queue, Store.newChannel, Arena.get_push] at hd
  split at hd
  · cases hd
  · exact h.queued other d hd

theorem writeReference (h : w.Agrees s) (hc : w.Data c) (id : RefId) :
    w.Agrees (s.writeReference id c) := by
  refine { h with referenced := fun other d hd => ?_ }
  rw [Store.reference, Store.writeReference, Arena.get_modify] at hd
  split at hd
  · exact Option.some.inj hd ▸ hc
  · exact h.referenced other d hd

theorem newReference (h : w.Agrees s) {initial : Option Cell}
    (hinitial : ∀ c, initial = some c → w.Data c) : w.Agrees (s.newReference initial).2 := by
  refine { h with referenced := fun other d hd => ?_ }
  rw [Store.reference, Store.newReference, Arena.get_push] at hd
  split at hd
  · exact hinitial d hd
  · exact h.referenced other d hd

theorem modifyTask (h : w.Agrees s) {f : Task → Task}
    (hf : ∀ task c, (f task).result = some c → task.result = some c ∨ w.Data c) (id : TaskId) :
    w.Agrees (s.modifyTask id f) := by
  refine { h with completed := fun other d hd => ?_ }
  rw [Store.task, Store.modifyTask, Arena.get_modify] at hd
  split at hd
  · rcases hf _ d hd with hold | hnew
    · exact h.completed other d hold
    · exact hnew
  · exact h.completed other d hd

theorem newTask (h : w.Agrees s) {body : Cell} (hbody : w.Code body) (scope : ScopeId) :
    w.Agrees (s.newTask body scope).2 := by
  refine { h with completed := fun other d hd => ?_, launched := fun launch hlaunch => ?_ }
  · rw [Store.task, Store.newTask, Arena.get_push] at hd
    split at hd
    · cases hd
    · exact h.completed other d hd
  · rcases List.mem_append.1 hlaunch with hold | hnew
    · exact h.launched launch hold
    · rw [List.mem_singleton.1 hnew]
      exact hbody

end Agrees

end Ledger

/-- The invariant that programs and values are apart, programs stand at good places and symbols have
the given names. -/
def placedSeparation (good : Location → Prop) (names : String → Prop)
    (sources : Option String → String → Prop) (entries : String → Entry → Prop) : Invariant where
  World := Ledger good names
  preorder := inferInstance
  stores := Ledger.Agrees
  values := Ledger.Data
  codes := Ledger.Code
  isOpen _ _ := True
  isTable _ _ := True
  names := names
  places place := ∃ location, place = some location ∧ good location
  sources := sources
  entries := entries
  apart _ _ _ := True
  turns := True

def separation : Invariant :=
  placedSeparation (fun _ => True) (fun _ => True) (fun _ _ => True) fun _ _ => True

/-- Evaluation keeps programs and values apart, and programs at good places, if all texts have good
places and names only. -/
theorem lawful_placedSeparation {good : Location → Prop} {names : String → Prop}
    {sources : Option String → String → Prop} {entries : String → Entry → Prop}
    (htrees : ∀ origin text trees, sources origin text → parse origin text = .ok trees →
      ∀ tree ∈ trees, tree.PlacedIn good ∧ tree.NamedIn names)
    (hname : names Form.faultName) : (placedSeparation good names sources entries).Lawful where
  values_mono hle hc := Ledger.Data.mono hle hc
  codes_mono hle hc := Ledger.Code.mono hle hc
  isOpen_mono _ _ := trivial
  isTable_mono _ _ := trivial
  values_value hc := Ledger.Data.value hc
  codes_value hc := Ledger.Code.value hc
  codes_place hc := Ledger.Code.place hc
  literal hc hlist hdata := Ledger.Code.literal hc hlist hdata
  names_faultName := hname
  places_orElse := by
    rintro _ other ⟨location, rfl, hgood⟩ -
    exact ⟨location, rfl, hgood⟩
  builtIn k hs :=
    ⟨Nat.lt_of_lt_of_le k.index_lt (Ledger.Agrees.builtIn_le hs), .procedure _, nofun, nofun⟩
  newCell hs _ hv hlist := Ledger.Agrees.newLeaf hs _ hv hlist
  newList hs hcells := Ledger.Agrees.newList hs hcells
  load hs hsource hparse htree :=
    have htree := htrees _ _ _ hsource hparse _ htree
    Ledger.Agrees.load hs htree.1 htree.2
  valueItems hs hc hlist := Ledger.Agrees.dataItems hs hc hlist
  codeItems hs hc hlist := Ledger.Agrees.codeItems hs hc hlist
  setItems hs hc hlist hcells _ := Ledger.Agrees.setItems hs hc hlist hcells
  apart_of_reaches _ _ _ _ := trivial
  apart_newCell _ _ _ _ _ _ := trivial
  apart_new _ _ _ _ := trivial
  apart_setUsed _ _ := trivial
  apart_of_turns _ := trivial
  get? hs hc := Ledger.Agrees.bound hs _ _ _ hc
  childScope _ hs := ⟨_, le_rfl, Ledger.Agrees.newScope hs _, trivial⟩
  newTable hs := ⟨_, le_rfl, Ledger.Agrees.newScope hs _, trivial⟩
  define hs hc _ := Ledger.Agrees.define hs hc _ _
  redefine hs hc _ := Ledger.Agrees.define hs hc _ _
  queue hs hc := Ledger.Agrees.queued hs _ _ hc
  setQueue id hs hq := Ledger.Agrees.setQueue hs hq id
  newChannel hs := Ledger.Agrees.newChannel hs
  reference hs hc := Ledger.Agrees.referenced hs _ _ hc
  writeReference id hs hc := Ledger.Agrees.writeReference hs hc id
  newReference hs hinitial := Ledger.Agrees.newReference hs hinitial
  result hs hc := Ledger.Agrees.completed hs _ _ hc
  release id hs :=
    Ledger.Agrees.modifyTask hs (f := fun task => { task with joinable := false })
      (fun _ _ h => .inl h) id
  endTask id hs hc := by
    have hended := Ledger.Agrees.modifyTask hs (f := fun task => { task with result := some _ })
      (fun _ _ h => .inr (Option.some.inj h ▸ hc)) id
    exact { hended with }
  newTask hs hbody _ := Ledger.Agrees.newTask hs hbody _
  launch hs hlaunch := ⟨Ledger.Agrees.launched hs _ hlaunch, trivial⟩
  clearLaunches hs := { hs with launched := nofun }
  setOutput _ hs := { hs with }
  setUsed _ hs := { hs with }

/-- Evaluation keeps programs and values apart. -/
theorem lawful_separation : separation.Lawful :=
  lawful_placedSeparation
    (fun _ _ _ _ _ tree _ => ⟨tree.placedIn_true, fun _ _ _ => trivial⟩) trivial

/-- Any program may be loaded, and evaluated anywhere. -/
theorem isGeneral_separation : separation.IsGeneral fun _ => True where
  lawful := lawful_separation
  entries _ _ := trivial
  sources _ _ := trivial
  isOpen _ _ := trivial
  turns := trivial
  load {_ _ tree} _ hs := Ledger.Agrees.load hs tree.placedIn_true fun _ _ _ => trivial

theorem Ledger.agrees_initial (good : Location → Prop) (names : String → Prop) :
    Ledger.Agrees (⟨Keyword.all.length, fun _ => none⟩ : Ledger good names) .initial where
  size_eq := by simp [Store.initial, Arena.size]
  builtIn_le := Nat.le_refl _
  program _ _ _ hcells := by cases hcells
  computed id _ _ := by
    rw [Store.items, Store.row, rows_initial]
    exact fun _ hc => absurd hc List.not_mem_nil
  bound id name c hc := by
    rw [Store.scope, Store.initial, Arena.get_push] at hc
    split at hc <;> cases hc
  queued _ _ hc := absurd hc List.not_mem_nil
  referenced _ _ hc := by cases hc
  completed _ _ hc := by cases hc
  launched _ hlaunch := absurd hlaunch List.not_mem_nil

/-! ### Programs stay as they are -/

namespace Ledger

variable {good : Location → Prop} {names : String → Prop} {w w' : Ledger good names} {s t : Store}
  {c : Cell}

theorem items_eq (hle : w ≤ w') (hs : w.Agrees s) (ht : w'.Agrees t) (hc : w.Code c)
    (hlist : c.value = .list) : t.items c.id = s.items c.id := by
  obtain ⟨cells, hcells⟩ := Option.ne_none_iff_exists'.1 (hc.lists_ne hlist)
  have hcells' : w'.lists c.id = some cells := (hle.2 c.id hc.id_lt).trans hcells
  rw [(hs.program c.id cells hc.id_lt hcells).1,
    (ht.program c.id cells (Nat.lt_of_lt_of_le hc.id_lt hle.1) hcells').1]

mutual

theorem holds_of_agrees (hle : w ≤ w') (hs : w.Agrees s) (ht : w'.Agrees t) {tree : Tree} {c : Cell}
    (hc : w.Code c) (hholds : s.Holds tree c) : t.Holds tree c := by
  match tree with
  | .atom a location => exact hholds
  | .list items location =>
    obtain ⟨hlist, -, hitems⟩ := hholds
    refine ⟨hlist, ht.size_eq ▸ Nat.lt_of_lt_of_le hc.id_lt hle.1, ?_⟩
    rw [items_eq hle hs ht hc hlist]
    exact holdsAll_of_agrees hle hs ht (hs.codeItems hc hlist) hitems

theorem holdsAll_of_agrees (hle : w ≤ w') (hs : w.Agrees s) (ht : w'.Agrees t) {trees : List Tree}
    {cells : List Cell} (hcells : ∀ c ∈ cells, w.Code c) (hholds : s.HoldsAll trees cells) :
    t.HoldsAll trees cells := by
  match trees, cells with
  | [], [] => trivial
  | tree :: trees, c :: cells =>
    obtain ⟨hc, hcells⟩ := List.forall_mem_cons.1 hcells
    exact ⟨holds_of_agrees hle hs ht hc hholds.1, holdsAll_of_agrees hle hs ht hcells hholds.2⟩
  | [], _ :: _ => exact hholds
  | _ :: _, [] => exact hholds

end

/-- A list with a place in a text is a cell of a program. -/
theorem Agrees.code_of_placed (hs : w.Agrees s) {id : CellId} (hc : c ∈ s.items id)
    (hlist : c.value = .list) (hplace : c.location ≠ none) : w.Code c := by
  have hid : id.index < w.size := by
    by_contra hge
    rw [Store.items_of_size_le (hs.size_eq ▸ Nat.not_lt.1 hge)] at hc
    exact absurd hc List.not_mem_nil
  cases hlists : w.lists id with
  | none => exact absurd ((hs.computed id hid hlists c hc).location_eq hlist) hplace
  | some cells =>
    obtain ⟨heq, hcode⟩ := hs.program id cells hid hlists
    exact hcode c (heq ▸ hc)

end Ledger

/-- The kinds of values that programs compute. -/
def Value.isComputed : Value → Bool
  | .symbol _ | .keyword _ => false
  | .integer _ | .real _ | .string _ | .list | .lambda _ _ _ | .box _ | .handle _ _
  | .procedure _ => true

theorem Ledger.Data.isComputed {good : Location → Prop} {names : String → Prop}
    {w : Ledger good names} {c : Cell} (h : w.Data c) : c.value.isComputed = true := by
  have hvalue := h.value
  generalize c.value = v at hvalue
  cases v with
  | symbol _ => nomatch hvalue
  | keyword _ => nomatch hvalue
  | _ => rfl

namespace Configuration

variable {host : Host} {fuel : Nat} {κ κ' : Configuration}

/-- The programs that were loaded are as they were. -/
def HoldsPrograms (κ : Configuration) : Prop :=
  ∀ p ∈ κ.programs, κ.store.Holds p.1 p.2

theorem Next.holdsPrograms {ev : Evaluator} (h : Next ev κ κ') {w w' : separation.World}
    (hle : w ≤ w') (hκ : separation.Covers w κ) (hκ' : separation.Covers w' κ')
    (hholds : κ.HoldsPrograms) : κ'.HoldsPrograms := by
  have hold : ∀ p ∈ κ.programs, κ'.store.Holds p.1 p.2 := fun p hp =>
    Ledger.holds_of_agrees hle hκ.store hκ'.store (hκ.programs p hp) (hholds p hp)
  obtain ⟨_, h⟩ := h
  cases h with
  | load tree => exact List.forall_mem_cons.2 ⟨κ.store.holds_load tree, hold⟩
  | _ => exact hold

theorem later_separation (hpackages : host.packages = []) {w : separation.World}
    (hκ : separation.Covers w κ) (hholds : κ.HoldsPrograms)
    (h : ReflTransGen (Next (evaluator host fuel)) κ κ') :
    ∃ w', w ≤ w' ∧ separation.Covers w' κ' ∧ κ'.HoldsPrograms := by
  have hev := isGeneral_separation.evaluates hpackages fuel
  induction h with
  | refl => exact ⟨w, le_rfl, hκ, hholds⟩
  | tail _ hnext ih =>
    obtain ⟨w₁, hle₁, hκ₁, hholds₁⟩ := ih
    obtain ⟨w₂, hle₂, hκ₂⟩ := hκ₁.next isGeneral_separation hev hnext fun _ _ => trivial
    exact ⟨w₂, hle₁.trans hle₂, hκ₂, hnext.holdsPrograms hle₂ hκ₁ hκ₂ hholds₁⟩

theorem Reaches.covers_separation (hpackages : host.packages = [])
    (h : Reaches (evaluator host fuel) κ) : ∃ w, separation.Covers w κ ∧ κ.HoldsPrograms := by
  have hinitial : separation.Covers ⟨Keyword.all.length, fun _ => none⟩ initial :=
    ⟨Ledger.agrees_initial _ _, nofun, nofun, nofun⟩
  obtain ⟨w, -, hκ, hholds⟩ := later_separation hpackages hinitial nofun h
  exact ⟨w, hκ, hholds⟩

end Configuration

/-- A value that programs came to without tasks ends within the depth of the store. -/
theorem Reachable.fits {κ : Configuration} (h : Reachable κ.store κ.results) {c : Cell}
    (hc : κ.HasValue c) : κ.store.Fits κ.store.depth c ∧
      ∀ scope, ∃ text, κ.store.stringify scope c = .ok text ∧
        ∀ n, κ.store.depth ≤ n → κ.store.stringifyWithin scope n c = .ok text := by
  obtain ⟨w, hst, hresults⟩ := h.alike
  obtain ⟨d, hvalue⟩ : ∃ d, ValuesAlike .none w c d := by
    induction hc with
    | held hc => exact hc.alike hst hresults
    | completed task hc =>
      have hresult := (hst.tasks.get task.index).result
      change Option.Rel _ (κ.store.task task).result (κ.store.task task).result at hresult
      rw [hc] at hresult
      cases hresult with
      | some hvalue => exact ⟨_, hvalue⟩
    | item _ hlist hitem ih =>
      obtain ⟨_, hvalue⟩ := ih
      obtain ⟨d, -, hitem⟩ := exists_of_mem (hst.valueItems hvalue hlist) hitem
      exact ⟨d, hitem⟩
  have hA := lawful_relocation .none
  have hfits := hst.fits (.inr ⟨d, hvalue⟩)
  refine ⟨hfits, fun scope => ?_⟩
  obtain ⟨text, htext, -⟩ := hA.stringify hst hvalue scope
  exact ⟨text, htext,
    fun n hn => (hA.stringifyWithin_of_fits hst hvalue scope hn hfits).trans htext⟩

/-- Without packages, everything that evaluations come to, bind, store or send is a computed value:
never a symbol or a keyword, and no list of a program. Its items are such values again. Printing it
never comes to a fault, and it comes to an end exactly if one cannot go on for ever from an item to
another one; without tasks the value ends within the depth of the store. Whatever is evaluated
later, the lists of programs keep their items, and each program that was loaded stays as it was. -/
theorem values_apart_from_programs {host : Host} (hpackages : host.packages = []) {fuel : Nat}
    {κ : Configuration} (h : κ.Reaches (evaluator host fuel)) :
    (∀ c, κ.HasValue c → c.value.isComputed = true ∧
      (c.value = .list → c.location = none ∧
        ∀ d, κ.InProgram d → d.value = .list → d.id ≠ c.id) ∧
      (∀ scope, (∀ n, ∃ text, κ.store.stringifyWithin scope n c = .ok text) ∧
        ((∃ text m, ∀ n, m ≤ n → κ.store.stringifyWithin scope n c = .ok text) ↔
          ∃ n, ¬κ.store.GoesDeep n c)) ∧
      (Reachable κ.store κ.results → κ.store.Fits κ.store.depth c ∧
        ∀ scope, ∃ text, κ.store.stringify scope c = .ok text ∧
          ∀ n, κ.store.depth ≤ n → κ.store.stringifyWithin scope n c = .ok text)) ∧
    (∀ d, κ.InProgram d → d.location ≠ none) ∧
    ∀ κ', ReflTransGen (Configuration.Next (evaluator host fuel)) κ κ' →
      (∀ d, κ.InProgram d → d.value = .list → κ'.store.items d.id = κ.store.items d.id) ∧
      (∀ id, ∀ d ∈ κ.store.items id, d.value = .list → d.location ≠ none →
        κ'.store.items d.id = κ.store.items d.id) ∧
      ∀ p ∈ κ.programs, κ'.store.Holds p.1 p.2 := by
  obtain ⟨w, hκ, hholds⟩ := Configuration.Reaches.covers_separation hpackages h
  have hcode : ∀ d, κ.InProgram d → w.Code d := fun d hd => hκ.inProgram lawful_separation hd
  refine ⟨fun c hc => ?_, fun d hd => (hcode d hd).location_ne, fun κ' hlater => ?_⟩
  · have hdata : w.Data c := hκ.hasValue lawful_separation hc
    have hA := lawful_separation.diagonal
    have hst : separation.diagonal.stores w κ.store κ.store := ⟨rfl, hκ.store⟩
    have hvalue : separation.diagonal.values w c c := ⟨rfl, hdata⟩
    refine ⟨hdata.isComputed, fun hlist => ⟨hdata.location_eq hlist, fun d hd hdlist heq => ?_⟩,
      fun scope => ⟨fun n => ?_, hA.settles_iff hst hvalue scope⟩, fun hreachable => ?_⟩
    · exact (hcode d hd).lists_ne hdlist (heq ▸ hdata.lists_eq hlist)
    · exact (hA.stringifyWithin hst hvalue scope n).imp fun _ => And.left
    · exact hreachable.fits hc
  · obtain ⟨w', hle, hκ', -⟩ := Configuration.later_separation hpackages hκ hholds hlater
    refine ⟨fun d hd hlist => Ledger.items_eq hle hκ.store hκ'.store (hcode d hd) hlist,
      fun id d hd hlist hplace => ?_, fun p hp => ?_⟩
    · exact Ledger.items_eq hle hκ.store hκ'.store
        (Ledger.Agrees.code_of_placed hκ.store hd hlist hplace) hlist
    · exact Ledger.holds_of_agrees hle hκ.store hκ'.store (hκ.programs p hp) (hholds p hp)

/-- The list that `[var l [list [list]]]` makes is none of its program, which stays as it is. -/
theorem values_apart_from_programs_nested :
    ∃ (κ : Configuration) (c d : Cell), κ.Reaches (evaluator ⟨[], [], fun _ => none⟩ 4) ∧
      Reachable κ.store κ.results ∧
      κ.HasValue c ∧ c.value = .list ∧ κ.InProgram d ∧ d.value = .list ∧ d.id ≠ c.id ∧
      (∃ text, κ.store.stringify Store.root c = .ok text ∧
        ∀ n, κ.store.depth ≤ n → κ.store.stringifyWithin Store.root n c = .ok text) ∧
      ∀ κ', ReflTransGen (Configuration.Next (evaluator ⟨[], [], fun _ => none⟩ 4)) κ κ' →
        κ'.store.Holds nestedTree d := by
  have hrun : (((evaluator ⟨[], [], fun _ => none⟩ 4).runTree Store.root nestedTree
      .initial).end? []).map (fun p => p.1.toOption.map fun c => c.value.isList) =
        some (some true) := by
    decide +kernel
  obtain ⟨⟨outcome, t⟩, hend, houtcome⟩ := Option.map_eq_some_iff.1 hrun
  obtain ⟨c, hc, hlist⟩ := Option.map_eq_some_iff.1 houtcome
  cases outcome with
  | error reason => cases hc
  | ok value =>
    cases hc
    have hreaches := Configuration.Reaches.value (κ := .initial) .refl nestedTree Store.root hend
    have hreachable : Reachable t [c] := .value 4 Store.root nestedTree .initial rfl hend
    obtain ⟨hvalues, -, hlater⟩ := values_apart_from_programs rfl hreaches
    obtain ⟨-, hapart, -, hfits⟩ := hvalues c (.held (.result List.mem_cons_self))
    exact ⟨_, c, _, hreaches, hreachable, .held (.result List.mem_cons_self), isList_iff.1 hlist,
      .root List.mem_cons_self, rfl,
      (hapart (isList_iff.1 hlist)).2 _ (.root List.mem_cons_self) rfl,
      (hfits hreachable).2 Store.root,
      fun κ' hκ' => (hlater κ' hκ').2.2 _ List.mem_cons_self⟩

/-! ### Lists that two tasks put into each other -/

/-- The tree of `[block [var a [list]] [var b [list]] [var t [thread [push a b]]] [push b a]
[t.join] a]`. -/
def racingTree : Tree :=
  let word (k : Keyword) (column : Nat) : Tree := .atom (.keyword k) ⟨1, column, none⟩
  let name (text : String) (column : Nat) : Tree := .atom (.symbol text) ⟨1, column, none⟩
  let list (items : List Tree) (column : Nat) : Tree := .list items ⟨1, column, none⟩
  list [word .block 2,
    list [word .define 9, name "a" 13, list [word .list 16] 15] 8,
    list [word .define 24, name "b" 28, list [word .list 31] 30] 23,
    list [word .define 39, name "t" 43,
      list [word .spawnThread 46, list [word .push 54, name "a" 59, name "b" 61] 53] 45] 38,
    list [word .push 67, name "b" 72, name "a" 74] 66,
    list [name "t.join" 78] 77,
    name "a" 86] 1

/-- Both tasks look for the lists in each other before either of them goes on. -/
def racingRun : Option (List Meeting × Configuration) :=
  Configuration.initial.play? (fun _ => .missing .notFound) (evaluator ⟨[], [], fun _ => none⟩ 8)
    Store.root racingTree [.main, .launch, .task 0, .main, .task 0, .main]

/-- The value is a list with a list among its items that has the value itself among its items. -/
def Store.isMutual (s : Store) (c : Cell) : Bool :=
  c.value.isList && (s.items c.id).any fun d =>
    d.value.isList && (s.items d.id).any fun e => e.value.isList && e.id == c.id

/-- From a list that contains itself one can go on for ever. -/
theorem Store.goesDeep_of_isMutual {s : Store} {c : Cell} (h : s.isMutual c = true) :
    TransGen (HasItem s.itemRows) c.id c.id ∧ ∀ n, s.GoesDeep n c := by
  simp only [isMutual, Bool.and_eq_true, List.any_eq_true, beq_iff_eq, isList_iff] at h
  obtain ⟨hc, d, hdc, hd, e, hed, he, hid⟩ := h
  refine ⟨.tail (.single ⟨d, hdc, rfl⟩) ⟨e, hed, hid⟩, fun n => ?_⟩
  -- every other step leads back to an item with the identity of `c`
  suffices hdeep : ∀ x : Cell, x.value = .list → x.id = c.id ∨ x.id = d.id → s.GoesDeep n x from
    hdeep c hc (.inl rfl)
  induction n with
  | zero => exact fun _ _ _ => trivial
  | succ n ih =>
    rintro x hx (hxc | hxd)
    · exact ⟨hx, d, hxc ▸ hdc, ih d hd (.inr rfl)⟩
    · exact ⟨hx, e, hxd ▸ hed, ih e he (.inl hid)⟩

/-- Two tasks that push lists into each other may both find that nothing is wrong before either
writes. Then a list contains itself, and printing it never comes to an end. -/
theorem racing_pushes_nest_for_ever :
    ∃ (κ : Configuration) (c : Cell), κ.Reaches (evaluator ⟨[], [], fun _ => none⟩ 8) ∧
      κ.HasValue c ∧ TransGen (HasItem κ.store.itemRows) c.id c.id ∧
      ∀ text m, ∃ n, m ≤ n ∧ κ.store.stringifyWithin Store.root n c ≠ .ok text := by
  have hrun : racingRun.map (fun p => p.2.results.map p.2.store.isMutual) = some [true] := by
    decide +kernel
  obtain ⟨⟨log, κ⟩, hplay, hresults⟩ := Option.map_eq_some_iff.1 hrun
  rw [racingRun] at hplay
  have hreaches := (Configuration.trail_of_play? hplay).reflTransGen
  obtain ⟨c, hc, hmutual⟩ := List.mem_map.1 (hresults ▸ List.mem_cons_self)
  obtain ⟨hcycle, hdeep⟩ := Store.goesDeep_of_isMutual hmutual
  refine ⟨κ, c, hreaches, .held (.result hc), hcycle, fun text m => ?_⟩
  refine ⟨max m (text.length + 1), Nat.le_max_left _ _, fun htext => ?_⟩
  have hlength := (hdeep (max m (text.length + 1))).le_length htext
  omega

end BracketScript
