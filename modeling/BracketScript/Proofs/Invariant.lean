import BracketScript.Proofs.Correspondence.Evaluation

/-!
# Invariants of evaluations

An invariant is a correspondence of each evaluation with itself. It says what is so of stores, of
the values that programs compute and of the cells of programs, again as a matter of a world that
only grows. What an invariant has to satisfy is less than what a correspondence has to: `Lawful`
leaves out all that holds because the two sides are one and the same.
-/

namespace BracketScript

open Correspondence

/-- What is so of the stores, values and programs of an evaluation. -/
structure Invariant where
  World : Type
  preorder : Preorder World
  stores : World → Store → Prop
  /-- Values that programs compute. -/
  values : World → Cell → Prop
  /-- Cells of programs. -/
  codes : World → Cell → Prop
  /-- Programs may bind names in the scope. -/
  isOpen : World → ScopeId → Prop
  /-- The scope holds the methods of a handle. -/
  isTable : World → ScopeId → Prop
  /-- Names that occur in programs. -/
  names : String → Prop
  places : Option Location → Prop
  /-- Texts that programs are read from. -/
  sources : Option String → String → Prop
  /-- What may be found at a path. -/
  entries : String → Entry → Prop
  /-- The first cell may become an item of the second. -/
  apart : Store → Cell → Cell → Prop
  /-- Other tasks may run in between. -/
  turns : Prop

namespace Invariant

attribute [instance] Invariant.preorder

/-- The correspondence of each evaluation with itself. -/
def diagonal (I : Invariant) : Correspondence where
  World := I.World
  preorder := I.preorder
  stores w s t := s = t ∧ I.stores w s
  values w c d := c = d ∧ I.values w c
  codes w c d := c = d ∧ I.codes w c
  queues w q q' := q = q' ∧ ∀ c ∈ q.toList, I.values w c
  isOpen := I.isOpen
  isTable := I.isTable
  names := I.names
  places place place' := place = place' ∧ I.places place
  sources := I.sources
  entries := I.entries
  apart := I.apart
  turns := I.turns

def Holds (I : Invariant) (w : I.World) (v : Value) : Prop :=
  DataValues I.diagonal.Bindable (I.diagonal.codes w) v v

/-- What an invariant has to satisfy. -/
structure Lawful (I : Invariant) : Prop where
  values_mono {w w' : I.World} {c : Cell} : w ≤ w' → I.values w c → I.values w' c
  codes_mono {w w' : I.World} {c : Cell} : w ≤ w' → I.codes w c → I.codes w' c
  isOpen_mono {w w' : I.World} {scope : ScopeId} : w ≤ w' → I.isOpen w scope → I.isOpen w' scope
  isTable_mono {w w' : I.World} {scope : ScopeId} :
    w ≤ w' → I.isTable w scope → I.isTable w' scope
  values_value {w : I.World} {c : Cell} : I.values w c → I.Holds w c.value
  codes_value {w : I.World} {c : Cell} : I.codes w c → CodeValues I.names c.value c.value
  codes_place {w : I.World} {c : Cell} : I.codes w c → I.places c.location
  literal {w : I.World} {c : Cell} :
    I.codes w c → c.value ≠ .list → I.Holds w c.value → I.values w c
  names_faultName : I.names Form.faultName
  places_orElse {place other : Option Location} :
    I.places place → I.places other → I.places (place <|> other)
  -- cells
  builtIn {w : I.World} {s : Store} (k : Keyword) : I.stores w s → I.values w (.builtIn k)
  newCell {w : I.World} {s : Store} {v : Value} {place : Option Location} :
    I.stores w s → I.diagonal.Marks w place place → I.Holds w v → v ≠ .list →
      ∃ w', w ≤ w' ∧ I.stores w' (s.newCell v place #[]).2 ∧
        I.values w' (s.newCell v place #[]).1
  newList {w : I.World} {s : Store} {cells : List Cell} :
    I.stores w s → (∀ c ∈ cells, I.values w c) →
      ∃ w', w ≤ w' ∧ I.stores w' (s.newCell .list none cells.toArray).2 ∧
        I.values w' (s.newCell .list none cells.toArray).1
  load {w : I.World} {s : Store} {origin : Option String} {text : String} {trees : List Tree}
    {tree : Tree} :
    I.stores w s → I.sources origin text → parse origin text = .ok trees → tree ∈ trees →
      ∃ w', w ≤ w' ∧ I.stores w' (s.load tree).2 ∧ I.codes w' (s.load tree).1
  -- items
  valueItems {w : I.World} {s : Store} {c : Cell} :
    I.stores w s → I.values w c → c.value = .list → ∀ item ∈ s.items c.id, I.values w item
  codeItems {w : I.World} {s : Store} {c : Cell} :
    I.stores w s → I.codes w c → c.value = .list → ∀ item ∈ s.items c.id, I.codes w item
  setItems {w : I.World} {s : Store} {c : Cell} {cells : List Cell} :
    I.stores w s → I.values w c → c.value = .list → (∀ item ∈ cells, I.values w item) →
      (∀ item ∈ cells, item ∈ s.items c.id ∨ I.apart s item c) →
      I.stores w (s.modifyRow c.id fun _ => cells.toArray)
  apart_of_reaches {w : I.World} {s : Store} {c item : Cell} :
    I.stores w s → I.values w c → I.values w item → s.reaches item c = false → I.apart s item c
  apart_newCell {w : I.World} {s : Store} {c item : Cell} (v : Value) (place : Option Location) :
    I.stores w s → I.values w c → I.values w item → I.apart s item c →
      I.apart (s.newCell v place #[]).2 item c
  apart_new {w : I.World} {s : Store} {c : Cell} {v : Value} (place : Option Location) :
    I.stores w s → I.values w c → v ≠ .list →
      I.apart (s.newCell v place #[]).2 (s.newCell v place #[]).1 c
  apart_setUsed {s : Store} {c item : Cell} (used : Nat) :
    I.apart s item c → I.apart { s with used } item c
  apart_of_turns {s : Store} {c item : Cell} : I.turns → I.apart s item c
  -- scopes
  get? {w : I.World} {s : Store} {id : ScopeId} {name : String} {c : Cell} :
    I.stores w s → (s.scope id).get? name = some c → I.values w c
  childScope {w : I.World} {s : Store} (parent : ScopeId) :
    I.stores w s → ∃ w', w ≤ w' ∧ I.stores w' (s.childScope parent).2 ∧
      I.isOpen w' (s.childScope parent).1
  newTable {w : I.World} {s : Store} :
    I.stores w s → ∃ w', w ≤ w' ∧ I.stores w' (s.newScope []).2 ∧ I.isTable w' (s.newScope []).1
  define {w : I.World} {s : Store} {c : Cell} {id : ScopeId} {name : String} :
    I.stores w s → I.values w c → I.isOpen w id ∧ I.diagonal.Bindable name ∨ I.isTable w id →
      I.stores w (s.define id name c)
  redefine {w : I.World} {s : Store} {c : Cell} {id : ScopeId} {name : String} :
    I.stores w s → I.values w c → (s.scope id).binds name = true →
      I.stores w (s.define id name c)
  -- channels, references and tasks
  queue {w : I.World} {s : Store} {id : ChannelId} {c : Cell} :
    I.stores w s → c ∈ (s.queue id).toList → I.values w c
  setQueue {w : I.World} {s : Store} {q : Queue Cell} (id : ChannelId) :
    I.stores w s → (∀ c ∈ q.toList, I.values w c) → I.stores w (s.setQueue id q)
  newChannel {w : I.World} {s : Store} : I.stores w s → I.stores w s.newChannel.2
  reference {w : I.World} {s : Store} {id : RefId} {c : Cell} :
    I.stores w s → s.reference id = some c → I.values w c
  writeReference {w : I.World} {s : Store} {c : Cell} (id : RefId) :
    I.stores w s → I.values w c → I.stores w (s.writeReference id c)
  newReference {w : I.World} {s : Store} {initial : Option Cell} :
    I.stores w s → (∀ c, initial = some c → I.values w c) →
      I.stores w (s.newReference initial).2
  result {w : I.World} {s : Store} {id : TaskId} {c : Cell} :
    I.stores w s → (s.task id).result = some c → I.values w c
  release {w : I.World} {s : Store} (id : TaskId) :
    I.stores w s → I.stores w (s.modifyTask id fun task => { task with joinable := false })
  endTask {w : I.World} {s : Store} {c : Cell} (id : TaskId) :
    I.stores w s → I.values w c → I.stores w (s.endTask id c)
  newTask {w : I.World} {s : Store} {body : Cell} {scope : ScopeId} :
    I.stores w s → I.codes w body → I.isOpen w scope → I.stores w (s.newTask body scope).2
  launch {w : I.World} {s : Store} {launch : Launch} :
    I.stores w s → launch ∈ s.launches → I.codes w launch.body ∧ I.isOpen w launch.scope
  clearLaunches {w : I.World} {s : Store} :
    I.stores w s → I.stores w { s with launches := [] }
  -- output and turns
  setOutput {w : I.World} {s : Store} (output : String) :
    I.stores w s → I.stores w { s with output }
  setUsed {w : I.World} {s : Store} (used : Nat) : I.stores w s → I.stores w { s with used }

/-! ### The diagonal -/

variable {I : Invariant} {w : I.World}

theorem forall₂_diagonal {P : Cell → Prop} {cells cells' : List Cell} :
    List.Forall₂ (fun c d => c = d ∧ P c) cells cells' ↔ cells = cells' ∧ ∀ c ∈ cells, P c := by
  constructor
  · intro h
    induction h with
    | nil => exact ⟨rfl, nofun⟩
    | cons hc _ ih =>
      obtain ⟨rfl, hP⟩ := hc
      obtain ⟨rfl, hall⟩ := ih
      exact ⟨rfl, List.forall_mem_cons.2 ⟨hP, hall⟩⟩
  · rintro ⟨rfl, h⟩
    exact List.forall₂_same.2 fun c hc => ⟨rfl, h c hc⟩

theorem optionRel_self {R : Cell → Cell → Prop} {found : Option Cell}
    (h : ∀ c, found = some c → R c c) : Option.Rel R found found := by
  cases found with
  | none => exact .none
  | some c => exact .some (h c rfl)

theorem eq_of_dataValues {v v' : Value}
    (h : DataValues I.diagonal.Bindable (I.diagonal.codes w) v v') : v = v' := by
  cases h with
  | lambda _ hbody => rw [hbody.1]
  | _ => rfl

theorem eq_of_marks {place place' : Option Location} (h : I.diagonal.Marks w place place') :
    place = place' := by
  cases h with
  | none => rfl
  | copied hc => rw [hc.1]

/-- A lawful invariant is a lawful correspondence of each evaluation with itself. -/
theorem Lawful.diagonal (hI : I.Lawful) : I.diagonal.Lawful where
  values_mono h := fun ⟨heq, hc⟩ => ⟨heq, hI.values_mono h hc⟩
  codes_mono h := fun ⟨heq, hc⟩ => ⟨heq, hI.codes_mono h hc⟩
  isOpen_mono := hI.isOpen_mono
  isTable_mono := hI.isTable_mono
  values_value := by
    rintro w c _ ⟨rfl, hc⟩
    exact hI.values_value hc
  codes_value := by
    rintro w c _ ⟨rfl, hc⟩
    exact hI.codes_value hc
  codes_place := by
    rintro w c _ ⟨rfl, hc⟩
    exact ⟨rfl, hI.codes_place hc⟩
  literal := by
    rintro w c _ ⟨rfl, hc⟩ hlist hdata
    exact ⟨rfl, hI.literal hc hlist hdata⟩
  same_eq := by
    rintro w c _ c' _ ⟨rfl, -⟩ ⟨rfl, -⟩
    rfl
  names_faultName := hI.names_faultName
  places_orElse := by
    rintro place _ other _ ⟨rfl, hplace⟩ ⟨rfl, hother⟩
    exact ⟨rfl, hI.places_orElse hplace hother⟩
  builtIn k hst := ⟨rfl, hI.builtIn k hst.2⟩
  newCell := by
    rintro w s _ v v' place place' ⟨rfl, hs⟩ hmark hdata hlist
    obtain rfl := eq_of_dataValues hdata
    obtain rfl := eq_of_marks hmark
    obtain ⟨w', hle, hs', hc⟩ := hI.newCell hs hmark hdata hlist
    exact ⟨w', hle, ⟨rfl, hs'⟩, rfl, hc⟩
  newList := by
    rintro w s _ cells cells' ⟨rfl, hs⟩ hcells
    obtain ⟨rfl, hvalues⟩ := forall₂_diagonal.1 hcells
    obtain ⟨w', hle, hs', hc⟩ := hI.newList hs hvalues
    exact ⟨w', hle, ⟨rfl, hs'⟩, rfl, hc⟩
  load := by
    rintro w s _ origin text trees tree ⟨rfl, hs⟩ hsource hparse htree
    obtain ⟨w', hle, hs', hc⟩ := hI.load hs hsource hparse htree
    exact ⟨w', hle, ⟨rfl, hs'⟩, rfl, hc⟩
  valueItems := by
    rintro w s _ c _ ⟨rfl, hs⟩ ⟨rfl, hc⟩ hlist
    exact forall₂_diagonal.2 ⟨rfl, hI.valueItems hs hc hlist⟩
  codeItems := by
    rintro w s _ c _ ⟨rfl, hs⟩ ⟨rfl, hc⟩ hlist
    exact forall₂_diagonal.2 ⟨rfl, hI.codeItems hs hc hlist⟩
  setItems := by
    rintro w s _ c _ cells cells' ⟨rfl, hs⟩ ⟨rfl, hc⟩ hlist hcells hapart
    obtain ⟨rfl, hvalues⟩ := forall₂_diagonal.1 hcells
    exact ⟨w, le_rfl, rfl, hI.setItems hs hc hlist hvalues hapart⟩
  apart_of_reaches hst hc hitem := hI.apart_of_reaches hst.2 hc.2 hitem.2
  apart_newCell v place hst hc hitem := hI.apart_newCell v place hst.2 hc.2 hitem.2
  apart_new place hst hc hlist := hI.apart_new place hst.2 hc.2 hlist
  apart_setUsed := hI.apart_setUsed
  apart_of_turns := hI.apart_of_turns
  fits_value hst _ := .inl (congrArg Store.depth hst.1)
  fits_code hst _ := .inl (congrArg Store.depth hst.1)
  outer_eq id hst := by rw [hst.1]
  packages_eq id hst := by rw [hst.1]
  get? id name := by
    rintro ⟨rfl, hs⟩
    exact optionRel_self fun c hc => ⟨rfl, hI.get? hs hc⟩
  childScope parent := by
    rintro ⟨rfl, hs⟩
    obtain ⟨w', hle, hs', hopen⟩ := hI.childScope parent hs
    exact ⟨rfl, w', hle, ⟨rfl, hs'⟩, hopen⟩
  newTable := by
    rintro w s _ ⟨rfl, hs⟩
    obtain ⟨w', hle, hs', htable⟩ := hI.newTable hs
    exact ⟨rfl, w', hle, ⟨rfl, hs'⟩, htable⟩
  define := by
    rintro w s _ c _ id name ⟨rfl, hs⟩ ⟨rfl, hc⟩ hid
    exact ⟨w, le_rfl, rfl, hI.define hs hc hid⟩
  redefine := by
    rintro w s _ c _ id name ⟨rfl, hs⟩ ⟨rfl, hc⟩ hbinds
    exact ⟨w, le_rfl, rfl, hI.redefine hs hc hbinds⟩
  queues_toList := by
    rintro w q _ ⟨rfl, hq⟩
    exact forall₂_diagonal.2 ⟨rfl, hq⟩
  queues_empty _ := ⟨rfl, nofun⟩
  queues_pushAll := by
    rintro w q _ cells cells' ⟨rfl, hq⟩ hcells
    obtain ⟨rfl, hvalues⟩ := forall₂_diagonal.1 hcells
    refine ⟨rfl, fun c hc => ?_⟩
    rw [Queue.toList_pushAll] at hc
    exact (List.mem_append.1 hc).elim (hq c) (hvalues c)
  queues_pop? := by
    rintro w q _ ⟨rfl, hq⟩
    cases hpop : q.pop? with
    | none => exact .none
    | some p =>
      have hlist := Queue.toList_of_pop? hpop
      rw [hlist] at hq
      exact .some
        ⟨⟨rfl, hq _ List.mem_cons_self⟩, rfl, fun c hc => hq c (List.mem_cons_of_mem _ hc)⟩
  channels_size_eq hst := by rw [hst.1]
  queue id := by
    rintro ⟨rfl, hs⟩
    exact ⟨rfl, fun c => hI.queue hs⟩
  setQueue id := by
    rintro ⟨rfl, hs⟩ ⟨rfl, hq⟩
    exact ⟨_, le_rfl, rfl, hI.setQueue id hs hq⟩
  newChannel := by
    rintro w s _ ⟨rfl, hs⟩
    exact ⟨rfl, w, le_rfl, rfl, hI.newChannel hs⟩
  reference id := by
    rintro ⟨rfl, hs⟩
    exact optionRel_self fun c hc => ⟨rfl, hI.reference hs hc⟩
  writeReference id := by
    rintro ⟨rfl, hs⟩ ⟨rfl, hc⟩
    exact ⟨_, le_rfl, rfl, hI.writeReference id hs hc⟩
  newReference := by
    rintro w s _ c d ⟨rfl, hs⟩ hrel
    cases hrel with
    | none => exact ⟨rfl, w, le_rfl, rfl, hI.newReference hs nofun⟩
    | some hc =>
      obtain ⟨rfl, hc⟩ := hc
      exact ⟨rfl, w, le_rfl, rfl, hI.newReference hs fun _ h => Option.some.inj h ▸ hc⟩
  result id := by
    rintro ⟨rfl, hs⟩
    exact optionRel_self fun c hc => ⟨rfl, hI.result hs hc⟩
  joinable_eq id hst := by rw [hst.1]
  release id := by
    rintro ⟨rfl, hs⟩
    exact ⟨_, le_rfl, rfl, hI.release id hs⟩
  newTask := by
    rintro w s _ body _ scope ⟨rfl, hs⟩ ⟨rfl, hbody⟩ hscope
    exact ⟨rfl, w, le_rfl, rfl, hI.newTask hs hbody hscope⟩
  write text := by
    rintro ⟨rfl, hs⟩
    exact ⟨_, le_rfl, rfl, hI.setOutput _ hs⟩
  isBusy_eq hst := by rw [hst.1]
  used_eq hst := by rw [hst.1]
  setUsed used := by
    rintro ⟨rfl, hs⟩
    exact ⟨_, le_rfl, rfl, hI.setUsed used hs⟩

end Invariant

end BracketScript
