import BracketScript.Form
import Mathlib.Data.List.TakeWhile

/-!
# Reading and assigning names

Looking up a name goes through its segments from the left; assigning to it cuts off the last segment
and looks up what stands in front. Both come to the same slot. `Store.trace` looks a name up and
keeps the slot of each cell on the way, so that the slot of the last one is where the meaning of the
name was read.
-/

namespace BracketScript

/-! ### Segments -/

namespace Text

theorem split_of_not_mem {separator : Char} {cs : List Char} (h : separator ∉ cs) :
    split separator cs = (cs, []) := by
  induction cs with
  | nil => rfl
  | cons c cs ih =>
    rw [List.mem_cons, not_or] at h
    simp [split, ih h.2, Ne.symm h.1]

/-- What stands behind the last separator is the last piece. -/
theorem split_append_cons {separator : Char} {back : List Char} (hback : separator ∉ back)
    (front : List Char) :
    split separator (front ++ separator :: back) =
      ((split separator front).1, (split separator front).2 ++ [back]) := by
  induction front with
  | nil => simp [split, split_of_not_mem hback]
  | cons c front ih =>
    by_cases hc : c = separator
    · simp [split, ih, hc]
    · simp [split, ih, hc]

end Text

namespace Name

theorem not_mem_of_splitLast?_eq_none {name : String} (h : splitLast? name = none) :
    '.' ∉ name.toList := by
  intro hmem
  simp only [splitLast?] at h
  split at h
  · next hnil =>
    have hall := List.dropWhile_eq_nil_iff.1 hnil '.' (List.mem_reverse.2 hmem)
    simp at hall
  · cases h

theorem toList_of_splitLast?_eq_some {name path member : String}
    (h : splitLast? name = some (path, member)) :
    name.toList = path.toList ++ '.' :: member.toList ∧ '.' ∉ member.toList := by
  simp only [splitLast?] at h
  split at h
  · cases h
  · next c front hdrop =>
    have hc : c = '.' := by
      have hhead := List.head?_dropWhile_not (· != '.') name.toList.reverse
      rw [hdrop] at hhead
      simpa using hhead
    have hparts := List.takeWhile_append_dropWhile (p := (· != '.')) (l := name.toList.reverse)
    rw [hdrop, hc] at hparts
    cases h
    rw [String.toList_ofList, String.toList_ofList]
    refine ⟨by simpa using (congrArg List.reverse hparts).symm, fun hmem => ?_⟩
    have htaken := List.mem_takeWhile_imp (List.mem_reverse.1 hmem)
    simp at htaken

/-- A name that cannot be cut has one segment. -/
theorem segments_of_splitLast?_eq_none {name : String} (h : splitLast? name = none) :
    segments name = (name, []) := by
  simp [segments, Text.pieces, Text.split_of_not_mem (not_mem_of_splitLast?_eq_none h)]

/-- The last segment of a name is what is cut off. -/
theorem segments_of_splitLast?_eq_some {name path member : String}
    (h : splitLast? name = some (path, member)) :
    segments name = ((segments path).1, (segments path).2 ++ [member]) := by
  obtain ⟨hname, hmember⟩ := toList_of_splitLast?_eq_some h
  simp [segments, Text.pieces, hname, Text.split_append_cons hmember]

end Name

/-! ### Where a name is read -/

namespace Store

/-- The nearest binding of a name around a scope, and the slot that it stands in. -/
def nearest? (s : Store) (id : ScopeId) (name : String) : Option (Slot × Cell) :=
  (s.chain id).findSome? fun i => ((s.scope i).get? name).map fun c => (⟨i, name⟩, c)

/-- Follow segments as `follow` does, and keep the slot of each cell. -/
def traceFrom (s : Store) (name : String) (location : Option Location) (found : Slot × Cell) :
    List String → Except Fault (Slot × Cell)
  | [] => .ok found
  | segment :: segments =>
    match found.2.value.members? with
    | none => .error (.failure (.unreachableMember name segment) location)
    | some members =>
      match (s.scope members).get? segment with
      | none => .error (.unknownName name location)
      | some member => s.traceFrom name location (⟨members, segment⟩, member) segments

/-- Look up a name as `resolve` does, and keep the slot in which its meaning stands. -/
def trace (s : Store) (id : ScopeId) (name : String) (location : Option Location) :
    Except Fault (Slot × Cell) :=
  match s.nearest? id (Name.segments name).1 with
  | none => .error (.unknownName name location)
  | some found => s.traceFrom name location found (Name.segments name).2

variable {s : Store} {id : ScopeId} {name : String} {location : Option Location}

theorem nearest?_map_snd : (s.nearest? id name).map Prod.snd = s.lookup? id name := by
  rw [nearest?, lookup?]
  induction s.chain id with
  | nil => rfl
  | cons i ids ih =>
    rw [List.findSome?_cons, List.findSome?_cons]
    cases (s.scope i).get? name with
    | none => exact ih
    | some c => rfl

theorem nearest?_map_fst :
    (s.nearest? id name).map Prod.fst = (s.owner? id name).map fun owner => ⟨owner, name⟩ := by
  rw [nearest?, owner?]
  induction s.chain id with
  | nil => rfl
  | cons i ids ih =>
    rw [List.findSome?_cons, List.find?_cons, Scope.binds]
    cases (s.scope i).get? name with
    | none => exact ih
    | some c => rfl

/-- A slot that was found holds the cell that was read there. -/
theorem get?_of_nearest? {found : Slot × Cell} (h : s.nearest? id name = some found) :
    (s.scope found.1.scope).get? found.1.name = some found.2 := by
  obtain ⟨i, -, hi⟩ := List.exists_of_findSome?_eq_some h
  obtain ⟨c, hc, rfl⟩ := Option.map_eq_some_iff.1 hi
  exact hc

theorem traceFrom_map_snd (found : Slot × Cell) (segments : List String) :
    (s.traceFrom name location found segments).map Prod.snd =
      s.follow name location found.2 segments := by
  induction segments generalizing found with
  | nil => rfl
  | cons segment segments ih =>
    simp only [traceFrom, follow]
    cases found.2.value.members? with
    | none => rfl
    | some members =>
      dsimp only
      cases (s.scope members).get? segment with
      | none => rfl
      | some member => exact ih _

theorem get?_of_traceFrom {found last : Slot × Cell} {segments : List String}
    (hfound : (s.scope found.1.scope).get? found.1.name = some found.2)
    (h : s.traceFrom name location found segments = .ok last) :
    (s.scope last.1.scope).get? last.1.name = some last.2 := by
  induction segments generalizing found with
  | nil =>
    cases h
    exact hfound
  | cons segment segments ih =>
    simp only [traceFrom] at h
    cases hmembers : found.2.value.members? with
    | none => simp [hmembers] at h
    | some members =>
      simp only [hmembers] at h
      cases hmember : (s.scope members).get? segment with
      | none => simp [hmember] at h
      | some member =>
        simp only [hmember] at h
        exact ih hmember h

/-- Tracing a name is looking it up. -/
theorem trace_map_snd : (s.trace id name location).map Prod.snd = s.resolve id name location := by
  have hlookup : (s.nearest? id (Name.segments name).1).map Prod.snd =
      s.lookup? id (Name.segments name).1 := nearest?_map_snd
  simp only [trace, resolve, ← hlookup]
  cases s.nearest? id (Name.segments name).1 with
  | none => rfl
  | some found => exact traceFrom_map_snd found _

theorem get?_of_trace {last : Slot × Cell} (h : s.trace id name location = .ok last) :
    (s.scope last.1.scope).get? last.1.name = some last.2 := by
  simp only [trace] at h
  cases hfound : s.nearest? id (Name.segments name).1 with
  | none => simp [hfound] at h
  | some found =>
    simp only [hfound] at h
    exact get?_of_traceFrom (get?_of_nearest? hfound) h

/-! ### Where a name is assigned -/

def memberSlot (s : Store) (name path member : String) (location : Option Location)
    (holder : Cell) : Except Fault Slot :=
  match holder.value.members? with
  | none => .error (.failure (.notBox path) location)
  | some members =>
    if (s.scope members).binds member then .ok ⟨members, member⟩
    else .error (.unknownName name location)

theorem slot_of_splitLast?_eq_none (h : Name.splitLast? name = none) :
    s.slot id name location = s.plainSlot id name location := by
  rw [slot, h]

theorem slot_of_splitLast?_eq_some {path member : String}
    (h : Name.splitLast? name = some (path, member)) :
    s.slot id name location =
      s.resolve id path location >>= s.memberSlot name path member location := by
  rw [slot, h]
  rfl

end Store

/-- Both ways come to the same slot, or to faults of one category. -/
inductive SlotsAgree : Except Fault Slot → Except Fault Slot → Prop
  | ok (slot : Slot) : SlotsAgree (.ok slot) (.ok slot)
  | error {fault fault' : Fault} :
      fault.category = fault'.category → SlotsAgree (.error fault) (.error fault')

namespace Store

variable {s : Store} {id : ScopeId} {name : String} {location : Option Location}

/-- Following one segment more leads to the member of what the others lead to. The faults of the two
ways name different parts of the path. -/
theorem traceFrom_concat (path member : String) (found : Slot × Cell) (segments : List String) :
    SlotsAgree ((s.traceFrom name location found (segments ++ [member])).map Prod.fst)
      (s.follow path location found.2 segments >>= s.memberSlot name path member location) := by
  induction segments generalizing found with
  | nil =>
    simp only [List.nil_append, traceFrom, follow, memberSlot, bind, Except.bind]
    cases found.2.value.members? with
    | none => exact .error rfl
    | some members =>
      dsimp only
      cases hmember : (s.scope members).get? member with
      | none =>
        rw [if_neg (by simp [Scope.binds, hmember])]
        exact .error rfl
      | some c =>
        rw [if_pos (by simp [Scope.binds, hmember])]
        exact .ok _
  | cons segment segments ih =>
    simp only [List.cons_append, traceFrom, follow]
    cases found.2.value.members? with
    | none => exact .error rfl
    | some members =>
      dsimp only
      cases (s.scope members).get? segment with
      | none => exact .error rfl
      | some c => exact ih _

/-- The slot that a name is assigned to is the one that its meaning is read from. -/
theorem trace_slot :
    SlotsAgree ((s.trace id name location).map Prod.fst) (s.slot id name location) := by
  cases hsplit : Name.splitLast? name with
  | none =>
    have hslot : (s.nearest? id name).map Prod.fst =
        (s.owner? id name).map fun owner => ⟨owner, name⟩ := nearest?_map_fst
    rw [slot_of_splitLast?_eq_none hsplit]
    simp only [trace, Name.segments_of_splitLast?_eq_none hsplit, plainSlot]
    cases hfound : s.nearest? id name with
    | none =>
      rw [hfound] at hslot
      cases howner : s.owner? id name with
      | none => exact .error rfl
      | some owner => simp [howner] at hslot
    | some found =>
      rw [hfound] at hslot
      cases howner : s.owner? id name with
      | none => simp [howner] at hslot
      | some owner =>
        rw [howner] at hslot
        obtain ⟨slot, c⟩ := found
        cases hslot
        exact .ok _
  | some split =>
    obtain ⟨path, member⟩ := split
    have hlookup : (s.nearest? id (Name.segments path).1).map Prod.snd =
        s.lookup? id (Name.segments path).1 := nearest?_map_snd
    rw [slot_of_splitLast?_eq_some hsplit]
    simp only [trace, resolve, Name.segments_of_splitLast?_eq_some hsplit, ← hlookup]
    cases s.nearest? id (Name.segments path).1 with
    | none => exact .error rfl
    | some found => exact traceFrom_concat path member found _

/-! ### What assigning changes -/

theorem index_lt_of_binds {i : ScopeId} (h : (s.scope i).binds name = true) :
    i.index < s.scopes.size := by
  by_contra hge
  rw [scope, Arena.get_of_size_le _ (Nat.not_lt.1 hge)] at h
  cases h

/-- In the second store the slot is bound to the cell, and nothing else is different. -/
structure Rebinds (s : Store) (slot : Slot) (c : Cell) (t : Store) : Prop where
  get?_eq (other : Slot) : (t.scope other.scope).get? other.name =
    if other = slot then some c else (s.scope other.scope).get? other.name
  outer_eq (i : ScopeId) : (t.scope i).outer = (s.scope i).outer
  packages_eq (i : ScopeId) : (t.scope i).packages = (s.scope i).packages
  others_eq : { t with scopes := s.scopes } = s

theorem get?_define {i : ScopeId} (h : i.index < s.scopes.size) (c : Cell) (other : ScopeId)
    (key : String) :
    ((s.define i name c).scope other).get? key =
      if other = i ∧ key = name then some c else (s.scope other).get? key := by
  rw [scope_define]
  by_cases hother : i = other
  · subst hother
    rw [if_pos ⟨rfl, h⟩, Scope.get?_set]
    simp
  · have hindex : i.index ≠ other.index := fun heq => hother (congrArg ScopeId.mk heq)
    rw [if_neg fun hand => hindex hand.1, if_neg fun hand => hother hand.1.symm]

/-- Filling a slot that is bound changes this binding only. -/
theorem rebinds_fill {slot : Slot} (h : (s.scope slot.scope).binds slot.name = true) (c : Cell) :
    s.Rebinds slot c (s.fill slot c) where
  get?_eq other := by
    obtain ⟨i, key⟩ := slot
    obtain ⟨j, other⟩ := other
    rw [fill, get?_define (index_lt_of_binds h)]
    simp only [Slot.mk.injEq]
  outer_eq i := by
    rw [fill, scope_define]
    split <;> rfl
  packages_eq i := by
    rw [fill, scope_define]
    split <;> rfl
  others_eq := rfl

end Store

namespace Eval

variable {s : Store} {scope : ScopeId} {name : String} {location : Option Location}

theorem assign_of_slot_ok {slot : Slot} (h : s.slot scope name location = .ok slot) (c : Cell) :
    Eval.assign scope name c location s = .done () (s.fill slot c) := by
  have hread : Eval.readOr (fun s => s.slot scope name location) s = .done slot s := by
    rw [Eval.readOr, h]
  exact Eval.bind_of_done hread

theorem assign_of_slot_error {fault : Fault} (h : s.slot scope name location = .error fault)
    (c : Cell) : Eval.assign scope name c location s = .stop (.fault fault) s := by
  have hread : Eval.readOr (fun s => s.slot scope name location) s = .stop (.fault fault) s := by
    rw [Eval.readOr, h]
  exact congrArg (Run.bind · _) hread

end Eval

/-- Assigning to a name and looking it up succeed in the same stores. `trace` looks the name up and
tells the slot that its meaning was read from. If there is one, assigning binds this slot to the new
cell and changes nothing else; if not, it leaves the store as it is, with a fault of the category
that looking up has. -/
theorem assign_fills_slot_of_resolve (s : Store) (scope : ScopeId) (name : String)
    (location : Option Location) (c : Cell) :
    ((∃ t, Eval.assign scope name c location s = .done () t) ↔
      ∃ read, s.resolve scope name location = .ok read) ∧
    (s.trace scope name location).map Prod.snd = s.resolve scope name location ∧
    (∀ slot read, s.trace scope name location = .ok (slot, read) →
      (s.scope slot.scope).get? slot.name = some read ∧
      ∃ t, Eval.assign scope name c location s = .done () t ∧ s.Rebinds slot c t) ∧
    ∀ fault, s.resolve scope name location = .error fault →
      ∃ fault', Eval.assign scope name c location s = .stop (.fault fault') s ∧
        fault'.category = fault.category := by
  have hslot : SlotsAgree ((s.trace scope name location).map Prod.fst)
      (s.slot scope name location) := Store.trace_slot
  rw [← Store.trace_map_snd]
  cases htrace : s.trace scope name location with
  | ok last =>
    obtain ⟨slot, read⟩ := last
    have hread : (s.scope slot.scope).get? slot.name = some read := Store.get?_of_trace htrace
    have hassign : Eval.assign scope name c location s = .done () (s.fill slot c) := by
      rw [htrace] at hslot
      generalize hfound : s.slot scope name location = found at hslot
      cases hslot
      exact Eval.assign_of_slot_ok hfound c
    have hbinds : (s.scope slot.scope).binds slot.name = true := by simp [Scope.binds, hread]
    refine ⟨⟨fun _ => ⟨read, rfl⟩, fun _ => ⟨_, hassign⟩⟩, rfl, ?_, ?_⟩
    · rintro _ _ ⟨⟩
      exact ⟨hread, _, hassign, Store.rebinds_fill hbinds c⟩
    · rintro _ ⟨⟩
  | error fault =>
    obtain ⟨fault', hassign, hcategory⟩ : ∃ fault',
        Eval.assign scope name c location s = .stop (.fault fault') s ∧
          fault'.category = fault.category := by
      rw [htrace] at hslot
      generalize hfound : s.slot scope name location = found at hslot
      cases hslot with
      | error hcategory => exact ⟨_, Eval.assign_of_slot_error hfound c, hcategory.symm⟩
    refine ⟨⟨?_, ?_⟩, rfl, ?_, ?_⟩
    · rintro ⟨t, hdone⟩
      rw [hassign] at hdone
      cases hdone
    · rintro ⟨_, ⟨⟩⟩
    · rintro _ _ ⟨⟩
    · rintro _ ⟨⟩
      exact ⟨fault', hassign, hcategory⟩

/-- A box that has itself as its member `self`. -/
def selfBox : Cell := ⟨⟨100⟩, none, .box ⟨1⟩⟩

/-- The store in which `o` is this box. -/
def selfHolding : Store :=
  ((Store.initial.newScope [Store.root]).2.define ⟨1⟩ "self" selfBox).define Store.root "o" selfBox

/-- The path of a name can run through the slot that is assigned. The name then leads nowhere, and
a shorter one leads to the new cell. -/
theorem assign_fills_slot_of_resolve_self :
    let five : Cell := ⟨⟨101⟩, none, .integer 5⟩
    ∃ t, Eval.assign Store.root "o.self.self" five none selfHolding = .done () t ∧
      selfHolding.Rebinds ⟨⟨1⟩, "self"⟩ five t ∧
      t.resolve Store.root "o.self" none = .ok five ∧
      ¬∃ read, t.resolve Store.root "o.self.self" none = .ok read := by
  intro five
  have htrace : selfHolding.trace Store.root "o.self.self" none =
      .ok (⟨⟨1⟩, "self"⟩, selfBox) := by rfl
  obtain ⟨-, t, hassign, ht⟩ :=
    (assign_fills_slot_of_resolve selfHolding Store.root "o.self.self" none five).2.2.1 _ _ htrace
  have hfilled : Eval.assign Store.root "o.self.self" five none selfHolding =
      .done () (selfHolding.fill ⟨⟨1⟩, "self"⟩ five) := by rfl
  rw [hassign] at hfilled
  cases hfilled
  refine ⟨_, hassign, ht, rfl, ?_⟩
  rintro ⟨read, hread⟩
  have hlost : (selfHolding.fill ⟨⟨1⟩, "self"⟩ five).resolve Store.root "o.self.self" none =
      .error (.failure (.unreachableMember "o.self.self" "self") none) := by rfl
  rw [hlost] at hread
  cases hread

end BracketScript
