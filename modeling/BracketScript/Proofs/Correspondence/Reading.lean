import BracketScript.Proofs.Correspondence

/-!
# What corresponding stores say

Names mean corresponding values in corresponding stores, and texts and containment are the same. The
walks into values are compared for one bound first. The stores may be of different depth, but what
fits into the smaller one is not cut off by either bound.
-/

namespace BracketScript.Correspondence

variable {A : Correspondence} {w : A.World} {s t : Store} {c d : Cell}

theorem Faults.message_eq {fault fault' : Fault} (h : A.Faults fault fault') :
    fault.message = fault'.message := by
  cases h <;> rfl

theorem Faults.category_eq {fault fault' : Fault} (h : A.Faults fault fault') :
    fault.category = fault'.category := by
  cases h <;> rfl

namespace DataValues

variable {bindable : String → Prop} {codes codes' : Cell → Cell → Prop} {v v' : Value}

theorem imp_codes (h : DataValues bindable codes v v') (hcodes : ∀ c d, codes c d → codes' c d) :
    DataValues bindable codes' v v' := by
  cases h with
  | lambda hnames hbody => exact .lambda hnames (hcodes _ _ hbody)
  | _ => constructor

/-- What does not look into the bodies of lambdas is the same. -/
theorem congr (h : DataValues bindable codes v v') {β : Type} {f : Value → β}
    (hf : ∀ parameters body body' scope,
      f (.lambda parameters body scope) = f (.lambda parameters body' scope)) : f v = f v' := by
  cases h with
  | lambda _ _ => exact hf _ _ _ _
  | _ => rfl

theorem kind_eq (h : DataValues bindable codes v v') : v.kind = v'.kind :=
  h.congr fun _ _ _ _ => rfl

theorem integer?_eq (h : DataValues bindable codes v v') : v.integer? = v'.integer? :=
  h.congr fun _ _ _ _ => rfl

theorem string?_eq (h : DataValues bindable codes v v') : v.string? = v'.string? :=
  h.congr fun _ _ _ _ => rfl

theorem isNil_eq (h : DataValues bindable codes v v') : v.isNil = v'.isNil :=
  h.congr fun _ _ _ _ => rfl

theorem isList_eq (h : DataValues bindable codes v v') : v.isList = v'.isList :=
  h.congr fun _ _ _ _ => rfl

theorem members?_eq (h : DataValues bindable codes v v') : v.members? = v'.members? :=
  h.congr fun _ _ _ _ => rfl

theorem isCopied_eq (h : DataValues bindable codes v v') : v.isCopied = v'.isCopied :=
  h.congr fun _ _ _ _ => rfl

end DataValues

theorem CodeValues.string?_eq {names : String → Prop} {v v' : Value} (h : CodeValues names v v') :
    v.string? = v'.string? := by
  cases h <;> rfl

theorem CodeValues.isList_eq {names : String → Prop} {v v' : Value} (h : CodeValues names v v') :
    v.isList = v'.isList := by
  cases h <;> rfl

theorem isList_iff {v : Value} : v.isList = true ↔ v = .list := by
  cases v <;> simp [Value.isList]

/-! ### Lists that correspond item by item -/

section Forall₂

variable {α β : Type} {R : Cell → Cell → Prop} {cells cells' : List Cell}

theorem isSome_eq {found found' : Option Cell} (h : Option.Rel R found found') :
    found.isSome = found'.isSome := by
  cases h <;> rfl

theorem optionRel_imp {R' : Cell → Cell → Prop} (hR : ∀ c d, R c d → R' c d)
    {found found' : Option Cell} (h : Option.Rel R found found') : Option.Rel R' found found' := by
  cases h with
  | none => exact .none
  | some hcd => exact .some (hR _ _ hcd)

theorem any_eq (h : List.Forall₂ R cells cells') {f f' : Cell → Bool}
    (hf : ∀ c d, R c d → f c = f' d) : cells.any f = cells'.any f' := by
  induction h with
  | nil => rfl
  | cons hcd _ ih => rw [List.any_cons, List.any_cons, hf _ _ hcd, ih]

theorem map_eq (h : List.Forall₂ R cells cells') {f f' : Cell → β}
    (hf : ∀ c d, R c d → f c = f' d) : cells.map f = cells'.map f' := by
  induction h with
  | nil => rfl
  | cons hcd _ ih => rw [List.map_cons, List.map_cons, hf _ _ hcd, ih]

theorem mapM_ok (h : List.Forall₂ R cells cells') {f f' : Cell → Except α β}
    (hf : ∀ c d, R c d → ∃ b, f c = .ok b ∧ f' d = .ok b) :
    ∃ bs, cells.mapM f = .ok bs ∧ cells'.mapM f' = .ok bs := by
  induction h with
  | nil => exact ⟨[], rfl, rfl⟩
  | cons hcd _ ih =>
    obtain ⟨b, hb, hb'⟩ := hf _ _ hcd
    obtain ⟨bs, hbs, hbs'⟩ := ih
    refine ⟨b :: bs, ?_, ?_⟩
    · simp [List.mapM_cons, hb, hbs, bind, Except.bind, pure, Except.pure]
    · simp [List.mapM_cons, hb', hbs', bind, Except.bind, pure, Except.pure]

theorem mapM_congr {f f' : Cell → Except α β} (h : ∀ c ∈ cells, f c = f' c) :
    cells.mapM f = cells.mapM f' := by
  induction cells with
  | nil => rfl
  | cons c cells ih =>
    rw [List.mapM_cons, List.mapM_cons, h c List.mem_cons_self,
      ih fun d hd => h d (List.mem_cons_of_mem _ hd)]

theorem rel_getElem? (h : List.Forall₂ R cells cells') (i : Nat) :
    Option.Rel R cells[i]? cells'[i]? := by
  induction h generalizing i with
  | nil => exact .none
  | cons hcd _ ih =>
    cases i with
    | zero => exact .some hcd
    | succ i => exact ih i

theorem exists_of_mem (h : List.Forall₂ R cells cells') {c : Cell} (hc : c ∈ cells) :
    ∃ d ∈ cells', R c d := by
  induction h with
  | nil => cases hc
  | cons hcd _ ih =>
    rcases List.mem_cons.1 hc with rfl | hc
    · exact ⟨_, List.mem_cons_self, hcd⟩
    · obtain ⟨d, hd, hR⟩ := ih hc
      exact ⟨d, List.mem_cons_of_mem _ hd, hR⟩

end Forall₂

namespace Lawful

variable (hA : A.Lawful)

include hA

/-! ### Names -/

theorem chain_eq (hst : A.stores w s t) (id : ScopeId) : s.chain id = t.chain id := by
  rw [Store.chain, Store.chain, hA.outer_eq id hst]

theorem binds_eq (hst : A.stores w s t) (id : ScopeId) (name : String) :
    (s.scope id).binds name = (t.scope id).binds name :=
  isSome_eq (hA.get? id name hst)

theorem lookup? (hst : A.stores w s t) (id : ScopeId) (name : String) :
    Option.Rel (A.values w) (s.lookup? id name) (t.lookup? id name) := by
  rw [Store.lookup?, Store.lookup?, hA.chain_eq hst]
  induction t.chain id with
  | nil => exact .none
  | cons i ids ih =>
    have hget := hA.get? i name hst
    rw [List.findSome?_cons, List.findSome?_cons]
    generalize (s.scope i).get? name = found at hget
    generalize (t.scope i).get? name = found' at hget
    cases hget with
    | some hvalue => exact .some hvalue
    | none => exact ih

theorem owner?_eq (hst : A.stores w s t) (id : ScopeId) (name : String) :
    s.owner? id name = t.owner? id name := by
  rw [Store.owner?, Store.owner?, hA.chain_eq hst]
  simp only [hA.binds_eq hst]

theorem isLoaded_eq (hst : A.stores w s t) (id : ScopeId) (package : String) :
    s.isLoaded id package = t.isLoaded id package := by
  rw [Store.isLoaded, Store.isLoaded, hA.chain_eq hst]
  simp only [hA.packages_eq _ hst]

variable {place place' : Option Location}

theorem follow (hst : A.stores w s t) (hplace : A.places place place') (name : String)
    (hc : A.values w c d) (segments : List String) :
    A.Results (A.values w) (s.follow name place c segments) (t.follow name place' d segments) := by
  induction segments generalizing c d with
  | nil => exact .ok hc
  | cons segment segments ih =>
    rw [Store.follow, Store.follow, (hA.values_value hc).members?_eq]
    cases d.value.members? with
    | none => exact .error (.failure _ hplace)
    | some members =>
      have hget := hA.get? members segment hst
      simp only
      generalize (s.scope members).get? segment = found at hget
      generalize (t.scope members).get? segment = found' at hget
      cases hget with
      | none => exact .error (.unknownName name hplace)
      | some hvalue => exact ih hvalue

theorem resolve (hst : A.stores w s t) (hplace : A.places place place') (id : ScopeId)
    (name : String) :
    A.Results (A.values w) (s.resolve id name place) (t.resolve id name place') := by
  have hlookup := hA.lookup? hst id (Name.segments name).1
  simp only [Store.resolve]
  generalize s.lookup? id (Name.segments name).1 = found at hlookup
  generalize t.lookup? id (Name.segments name).1 = found' at hlookup
  cases hlookup with
  | none => exact .error (.unknownName name hplace)
  | some hvalue => exact hA.follow hst hplace name hvalue _

/-- A name has the same slot, which is bound. -/
theorem slot (hst : A.stores w s t) (hplace : A.places place place') (id : ScopeId)
    (name : String) :
    A.Results (fun slot slot' => slot = slot' ∧ (s.scope slot.scope).binds slot.name = true)
      (s.slot id name place) (t.slot id name place') := by
  rw [Store.slot, Store.slot]
  cases Name.splitLast? name with
  | none =>
    simp only [Store.plainSlot, ← hA.owner?_eq hst]
    cases howner : s.owner? id name with
    | none => exact .error (.unknownName name hplace)
    | some owner =>
      have hbinds : (s.scope owner).binds name = true := by
        simpa using List.find?_some howner
      exact .ok ⟨rfl, hbinds⟩
  | some split =>
    obtain ⟨path, member⟩ := split
    have hresolve := hA.resolve hst hplace id path
    simp only
    generalize s.resolve id path place = found at hresolve
    generalize t.resolve id path place' = found' at hresolve
    cases hresolve with
    | error hfault => exact .error hfault
    | @ok holder holder' hvalue =>
      simp only [bind, Except.bind, (hA.values_value hvalue).members?_eq]
      cases holder'.value.members? with
      | none => exact .error (.failure _ hplace)
      | some members =>
        simp only [← hA.binds_eq hst]
        split
        · next hbinds => exact .ok ⟨rfl, hbinds⟩
        · exact .error (.unknownName name hplace)

/-! ### Containment and texts -/

theorem reachesWithin_eq (hst : A.stores w s t) {target target' : Cell}
    (htarget : A.values w target target') (hc : A.values w c d) (n : Nat) :
    s.reachesWithin target n c = t.reachesWithin target' n d := by
  induction n generalizing c d with
  | zero => rfl
  | succ n ih =>
    rw [Store.reachesWithin_succ, Store.reachesWithin_succ, hA.same_eq hc htarget,
      (hA.values_value hc).isList_eq]
    by_cases hlist : c.value = .list
    · rw [any_eq (hA.valueItems hst hc hlist) fun _ _ hitem => ih hitem]
    · have hvalue : d.value.isList = false := by
        rw [← (hA.values_value hc).isList_eq, Bool.eq_false_iff, Ne, isList_iff]
        exact hlist
      rw [hvalue, Bool.false_and, Bool.false_and]

theorem reaches_eq (hst : A.stores w s t) {target target' : Cell}
    (htarget : A.values w target target') (hc : A.values w c d) :
    s.reaches c target = t.reaches d target' := by
  rw [Store.reaches, Store.reaches, ← hA.reachesWithin_eq hst htarget hc]
  -- what is left is one store walked with the bounds of both
  rcases hA.fits_value hst hc with hdepth | ⟨hle, hfits⟩
  · rw [hdepth]
  · exact (Store.reachesWithin_of_fits hle hfits target).symm

/-- The printed text of a value is the same, and there is one. -/
theorem stringifyWithin (hst : A.stores w s t) (hc : A.values w c d) (id : ScopeId) (n : Nat) :
    ∃ text, s.stringifyWithin id n c = .ok text ∧ t.stringifyWithin id n d = .ok text := by
  induction n generalizing c d with
  | zero => exact ⟨"", rfl, rfl⟩
  | succ n ih =>
    have hvalue := hA.values_value hc
    rw [Store.stringifyWithin, Store.stringifyWithin]
    generalize hcv : c.value = v at hvalue
    generalize d.value = v' at hvalue
    cases hvalue with
    | list =>
      obtain ⟨texts, htexts, htexts'⟩ := mapM_ok (hA.valueItems hst hc hcv) fun _ _ h => ih h
      simp only [htexts, htexts', bind, Except.bind]
      exact ⟨_, rfl, rfl⟩
    | _ => exact ⟨_, rfl, rfl⟩

/-- A larger bound than one can go deep makes no difference to the printed text. -/
theorem stringifyWithin_of_not_goesDeep (hst : A.stores w s t) (hc : A.values w c d) (id : ScopeId)
    {n m : Nat} (h : n ≤ m) (hdeep : ¬s.GoesDeep n c) :
    s.stringifyWithin id m c = s.stringifyWithin id n c := by
  induction n generalizing m c d with
  | zero => exact absurd trivial hdeep
  | succ n ih =>
    obtain ⟨m, rfl⟩ : ∃ k, m = k + 1 :=
      Nat.exists_eq_add_of_le' (Nat.le_trans (Nat.le_add_left 1 n) h)
    have hvalue := hA.values_value hc
    rw [Store.stringifyWithin, Store.stringifyWithin]
    generalize hcv : c.value = v at hvalue
    generalize d.value = v' at hvalue
    cases hvalue with
    | list =>
      have hitems : ∀ item ∈ s.items c.id,
          s.stringifyWithin id m item = s.stringifyWithin id n item := by
        intro item hitem
        obtain ⟨item', -, hvalues⟩ := exists_of_mem (hA.valueItems hst hc hcv) hitem
        exact ih hvalues (Nat.le_of_succ_le_succ h) fun hitem' => hdeep ⟨hcv, item, hitem, hitem'⟩
      simp only [mapM_congr hitems]
    | _ => rfl

theorem stringifyWithin_of_fits (hst : A.stores w s t) (hc : A.values w c d) (id : ScopeId)
    {n m : Nat} (h : n ≤ m) (hfits : s.Fits n c) :
    s.stringifyWithin id m c = s.stringifyWithin id n c :=
  hA.stringifyWithin_of_not_goesDeep hst hc id h (Store.not_goesDeep_of_fits hfits)

/-- Printing a value comes to an end exactly if one cannot go on for ever from an item to another
one. -/
theorem settles_iff (hst : A.stores w s t) (hc : A.values w c d) (id : ScopeId) :
    (∃ text m, ∀ n, m ≤ n → s.stringifyWithin id n c = .ok text) ↔ ∃ n, ¬s.GoesDeep n c := by
  constructor
  · rintro ⟨text, m, htext⟩
    by_contra hdeep
    rw [not_exists_not] at hdeep
    have hlength := (hdeep (max m (text.length + 1))).le_length (htext _ (Nat.le_max_left _ _))
    omega
  · rintro ⟨n, hdeep⟩
    obtain ⟨text, htext, -⟩ := hA.stringifyWithin hst hc id n
    refine ⟨text, n, fun m hm => ?_⟩
    rw [hA.stringifyWithin_of_not_goesDeep hst hc id hm hdeep, htext]

theorem stringify (hst : A.stores w s t) (hc : A.values w c d) (id : ScopeId) :
    ∃ text, s.stringify id c = .ok text ∧ t.stringify id d = .ok text := by
  obtain ⟨text, htext, htext'⟩ := hA.stringifyWithin hst hc id t.depth
  refine ⟨text, ?_, htext'⟩
  rcases hA.fits_value hst hc with hdepth | ⟨hle, hfits⟩
  · rw [Store.stringify, hdepth, htext]
  · rw [Store.stringify, ← hA.stringifyWithin_of_fits hst hc id hle hfits, htext]

theorem quoteWithin_eq (hst : A.stores w s t) (hc : A.codes w c d) (n : Nat) :
    s.quoteWithin n c = t.quoteWithin n d := by
  induction n generalizing c d with
  | zero => rfl
  | succ n ih =>
    have hvalue := hA.codes_value hc
    rw [Store.quoteWithin, Store.quoteWithin]
    generalize hcv : c.value = v at hvalue
    generalize d.value = v' at hvalue
    cases hvalue with
    | list => simp only [map_eq (hA.codeItems hst hc hcv) fun _ _ hitem => ih hitem]
    | _ => rfl

theorem quote_eq (hst : A.stores w s t) (hc : A.codes w c d) : s.quote c = t.quote d := by
  rw [Store.quote, Store.quote, ← hA.quoteWithin_eq hst hc]
  rcases hA.fits_code hst hc with hdepth | ⟨hle, hfits⟩
  · rw [hdepth]
  · exact (Store.quoteWithin_of_fits hle hfits).symm

/-! ### Items -/

theorem size_eq (hst : A.stores w s t) (hc : A.values w c d) (hlist : c.value = .list) :
    (s.row c.id).size = (t.row d.id).size := by
  simpa [Store.items] using (hA.valueItems hst hc hlist).length_eq

theorem item? (hst : A.stores w s t) (hc : A.values w c d) (hlist : c.value = .list) (i : Nat) :
    Option.Rel (A.values w) (s.row c.id)[i]? (t.row d.id)[i]? := by
  rw [← Array.getElem?_toList, ← Array.getElem?_toList]
  exact rel_getElem? (hA.valueItems hst hc hlist) i

theorem isTruthy_eq (hst : A.stores w s t) (hc : A.values w c d) :
    s.isTruthy c = t.isTruthy d := by
  have hvalue := hA.values_value hc
  rw [Store.isTruthy, Store.isTruthy]
  generalize hcv : c.value = v at hvalue
  generalize d.value = v' at hvalue
  cases hvalue with
  | list => simp only [Array.isEmpty, hA.size_eq hst hc hcv]
  | _ => rfl

end Lawful

end BracketScript.Correspondence
