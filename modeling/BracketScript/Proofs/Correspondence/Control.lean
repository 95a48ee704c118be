import BracketScript.Proofs.Correspondence.Lists

/-!
# Forms that bind names and steer the evaluation
-/

namespace BracketScript.Correspondence.Lawful

variable {A : Correspondence} {w : A.World} (hA : A.Lawful) {ev : Evaluator} {call call' : Call}
  {scope : ScopeId} {c d : Cell}

include hA

/-! ### Names -/

theorem bindingName (hcall : A.Calls w call call') (hc : A.codes w c d) :
    A.Evals w (fun _ name name' => name = name' ∧ A.Bindable name) (call.bindingName c)
      (call'.bindingName d) := by
  have hvalue := hA.codes_value hc
  rw [Call.bindingName, Call.bindingName, hcall.name_eq]
  generalize c.value = v at hvalue
  generalize d.value = v' at hvalue
  cases hvalue with
  | @symbol name hname =>
    simp only
    cases hdotted : Name.isDotted name with
    | true => exact hA.failAt hcall hc _
    | false => exact .pure fun _ _ => ⟨rfl, hname, hdotted⟩
  | _ => exact hA.failAt hcall hc _

theorem assignedName (hcall : A.Calls w call call') (hc : A.codes w c d) :
    A.Evals w (fun _ => Eq) (Form.assignedName call c) (Form.assignedName call' d) := by
  have hvalue := hA.codes_value hc
  rw [Form.assignedName, Form.assignedName]
  generalize c.value = v at hvalue
  generalize d.value = v' at hvalue
  cases hvalue with
  | symbol _ => exact .pure fun _ _ => rfl
  | _ => exact hA.failAt hcall hc _

theorem parameterNames (hcall : A.Calls w call call') {cells cells' : List Cell}
    (h : List.Forall₂ (A.codes w) cells cells') :
    A.Evals w (fun _ names names' => names = names' ∧ ∀ name ∈ names, A.Bindable name)
      (Form.parameterNames call cells) (Form.parameterNames call' cells') := by
  induction h with
  | nil => exact .pure fun _ _ => ⟨rfl, nofun⟩
  | @cons c d cells cells' hc _ ih =>
    have hvalue := hA.codes_value hc
    rw [Form.parameterNames, Form.parameterNames]
    generalize c.value = v at hvalue
    generalize d.value = v' at hvalue
    cases hvalue with
    | @symbol name hname =>
      simp only
      cases hdotted : Name.isDotted name with
      | true => exact hA.failAt hcall hc _
      | false =>
        refine ih.bind fun _ _ names names' hnames => .pure fun _ _ => ?_
        obtain ⟨rfl, hnames⟩ := hnames
        exact ⟨rfl, List.forall_mem_cons.2 ⟨⟨hname, hdotted⟩, hnames⟩⟩
    | _ => exact hA.failAt hcall hc _

/-! ### Binding -/

theorem bindCopy {name : String} (hc : A.values w c d) (hscope : A.isOpen w scope)
    (hname : A.Bindable name) :
    A.Evals w A.values (Form.define.bind name c scope) (Form.define.bind name d scope) := by
  refine (hA.copy hc).bind fun w₁ hle bound bound' hbound => ?_
  refine (hA.bindName hbound (hA.isOpen_mono hle hscope) hname).bind fun w₂ hle' _ _ _ => ?_
  exact .pure fun w₃ hle'' => hA.values_mono (hle'.trans hle'') hbound

theorem definition : A.Forms Form.define := by
  rintro ev hev w ⟨name, site, operands⟩ ⟨name', site', operands'⟩ scope hcall hscope
  rcases hcall.operands with _ | ⟨htarget, _ | ⟨hexpression, _ | _⟩⟩
  · exact hA.failArity hcall _
  · refine (hA.bindingName hcall htarget).bind fun w₁ hle₁ name name' hname => ?_
    obtain ⟨rfl, hname⟩ := hname
    refine (hA.newItems .nil).bind fun w₂ hle₂ value value' hvalue => ?_
    exact hA.bindCopy hvalue (hA.isOpen_mono (hle₁.trans hle₂) hscope) hname
  · refine (hA.bindingName hcall htarget).bind fun w₁ hle₁ name name' hname => ?_
    obtain ⟨rfl, hname⟩ := hname
    refine (hev.eval (hA.codes_mono hle₁ hexpression) (hA.isOpen_mono hle₁ hscope)).bind
      fun w₂ hle₂ value value' hvalue => ?_
    exact hA.bindCopy hvalue (hA.isOpen_mono (hle₁.trans hle₂) hscope) hname
  · exact hA.failArity hcall _

theorem assignment : A.Forms Form.assign := by
  rintro ev hev w ⟨name, site, operands⟩ ⟨name', site', operands'⟩ scope hcall hscope
  rcases hcall.operands with _ | ⟨htarget, _ | ⟨hexpression, _ | _⟩⟩
  · exact hA.failArity hcall _
  · exact hA.failArity hcall _
  · refine (hA.assignedName hcall htarget).bind_eq fun w₁ hle₁ name => ?_
    refine (hev.eval (hA.codes_mono hle₁ hexpression) (hA.isOpen_mono hle₁ hscope)).bind
      fun w₂ hle₂ value value' hvalue => ?_
    refine (hA.copy hvalue).bind fun w₃ hle₃ bound bound' hbound => ?_
    refine (hA.assign hbound (hA.codes_place htarget) name).bind fun w₄ hle₄ _ _ _ => ?_
    exact .pure fun w₅ hle₅ => hA.values_mono (hle₄.trans hle₅) hbound
  · exact hA.failArity hcall _

theorem lambda : A.Forms Form.lambda := by
  rintro ev hev w ⟨name, site, operands⟩ ⟨name', site', operands'⟩ scope hcall hscope
  rcases hcall.operands with _ | ⟨hparameters, _ | ⟨hbody, _ | _⟩⟩
  · exact hA.failArity hcall _
  · exact hA.failArity hcall _
  · rename_i parameters parameters' body body'
    have hlist := (hA.codes_value hparameters).isList_eq
    unfold Form.lambda
    simp only [hlist]
    cases hlist' : parameters'.value.isList with
    | false => exact hA.failAt hcall hparameters _
    | true =>
      have hread : A.Evals w (fun w => List.Forall₂ (A.codes w))
          (.read fun s => s.items parameters.id) (.read fun s => s.items parameters'.id) :=
        .read fun w₁ hle s t hst => hA.codeItems hst (hA.codes_mono hle hparameters)
          (isList_iff.1 (hlist.trans hlist'))
      refine hread.bind fun w₁ hle₁ cells cells' hcells => ?_
      refine (hA.parameterNames (hA.calls_mono hle₁ hcall) hcells).bind
        fun w₂ hle₂ names names' hnames => ?_
      obtain ⟨rfl, hnames⟩ := hnames
      exact hA.newValue (.lambda hnames (hA.codes_mono (hle₁.trans hle₂) hbody)) nofun
  · exact hA.failArity hcall _

theorem box : A.Forms Form.box := by
  rintro ev hev w ⟨name, site, operands⟩ ⟨name', site', operands'⟩ scope hcall hscope
  rcases hcall.operands with _ | ⟨htarget, _ | ⟨hbody, _ | _⟩⟩
  · exact hA.failArity hcall _
  · exact hA.failArity hcall _
  · refine (hA.bindingName hcall htarget).bind fun w₁ hle₁ name name' hname => ?_
    obtain ⟨rfl, hname⟩ := hname
    refine (hA.childScopes scope).bind fun w₂ hle₂ members members' hmembers => ?_
    obtain ⟨rfl, hmembers⟩ := hmembers
    refine (hev.eval (hA.codes_mono (hle₁.trans hle₂) hbody) hmembers).bind
      fun w₃ hle₃ _ _ _ => ?_
    refine (hA.newValue (.box members) nofun).bind fun w₄ hle₄ cell cell' hcell => ?_
    have hle := hle₁.trans (hle₂.trans (hle₃.trans hle₄))
    exact (hA.bindName hcell (hA.isOpen_mono hle hscope) hname).bind fun _ _ _ _ _ =>
      hA.newBool true
  · exact hA.failArity hcall _

/-! ### Blocks and branches -/

theorem block : A.Forms Form.block := by
  intro ev hev w call call' scope hcall hscope
  exact (hA.evalLast? hev hscope hcall.operands).bind fun _ _ _ _ hfound => hA.itemOrNil hfound

theorem ifElse : A.Forms Form.ifElse := by
  rintro ev hev w ⟨name, site, operands⟩ ⟨name', site', operands'⟩ scope hcall hscope
  rcases hcall.operands with
    _ | ⟨hcondition, _ | ⟨hconsequent, _ | ⟨halternative, _ | _⟩⟩⟩
  · exact hA.failArity hcall _
  · exact hA.failArity hcall _
  · refine (hev.eval hcondition hscope).bind fun w₁ hle value value' hvalue => ?_
    exact hA.branch hvalue
      (hev.eval (hA.codes_mono hle hconsequent) (hA.isOpen_mono hle hscope)) (hA.newBool true)
  · refine (hev.eval hcondition hscope).bind fun w₁ hle value value' hvalue => ?_
    have hscope := hA.isOpen_mono hle hscope
    exact hA.branch hvalue (hev.eval (hA.codes_mono hle hconsequent) hscope)
      (hev.eval (hA.codes_mono hle halternative) hscope)
  · exact hA.failArity hcall _

/-! ### Loops -/

theorem leave {σ τ : Type} {R : A.World → σ → τ → Prop} :
    A.Evals w (Rounds R A.values) Form.leave Form.leave :=
  hA.newNil.bind fun _ _ _ _ hresult => .pure fun _ hle => .finish (hA.values_mono hle hresult)

theorem unlessLeft {σ τ : Type} {R : A.World → σ → τ → Prop} {flow flow' : Flow}
    {next : Eval (Round σ Cell)} {next' : Eval (Round τ Cell)} (hflow : A.Flows w flow flow')
    (hnext : A.Evals w (Rounds R A.values) next next') :
    A.Evals w (Rounds R A.values) (Form.unlessLeft flow next) (Form.unlessLeft flow' next') := by
  cases hflow with
  | value _ => exact hnext
  | breakOut => exact hA.leave
  | yieldUp hvalue => exact .stop fun _ hle => .yieldUp (hA.values_mono hle hvalue)

theorem loopRound (hev : A.Evaluates ev) {condition condition' post post' body body' : Cell}
    (hcondition : A.codes w condition condition') (hpost : A.codes w post post')
    (hbody : A.codes w body body') (outer : ScopeId) :
    A.Evals w (Rounds (fun _ _ _ => True) A.values) (Form.loopRound ev condition post body outer ())
      (Form.loopRound ev condition' post' body' outer ()) := by
  refine (hA.childScopes outer).bind fun w₁ hle₁ scope scope' hscope => ?_
  obtain ⟨rfl, hscope⟩ := hscope
  refine (hev.eval (hA.codes_mono hle₁ hcondition) hscope).bind
    fun w₂ hle₂ value value' hvalue => ?_
  refine hA.branch hvalue ?_ hA.leave
  have hle := hle₁.trans hle₂
  have hscope := hA.isOpen_mono hle₂ hscope
  refine (hev.eval (hA.codes_mono hle hbody) hscope).flow.bind fun w₃ hle₃ flow flow' hflow => ?_
  refine hA.unlessLeft hflow ?_
  have hle := hle.trans hle₃
  have hscope := hA.isOpen_mono hle₃ hscope
  refine (hev.eval (hA.codes_mono hle hpost) hscope).flow.bind fun w₄ _ flow flow' hflow => ?_
  exact hA.unlessLeft hflow ((hA.work 1).bind fun _ _ _ _ _ => .pure fun _ _ => .again trivial)

theorem loop : A.Forms Form.loop := by
  rintro ev hev w ⟨name, site, operands⟩ ⟨name', site', operands'⟩ scope hcall hscope
  rcases hcall.operands with
    _ | ⟨hpre, _ | ⟨hcondition, _ | ⟨hpost, _ | ⟨hbody, _ | _⟩⟩⟩⟩
  · exact hA.failArity hcall _
  · exact hA.failArity hcall _
  · exact hA.failArity hcall _
  · exact hA.failArity hcall _
  · refine (hA.childScopes scope).bind fun w₁ hle₁ outer outer' houter => ?_
    obtain ⟨rfl, houter⟩ := houter
    refine (hev.eval (hA.codes_mono hle₁ hpre) houter).bind fun w₂ hle₂ _ _ _ => ?_
    have hle := hle₁.trans hle₂
    refine Evals.loop (R := fun _ _ _ => True) (fun w₃ hle₃ _ _ _ => ?_) ev.rounds trivial
      hA.values_mono
    have hle := hle.trans hle₃
    exact hA.loopRound hev (hA.codes_mono hle hcondition) (hA.codes_mono hle hpost)
      (hA.codes_mono hle hbody) outer
  · exact hA.failArity hcall _

/-- What the name of an item is bound to is put back into the list after the same check as any new
item. -/
theorem writeBack (hcall : A.Calls w call call') (hc : A.values w c d) (hlist : c.value = .list)
    (name : String) (index : Nat) (scope : ScopeId) :
    A.Evals w (fun _ _ _ => True) (Form.writeBack call name c index scope)
      (Form.writeBack call' name d index scope) := by
  have hread : A.Evals w (fun w => Option.Rel (A.values w))
      (Eval.read fun s => (s.scope scope).get? name)
      (Eval.read fun s => (s.scope scope).get? name) :=
    .read fun _ _ _ _ hst => hA.get? scope name hst
  refine hread.bind fun w₁ hle₁ current current' hcurrent => ?_
  cases hcurrent with
  | none => exact .pure fun _ _ => trivial
  | some hcurrent =>
    have hc := hA.values_mono hle₁ hc
    -- the body of the loop may have changed the list, so the check counts only here
    refine hA.checked (hA.calls_mono hle₁ hcall) hc hcurrent fun w₂ hle₂ s t hst hapart => ?_
    obtain ⟨w₃, hle₃, hst₃⟩ := hA.setItem hst (hA.values_mono hle₂ hc) hlist
      (hA.values_mono hle₂ hcurrent) hapart index
    exact .done hle₃ hst₃ trivial

theorem visit (hev : A.Evaluates ev) (hcall : A.Calls w call call') (hc : A.values w c d)
    (hlist : c.value = .list) {body body' : Cell} (hbody : A.codes w body body') {name : String}
    (hname : A.Bindable name) (scope : ScopeId) (index : Nat) :
    A.Evals w (Rounds (fun _ => Eq) A.values) (Form.visit ev call name c body scope index)
      (Form.visit ev call' name d body' scope index) := by
  have hread : A.Evals w (fun w => Option.Rel (A.values w))
      (Eval.read fun s => (s.row c.id)[index]?) (Eval.read fun s => (s.row d.id)[index]?) :=
    .read fun _ hle _ _ hst => hA.item? hst (hA.values_mono hle hc) hlist index
  refine hread.bind fun w₁ hle₁ item item' hitem => ?_
  cases hitem with
  | none => exact hA.leave
  | some hitem =>
    refine (hA.childScopes scope).bind fun w₂ hle₂ inner inner' hinner => ?_
    obtain ⟨rfl, hinner⟩ := hinner
    refine (hA.bindName (hA.values_mono hle₂ hitem) hinner hname).bind fun w₃ hle₃ _ _ _ => ?_
    have hle := hle₁.trans (hle₂.trans hle₃)
    refine (hev.eval (hA.codes_mono hle hbody) (hA.isOpen_mono hle₃ hinner)).flow.bind
      fun w₄ hle₄ flow flow' hflow => ?_
    have hle := hle.trans hle₄
    refine (hA.writeBack (hA.calls_mono hle hcall) (hA.values_mono hle hc) hlist name index
      inner).bind fun w₅ hle₅ _ _ _ => ?_
    exact hA.unlessLeft (hA.flows_mono hle₅ hflow)
      ((hA.work 1).bind fun _ _ _ _ _ => .pure fun _ _ => .again rfl)

theorem iterate : A.Forms Form.iterate := by
  rintro ev hev w ⟨name, site, operands⟩ ⟨name', site', operands'⟩ scope hcall hscope
  rcases hcall.operands with
    _ | ⟨htarget, _ | ⟨hexpression, _ | ⟨hbody, _ | _⟩⟩⟩
  · exact hA.failArity hcall _
  · exact hA.failArity hcall _
  · exact hA.failArity hcall _
  · refine (hA.bindingName hcall htarget).bind fun w₁ hle₁ name name' hname => ?_
    obtain ⟨rfl, hname⟩ := hname
    refine (hev.eval (hA.codes_mono hle₁ hexpression) (hA.isOpen_mono hle₁ hscope)).bind
      fun w₂ hle₂ source source' hsource => ?_
    have hle := hle₁.trans hle₂
    rw [(hA.values_value hsource).isList_eq]
    cases hlist : source'.value.isList with
    | false => exact hA.failAt (hA.calls_mono hle hcall) (hA.codes_mono hle hexpression) _
    | true =>
      have hlist := isList_iff.1 ((hA.values_value hsource).isList_eq.trans hlist)
      refine Evals.loop (R := fun _ => Eq) (fun w₃ hle₃ index index' hindex => ?_) ev.rounds rfl
        hA.values_mono
      subst hindex
      have hle := hle.trans hle₃
      exact hA.visit hev (hA.calls_mono hle hcall) (hA.values_mono hle₃ hsource) hlist
        (hA.codes_mono hle hbody) hname scope index
  · exact hA.failArity hcall _

/-! ### Leaving -/

theorem breakOut : A.Forms Form.breakOut := by
  rintro ev hev w ⟨name, site, operands⟩ ⟨name', site', operands'⟩ scope hcall hscope
  rcases hcall.operands with _ | ⟨_, _⟩
  · exact .stop fun _ _ => .breakOut
  · exact hA.failArity hcall _

theorem yieldUp : A.Forms Form.yieldUp := by
  rintro ev hev w ⟨name, site, operands⟩ ⟨name', site', operands'⟩ scope hcall hscope
  rcases hcall.operands with _ | ⟨hexpression, _ | _⟩
  · exact hA.failArity hcall _
  · refine (hev.eval hexpression hscope).bind fun w₁ _ value value' hvalue => ?_
    exact .stop fun _ hle => .yieldUp (hA.values_mono hle hvalue)
  · exact hA.failArity hcall _

theorem bindable_faultName : A.Bindable Form.faultName :=
  ⟨hA.names_faultName, by decide⟩

theorem tryOr : A.Forms Form.tryOr := by
  rintro ev hev w ⟨name, site, operands⟩ ⟨name', site', operands'⟩ scope hcall hscope
  rcases hcall.operands with _ | ⟨hbody, _ | ⟨hhandler, _ | _⟩⟩
  · exact hA.failArity hcall _
  · exact hA.failArity hcall _
  · refine (hev.eval hbody hscope).attempt.bind fun w₁ hle₁ result result' hresult => ?_
    cases hresult with
    | ok hvalue => exact hA.pureValue hvalue
    | error hfault =>
      simp only [hfault.message_eq]
      refine (hA.childScopes scope).bind fun w₂ hle₂ inner inner' hinner => ?_
      obtain ⟨rfl, hinner⟩ := hinner
      refine (hA.newString _).bind fun w₃ hle₃ text text' htext => ?_
      refine (hA.bindName htext (hA.isOpen_mono hle₃ hinner) hA.bindable_faultName).bind
        fun w₄ hle₄ _ _ _ => ?_
      exact hev.eval (hA.codes_mono (hle₁.trans (hle₂.trans (hle₃.trans hle₄))) hhandler)
        (hA.isOpen_mono (hle₃.trans hle₄) hinner)
  · exact hA.failArity hcall _

theorem raise : A.Forms Form.raise := by
  rintro ev hev w ⟨name, site, operands⟩ ⟨name', site', operands'⟩ scope hcall hscope
  rcases hcall.operands with _ | ⟨hexpression, _ | _⟩
  · exact hA.failArity hcall _
  · refine (hev.eval hexpression hscope).bind fun w₁ hle₁ value value' hvalue => ?_
    refine (hA.text hvalue scope).bind_eq fun w₂ hle₂ text => ?_
    exact hA.fail (hA.calls_mono (hle₁.trans hle₂) hcall) _
  · exact hA.failArity hcall _

theorem assertEach (hev : A.Evaluates ev) (hcall : A.Calls w call call')
    (hscope : A.isOpen w scope) (label : String) {cells cells' : List Cell}
    (h : List.Forall₂ (A.codes w) cells cells') :
    A.Evals w (fun _ _ _ => True) (Form.assertEach ev call label scope cells)
      (Form.assertEach ev call' label scope cells') := by
  induction cells generalizing w cells' with
  | nil =>
    cases h
    exact .pure fun _ _ => trivial
  | cons condition cells ih =>
    cases h with
    | cons hcondition hcells =>
    refine (hev.eval hcondition hscope).bind fun w₁ hle value value' hvalue => ?_
    have hcall := hA.calls_mono hle hcall
    have hcondition := hA.codes_mono hle hcondition
    have hdata := hA.values_value hvalue
    have hholds : Form.holds? value.value = Form.holds? value'.value :=
      hdata.congr fun _ _ _ _ => rfl
    rw [hholds, hdata.kind_eq]
    match Form.holds? value'.value with
    | some true => exact ih hcall (hA.isOpen_mono hle hscope) (hA.forall₂_codes_mono hle hcells)
    | some false => exact .fail (.assertion label (hA.placeOf hcall hcondition))
    | none => exact hA.failAt hcall hcondition _

theorem assertAll : A.Forms Form.assertAll := by
  rintro ev hev w ⟨name, site, operands⟩ ⟨name', site', operands'⟩ scope hcall hscope
  rcases hcall.operands with _ | ⟨hlabel, _ | ⟨hcondition, hconditions⟩⟩
  · exact hA.failArity hcall _
  · exact hA.failArity hcall _
  · rename_i label label' condition condition' conditions conditions'
    unfold Form.assertAll
    simp only [(hA.codes_value hlabel).string?_eq]
    cases label'.value.string? with
    | none => exact hA.failAt hcall hlabel _
    | some text =>
      exact (hA.assertEach hev hcall hscope text (.cons hcondition hconditions)).bind
        fun _ _ _ _ _ => hA.newBool true

theorem exitProcess : A.Forms Form.exitProcess := by
  rintro ev hev w ⟨name, site, operands⟩ ⟨name', site', operands'⟩ scope hcall hscope
  rcases hcall.operands with _ | ⟨hexpression, _ | _⟩
  · exact hA.failArity hcall _
  · refine (hev.eval hexpression hscope).bind fun w₁ hle value value' hvalue => ?_
    rw [(hA.values_value hvalue).integer?_eq]
    cases value'.value.integer? with
    | none => exact hA.fail (hA.calls_mono hle hcall) _
    | some status => exact .stop fun _ _ => .exit status
  · exact hA.failArity hcall _

end BracketScript.Correspondence.Lawful
