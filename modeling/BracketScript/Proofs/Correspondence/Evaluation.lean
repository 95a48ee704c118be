import BracketScript.Proofs.Correspondence.Control

/-!
# Corresponding cells evaluate alike

Source texts, tasks and calls are what remains to be related. The evaluator of every bound then
keeps every lawful correspondence, by induction on the bound.
-/

namespace BracketScript.Correspondence

variable {A : Correspondence} {w : A.World} {ev : Evaluator}

theorem look (hev : A.Evaluates ev) (path : String) :
    A.Evals w (fun _ entry entry' => entry = entry' ∧ A.entries path entry) (ev.host.look path)
      (ev.host.look path) := by
  rw [Host.look]
  cases hknown : ev.host.known path with
  | some entry => exact .pure fun _ _ => ⟨rfl, hev.entries hknown⟩
  | none => exact .await fun _ _ => .entry path

theorem firstFile (hev : A.Evaluates ev) (paths : List String) :
    A.Evals w
      (fun _ found found' => found = found' ∧
        ∀ path content, found = some (path, content) → A.entries path (.file content))
      (Search.firstFile ev.host.look paths) (Search.firstFile ev.host.look paths) := by
  induction paths generalizing w with
  | nil => exact .pure fun _ _ => ⟨rfl, nofun⟩
  | cons path paths ih =>
    refine (look hev path).bind fun w₁ _ entry entry' hentry => ?_
    obtain ⟨rfl, hentry⟩ := hentry
    cases entry with
    | file content =>
      refine .pure fun _ _ => ⟨rfl, fun path' content' hfound => ?_⟩
      cases hfound
      exact hentry
    | _ => exact ih

namespace Lawful

variable (hA : A.Lawful) {call call' : Call} {scope : ScopeId} {c d : Cell}

include hA

/-! ### Source texts -/

theorem evaluate (hev : A.Evaluates ev) (hc : A.codes w c d) (hscope : A.isOpen w scope) :
    A.Evals w A.values (ev.evaluate c scope) (ev.evaluate d scope) :=
  hA.settle (hev.eval hc hscope)

section Texts

variable {origin : Option String} {text : String} {trees : List Tree}

theorem runTree (hev : A.Evaluates ev) (hscope : A.isOpen w scope) (hsource : A.sources origin text)
    (hparse : parse origin text = .ok trees) {tree : Tree} (htree : tree ∈ trees) :
    A.Evals w A.values (ev.runTree scope tree) (ev.runTree scope tree) := by
  have hload : A.Evals w A.codes (Eval.make fun s => s.load tree)
      (Eval.make fun s => s.load tree) :=
    .make fun _ _ _ _ hst => hA.load hst hsource hparse htree
  exact hload.bind fun _ hle _ _ hcode => hA.evaluate hev hcode (hA.isOpen_mono hle hscope)

theorem runTrees (hev : A.Evaluates ev) (hscope : A.isOpen w scope)
    (hsource : A.sources origin text) (hparse : parse origin text = .ok trees)
    {others : List Tree} (hothers : ∀ tree ∈ others, tree ∈ trees) :
    A.Evals w (fun w => Option.Rel (A.values w)) (ev.runTrees scope others)
      (ev.runTrees scope others) := by
  induction others generalizing w with
  | nil => exact .pure fun _ _ => .none
  | cons tree others ih =>
    have hrun := hA.runTree hev hscope hsource hparse (hothers tree List.mem_cons_self)
    cases others with
    | nil => exact hrun.map fun _ _ _ _ hvalue _ hle => .some (hA.values_mono hle hvalue)
    | cons next others =>
      refine hrun.bind fun _ hle _ _ _ => ih (hA.isOpen_mono hle hscope) fun other hother => ?_
      exact hothers other (List.mem_cons_of_mem tree hother)

theorem runText (hev : A.Evaluates ev) (hscope : A.isOpen w scope)
    (hsource : A.sources origin text) :
    A.Evals w A.values (ev.runText origin text scope) (ev.runText origin text scope) := by
  refine (hA.work 1).bind fun w₁ hle₁ _ _ _ => ?_
  refine (hA.workThrough text).bind fun w₂ hle₂ _ _ _ => ?_
  cases hparse : parse origin text with
  | error error => exact .fail (.parse hsource hparse)
  | ok trees =>
    have hscope := hA.isOpen_mono (hle₁.trans hle₂) hscope
    exact (hA.runTrees hev hscope hsource hparse fun _ => id).bind
      fun _ _ _ _ hfound => hA.itemOrNil hfound

end Texts

omit hA in
theorem find (hev : A.Evaluates ev) (name : String) :
    A.Evals w
      (fun _ found found' => found = found' ∧
        ∀ source, found = .ok source → A.entries source.origin (.file (.ok source.text)))
      (Search.find ev.host.look ev.host.roots name)
      (Search.find ev.host.look ev.host.roots name) := by
  refine (firstFile hev _).bind fun w₁ _ found found' hfound => ?_
  obtain ⟨rfl, hfound⟩ := hfound
  match found with
  | none => exact .pure fun _ _ => ⟨rfl, nofun⟩
  | some (path, .error reason) => exact .pure fun _ _ => ⟨rfl, nofun⟩
  | some (path, .ok text) =>
    refine .pure fun _ _ => ⟨rfl, fun source hsource => ?_⟩
    cases hsource
    exact hfound path (.ok text) rfl

theorem importModule (hev : A.Evaluates ev) (hcall : A.Calls w call call')
    (hscope : A.isOpen w scope) (hc : A.codes w c d) :
    A.Evals w (fun _ _ _ => True) (Form.importModule ev call scope c)
      (Form.importModule ev call' scope d) := by
  rw [Form.importModule, Form.importModule, (hA.codes_value hc).string?_eq]
  cases d.value.string? with
  | none => exact hA.failAt hcall hc _
  | some name =>
    refine (find hev name).bind fun w₁ hle found found' hfound => ?_
    obtain ⟨rfl, hfound⟩ := hfound
    cases found with
    | error error => exact hA.failAt (hA.calls_mono hle hcall) (hA.codes_mono hle hc) _
    | ok source =>
      have hneed : ∀ path, some source.origin = some path →
          A.entries path (.file (.ok source.text)) := by
        rintro _ ⟨⟩
        exact hfound source rfl
      refine (Evals.await fun _ _ => .source hneed).bind fun w₂ hle₂ _ _ hsource => ?_
      exact (hA.runText hev (hA.isOpen_mono (hle.trans hle₂) hscope) hsource).bind
        fun _ _ _ _ _ => .pure fun _ _ => trivial

theorem importEach (hev : A.Evaluates ev) (hcall : A.Calls w call call')
    (hscope : A.isOpen w scope) {cells cells' : List Cell}
    (h : List.Forall₂ (A.codes w) cells cells') :
    A.Evals w (fun _ _ _ => True) (Form.importEach ev call scope cells)
      (Form.importEach ev call' scope cells') := by
  induction cells generalizing w cells' with
  | nil =>
    cases h
    exact .pure fun _ _ => trivial
  | cons c cells ih =>
    cases h with
    | cons hc hcells =>
    exact (hA.importModule hev hcall hscope hc).bind fun _ hle _ _ _ =>
      ih (hA.calls_mono hle hcall) (hA.isOpen_mono hle hscope) (hA.forall₂_codes_mono hle hcells)

theorem importModules : A.Forms Form.importModules := by
  rintro ev hev w ⟨name, site, operands⟩ ⟨name', site', operands'⟩ scope hcall hscope
  rcases hcall.operands with _ | ⟨hoperand, hoperands⟩
  · exact hA.failArity hcall _
  · exact (hA.importEach hev hcall hscope (.cons hoperand hoperands)).bind
      fun _ _ _ _ _ => hA.newBool true

/-- Without packages there is none to be loaded. -/
theorem usePackage (hev : A.Evaluates ev) (hcall : A.Calls w call call') (hc : A.codes w c d)
    (scope : ScopeId) :
    A.Evals w (fun _ _ _ => True) (Form.usePackage ev call scope c)
      (Form.usePackage ev call' scope d) := by
  rw [Form.usePackage, Form.usePackage, (hA.codes_value hc).string?_eq]
  cases d.value.string? with
  | none => exact hA.failAt hcall hc _
  | some name =>
    have hread : A.Evals w (fun _ => Eq) (Eval.read fun s => s.isLoaded scope name)
        (Eval.read fun s => s.isLoaded scope name) :=
      .read fun _ _ _ _ hst => hA.isLoaded_eq hst scope name
    refine hread.bind_eq fun w₁ hle loaded => ?_
    cases loaded with
    | true => exact .pure fun _ _ => trivial
    | false =>
      have hpackage : ev.host.package name = .error (.unknownPackage name) := by
        rw [Host.package, hev.packages_eq]
        rfl
      simp only [hpackage]
      exact hA.failAt (hA.calls_mono hle hcall) (hA.codes_mono hle hc) _

theorem useEach (hev : A.Evaluates ev) (hcall : A.Calls w call call') {cells cells' : List Cell}
    (h : List.Forall₂ (A.codes w) cells cells') (scope : ScopeId) :
    A.Evals w (fun _ _ _ => True) (Form.useEach ev call scope cells)
      (Form.useEach ev call' scope cells') := by
  induction cells generalizing w cells' with
  | nil =>
    cases h
    exact .pure fun _ _ => trivial
  | cons c cells ih =>
    cases h with
    | cons hc hcells =>
    exact (hA.usePackage hev hcall hc scope).bind fun _ hle _ _ _ =>
      ih (hA.calls_mono hle hcall) (hA.forall₂_codes_mono hle hcells)

theorem usePackages : A.Forms Form.usePackages := by
  rintro ev hev w ⟨name, site, operands⟩ ⟨name', site', operands'⟩ scope hcall hscope
  rcases hcall.operands with _ | ⟨hoperand, hoperands⟩
  · exact hA.failArity hcall _
  · exact (hA.useEach hev hcall (.cons hoperand hoperands) scope).bind
      fun _ _ _ _ _ => hA.newBool true

theorem compose : A.Forms Form.compose := by
  rintro ev hev w ⟨name, site, operands⟩ ⟨name', site', operands'⟩ scope hcall hscope
  rcases hcall.operands with _ | ⟨hoperand, _ | _⟩
  · exact hA.failArity hcall _
  · rename_i operand operand'
    have hread : A.Evals w (fun _ => Eq) (Eval.read fun s => s.quote operand)
        (Eval.read fun s => s.quote operand') :=
      .read fun _ hle _ _ hst => hA.quote_eq hst (hA.codes_mono hle hoperand)
    exact hread.bind_eq fun _ _ text => hA.newString text
  · exact hA.failArity hcall _

theorem decompose : A.Forms Form.decompose := by
  rintro ev hev w ⟨name, site, operands⟩ ⟨name', site', operands'⟩ scope hcall hscope
  rcases hcall.operands with _ | ⟨hoperand, _ | _⟩
  · exact hA.failArity hcall _
  · refine (hev.eval hoperand hscope).bind fun w₁ hle value value' hvalue => ?_
    rw [(hA.values_value hvalue).string?_eq]
    cases value'.value.string? with
    | none => exact hA.fail (hA.calls_mono hle hcall) _
    | some text =>
      have hneed : ∀ path, none = some path → A.entries path (.file (.ok text)) := nofun
      refine (Evals.await fun _ _ => .source hneed).bind fun w₂ hle₂ _ _ hsource => ?_
      exact hA.runText hev (hA.isOpen_mono (hle.trans hle₂) hscope) hsource
  · exact hA.failArity hcall _

/-! ### Tasks, channels and references -/

theorem bindMethods {members : ScopeId} (hmembers : A.isTable w members) (methods : List Method) :
    A.Evals w (fun _ _ _ => True) (Form.bindMethods members methods)
      (Form.bindMethods members methods) := by
  induction methods generalizing w with
  | nil => exact .pure fun _ _ => trivial
  | cons method methods ih =>
    refine (hA.newValue (.procedure (.method method)) nofun).bind
      fun w₁ hle₁ cell cell' hcell => ?_
    have hmembers := hA.isTable_mono hle₁ hmembers
    have hdefine : A.Evals w₁ (fun _ _ _ => True) (Eval.define members method.name cell)
        (Eval.define members method.name cell') :=
      .modify fun _ hle _ _ hst =>
        hA.define hst (hA.values_mono hle hcell) (.inr (hA.isTable_mono hle hmembers))
    exact hdefine.bind fun _ hle _ _ _ => ih (hA.isTable_mono hle hmembers)

theorem newHandle (kind : HandleKind) (methods : List Method) :
    A.Evals w A.values (Form.newHandle kind methods) (Form.newHandle kind methods) := by
  have hmake : A.Evals w (fun w id id' => id = id' ∧ A.isTable w id)
      (Eval.make fun s => s.newScope []) (Eval.make fun s => s.newScope []) := by
    refine .make fun w' _ s t hst => ?_
    obtain ⟨heq, w'', hle, hst', htable⟩ := hA.newTable hst
    exact ⟨w'', hle, hst', heq, htable⟩
  refine hmake.bind fun w₁ _ members members' hmembers => ?_
  obtain ⟨rfl, hmembers⟩ := hmembers
  exact (hA.bindMethods hmembers methods).bind fun _ _ _ _ _ =>
    hA.newValue (.handle kind members) nofun

theorem startTask (hcall : A.Calls w call call') (scope : ScopeId) :
    A.Evals w (fun _ => Eq) (Form.startTask call scope) (Form.startTask call' scope) := by
  obtain ⟨name, site, operands⟩ := call
  obtain ⟨name', site', operands'⟩ := call'
  rcases hcall.operands with _ | ⟨hbody, _ | _⟩
  · exact hA.failArity hcall _
  · refine (hA.childScopes scope).bind fun w₁ hle₁ inner inner' hinner => ?_
    obtain ⟨rfl, hinner⟩ := hinner
    exact .make_eq fun w₂ hle₂ s t hst =>
      hA.newTask hst (hA.codes_mono (hle₁.trans hle₂) hbody) (hA.isOpen_mono hle₂ hinner)
  · exact hA.failArity hcall _

theorem spawnAsync : A.Forms Form.spawnAsync := by
  intro ev hev w call call' scope hcall hscope
  exact (hA.startTask hcall scope).bind_eq fun _ _ _ => hA.newHandle _ _

theorem spawnThread : A.Forms Form.spawnThread := by
  intro ev hev w call call' scope hcall hscope
  exact (hA.startTask hcall scope).bind_eq fun _ _ _ => hA.newHandle _ _

theorem channel : A.Forms Form.channel := by
  rintro ev hev w ⟨name, site, operands⟩ ⟨name', site', operands'⟩ scope hcall hscope
  rcases hcall.operands with _ | ⟨_, _⟩
  · have hmake : A.Evals w (fun _ => Eq) (Eval.make fun s => s.newChannel)
        (Eval.make fun s => s.newChannel) :=
      .make_eq fun _ _ _ _ hst => hA.newChannel hst
    exact hmake.bind_eq fun _ _ _ => hA.newHandle _ _
  · exact hA.failArity hcall _

theorem referenceTo {initial initial' : Option Cell}
    (hinitial : Option.Rel (A.values w) initial initial') :
    A.Evals w A.values (Form.referenceTo initial) (Form.referenceTo initial') := by
  have hmake : A.Evals w (fun _ => Eq) (Eval.make fun s => s.newReference initial)
      (Eval.make fun s => s.newReference initial') :=
    .make_eq fun _ hle _ _ hst =>
      hA.newReference hst (optionRel_imp (fun _ _ => hA.values_mono hle) hinitial)
  exact hmake.bind_eq fun _ _ _ => hA.newHandle _ _

theorem references : A.Forms Form.reference := by
  rintro ev hev w ⟨name, site, operands⟩ ⟨name', site', operands'⟩ scope hcall hscope
  rcases hcall.operands with _ | ⟨hoperand, _ | _⟩
  · exact hA.referenceTo .none
  · refine (hev.eval hoperand hscope).bind fun w₁ _ value value' hvalue => ?_
    exact (hA.copy hvalue).bind fun _ _ _ _ hcopied => hA.referenceTo (.some hcopied)
  · exact hA.failArity hcall _

theorem awaitTask (task : TaskId) :
    A.Evals w A.values (Form.awaitTask task) (Form.awaitTask task) := by
  have hread : A.Evals w (fun w => Option.Rel (A.values w))
      (Eval.read fun s => (s.task task).result) (Eval.read fun s => (s.task task).result) :=
    .read fun _ _ _ _ hst => hA.result task hst
  refine hread.bind fun w₁ _ result result' hresult => ?_
  cases hresult with
  | none => exact .await fun _ _ => .completion task
  | some hvalue => exact hA.pureValue hvalue

theorem joinable (task : TaskId) :
    A.Evals w (fun _ => Eq) (Eval.read fun s => (s.task task).joinable)
      (Eval.read fun s => (s.task task).joinable) :=
  .read fun _ _ _ _ hst => hA.joinable_eq task hst

theorem releaseTask (hcall : A.Calls w call call') (task : TaskId) :
    A.Evals w (fun _ _ _ => True) (Form.release call task) (Form.release call' task) := by
  refine (hA.joinable task).bind_eq fun w₁ hle joinable => ?_
  cases joinable with
  | true => exact .modify fun _ _ _ _ hst => hA.release task hst
  | false => exact hA.fail (hA.calls_mono hle hcall) _

theorem noOperands (hcall : A.Calls w call call') :
    A.Evals w (fun _ _ _ => True) (Form.noOperands call) (Form.noOperands call') := by
  obtain ⟨name, site, operands⟩ := call
  obtain ⟨name', site', operands'⟩ := call'
  rcases hcall.operands with _ | ⟨_, _⟩
  · exact .pure fun _ _ => trivial
  · exact hA.failArity hcall _

theorem send (hev : A.Evaluates ev) (hscope : A.isOpen w scope) {cells cells' : List Cell}
    (h : List.Forall₂ (A.codes w) cells cells') (channel : ChannelId) :
    A.Evals w A.values (Form.send ev channel cells scope) (Form.send ev channel cells' scope) := by
  refine (hA.evalAll hev hscope h).bind fun w₁ _ values values' hvalues => ?_
  refine (hA.copyAll hvalues).bind fun w₂ _ sent sent' hsent => ?_
  exact (Evals.await fun _ hle => .access channel (.put (hA.forall₂_values_mono hle hsent))).bind
    fun _ _ _ _ _ => hA.newBool true

theorem writeTo (hev : A.Evaluates ev) (hscope : A.isOpen w scope) (hc : A.codes w c d)
    (id : RefId) :
    A.Evals w A.values
      (do
        let value ← ev.eval c scope
        let copied ← .copy value
        Eval.modify fun s => s.writeReference id copied
        return copied)
      (do
        let value ← ev.eval d scope
        let copied ← .copy value
        Eval.modify fun s => s.writeReference id copied
        return copied) := by
  refine (hev.eval hc hscope).bind fun w₁ _ value value' hvalue => ?_
  refine (hA.copy hvalue).bind fun w₂ _ copied copied' hcopied => ?_
  have hmodify : A.Evals w₂ (fun _ _ _ => True)
      (Eval.modify fun s => s.writeReference id copied)
      (Eval.modify fun s => s.writeReference id copied') :=
    .modify fun _ hle _ _ hst => hA.writeReference id hst (hA.values_mono hle hcopied)
  exact hmodify.bind fun _ hle _ _ _ => .pure fun _ hle' => hA.values_mono (hle.trans hle') hcopied

theorem method (m : Method) : A.Forms (Form.method m) := by
  rintro ev hev w ⟨name, site, operands⟩ ⟨name', site', operands'⟩ scope hcall hscope
  have hnone := hA.noOperands hcall
  cases m with
  | waitFor task =>
    exact hnone.bind fun _ _ _ _ _ => (hA.awaitTask task).bind fun _ _ _ _ _ => hA.newBool true
  | resultOf task => exact hnone.bind fun _ _ _ _ _ => hA.awaitTask task
  | join task =>
    exact hnone.bind fun _ hle _ _ _ =>
      (hA.releaseTask (hA.calls_mono hle hcall) task).bind fun _ _ _ _ _ =>
        (hA.awaitTask task).bind fun _ _ _ _ _ => hA.newBool true
  | detach task =>
    exact hnone.bind fun _ hle _ _ _ =>
      (hA.releaseTask (hA.calls_mono hle hcall) task).bind fun _ _ _ _ _ => hA.newBool true
  | isJoinable task =>
    exact hnone.bind fun _ _ _ _ _ => (hA.joinable task).bind_eq fun _ _ b => hA.newBool b
  | threadName task => exact hnone.bind fun _ _ _ _ _ => hA.newString _
  | send channel =>
    rcases hcall.operands with _ | ⟨hoperand, hoperands⟩
    · exact hA.newBool false
    · exact hA.send hev hscope (.cons hoperand hoperands) channel
  | receive channel => exact hnone.bind fun _ _ _ _ _ => .await fun _ _ => .access channel .get
  | hasData channel =>
    refine hnone.bind fun _ _ _ _ _ => (Evals.await fun _ _ => .access channel .look).bind_eq ?_
    exact fun _ _ b => hA.newBool b
  | drain channel =>
    refine hnone.bind fun _ _ _ _ _ => (Evals.await fun _ _ => .access channel .drain).bind ?_
    exact fun _ _ _ _ hqueued => hA.newItems hqueued
  | write id =>
    rcases hcall.operands with _ | ⟨hoperand, _ | _⟩
    · exact hA.failArity hcall _
    · exact hA.writeTo hev hscope hoperand id
    · exact hA.failArity hcall _
  | read id =>
    have hread : ∀ w, A.Evals w (fun w => Option.Rel (A.values w))
        (Eval.read fun s => s.reference id) (Eval.read fun s => s.reference id) :=
      fun w => .read fun _ _ _ _ hst => hA.reference id hst
    exact hnone.bind fun w₁ _ _ _ _ => (hread w₁).bind fun _ _ _ _ hfound => hA.itemOrNil hfound

/-! ### Calls -/

theorem form (k : Keyword) : A.Forms k.form := by
  cases k with
  | front => exact hA.front
  | back => exact hA.back
  | push => exact hA.push
  | pop => exact hA.pop
  | list => exact hA.list
  | assign => exact hA.assignment
  | lambda => exact hA.lambda
  | block => exact hA.block
  | length => exact hA.length
  | put => exact hA.output _
  | putLine => exact hA.output _
  | ifElse => exact hA.ifElse
  | equal => exact hA.comparison _
  | notEqual => exact hA.comparison _
  | atMost => exact hA.comparison _
  | atLeast => exact hA.comparison _
  | below => exact hA.comparison _
  | above => exact hA.comparison _
  | sameText => exact hA.textComparison _
  | otherText => exact hA.textComparison _
  | assertAll => exact hA.assertAll
  | loop => exact hA.loop
  | typeOf => exact hA.typeOf
  | importModule => exact hA.importModules
  | usePackage => exact hA.usePackages
  | iterate => exact hA.iterate
  | not => exact hA.negation
  | or => exact hA.logic _
  | and => exact hA.logic _
  | xor => exact hA.logic _
  | breakOut => exact hA.breakOut
  | elementAt => exact hA.elementAt
  | clear => exact hA.clear
  | compose => exact hA.compose
  | decompose => exact hA.decompose
  | box => exact hA.box
  | truth => exact hA.constant (fun _ => .integer _) nofun
  | falsity => exact hA.constant (fun _ => .integer _) nofun
  | isNil => exact hA.isNil
  | nil => exact hA.constant (fun _ => .string _) nofun
  | add => exact hA.arithmetic _
  | subtract => exact hA.arithmetic _
  | divide => exact hA.arithmetic _
  | multiply => exact hA.arithmetic _
  | modulo => exact hA.arithmetic _
  | define => exact hA.definition
  | exitProcess => exact hA.exitProcess
  | yieldUp => exact hA.yieldUp
  | tryOr => exact hA.tryOr
  | asInteger => exact hA.asInteger
  | asString => exact hA.asString
  | asReal => exact hA.asReal
  | raise => exact hA.raise
  | bitAnd => exact hA.bitwise _
  | bitOr => exact hA.bitwise _
  | shiftLeft => exact hA.shift _
  | shiftRight => exact hA.shift _
  | bitXor => exact hA.bitwise _
  | bitNot => exact hA.bitNot
  | reverse => exact hA.reverse
  | setAt => exact hA.setAt
  | spawnAsync => exact hA.spawnAsync
  | spawnThread => exact hA.spawnThread
  | channel => exact hA.channel
  | reference => exact hA.references

theorem bindParameters {frame : ScopeId} {parameters : List String} {values values' : List Cell}
    (hframe : A.isOpen w frame) (hnames : ∀ name ∈ parameters, A.Bindable name)
    (h : List.Forall₂ (A.values w) values values') :
    A.Evals w (fun _ _ _ => True) (Evaluator.bindParameters frame parameters values)
      (Evaluator.bindParameters frame parameters values') := by
  induction parameters generalizing w values values' with
  | nil => exact .pure fun _ _ => trivial
  | cons parameter parameters ih =>
    rcases h with _ | ⟨hvalue, hvalues⟩
    · exact .pure fun _ _ => trivial
    · obtain ⟨hname, hnames⟩ := List.forall_mem_cons.1 hnames
      refine (hA.copy hvalue).bind fun w₁ hle₁ bound bound' hbound => ?_
      refine (hA.bindName hbound (hA.isOpen_mono hle₁ hframe) hname).bind fun w₂ hle₂ _ _ _ => ?_
      have hle := hle₁.trans hle₂
      exact ih (hA.isOpen_mono hle hframe) hnames (hA.forall₂_values_mono hle hvalues)

theorem applyLambda (hev : A.Evaluates ev) (hscope : A.isOpen w scope)
    {site site' body body' : Cell} {parameters : List String} {operands operands' : List Cell}
    (hsite : A.codes w site site')
    (hnames : ∀ name ∈ parameters, A.Bindable name) (hbody : A.codes w body body')
    (hoperands : List.Forall₂ (A.codes w) operands operands') (captured : ScopeId) :
    A.Evals w A.values (ev.applyLambda site parameters body captured operands scope)
      (ev.applyLambda site' parameters body' captured operands' scope) := by
  refine (hA.evalAll hev hscope hoperands).bind fun w₁ hle₁ values values' hvalues => ?_
  rw [hvalues.length_eq]
  split
  · refine (hA.childScopes captured).bind fun w₂ hle₂ frame frame' hframe => ?_
    obtain ⟨rfl, hframe⟩ := hframe
    refine (hA.bindParameters hframe hnames (hA.forall₂_values_mono hle₂ hvalues)).bind
      fun w₃ hle₃ _ _ _ => ?_
    refine (hA.work 1).bind fun w₄ hle₄ _ _ _ => ?_
    have hle := hle₁.trans (hle₂.trans (hle₃.trans hle₄))
    exact hA.evaluate hev (hA.codes_mono hle hbody) (hA.isOpen_mono (hle₃.trans hle₄) hframe)
  · exact .fail (.failure _ (hA.codes_place hsite))

/-- Without packages no procedure of the host is called. -/
theorem apply (hev : A.Evaluates ev) (hscope : A.isOpen w scope)
    {site site' callee callee' : Cell} {operands operands' : List Cell}
    (hsite : A.codes w site site') (hcallee : A.values w callee callee')
    (hoperands : List.Forall₂ (A.codes w) operands operands') :
    A.Evals w A.values (ev.apply site callee operands scope)
      (ev.apply site' callee' operands' scope) := by
  have hself := hA.pureValue hcallee
  have hvalue := hA.values_value hcallee
  rw [Evaluator.apply, Evaluator.apply]
  generalize callee.value = v at hvalue
  generalize callee'.value = v' at hvalue
  cases hvalue with
  | lambda hnames hbody => exact hA.applyLambda hev hscope hsite hnames hbody hoperands _
  | procedure p =>
    have hcall : A.Calls w ⟨p.name, site, operands⟩ ⟨p.name, site', operands'⟩ :=
      ⟨rfl, hsite, hoperands⟩
    cases p with
    | builtIn k => exact hA.form k hev hcall hscope
    | method m => exact hA.method m hev hcall hscope
    | native package member name =>
      have hnative : ev.host.native? package member = none := by
        rw [Host.native?, hev.packages_eq]
        rfl
      simp only [hnative]
      exact hself
  | _ => exact hself

/-! ### Evaluation -/

theorem step (hev : A.Evaluates ev) (hc : A.codes w c d) (hscope : A.isOpen w scope) :
    A.Evals w A.values (ev.step c scope) (ev.step d scope) := by
  have hself (hlist : c.value ≠ .list) (hdata : DataValues A.Bindable (A.codes w) c.value d.value) :
      A.Evals w A.values (pure c) (pure d) :=
    hA.pureValue (hA.literal hc hlist hdata)
  have hvalue := hA.codes_value hc
  rw [Evaluator.step, Evaluator.step]
  generalize hcv : c.value = v at hvalue hself
  generalize d.value = v' at hvalue hself
  cases hvalue with
  | @symbol name _ => exact .readOr fun _ _ _ _ hst => hA.resolve hst (hA.codes_place hc) scope name
  | keyword k => exact fun _ _ _ _ hst => .done le_rfl hst (hA.builtIn k hst)
  | string text => exact hself (fun h => by cases h) (.string text)
  | integer n => exact hself (fun h => by cases h) (.integer n)
  | real x => exact hself (fun h => by cases h) (.real x)
  | list =>
    have hread : A.Evals w (fun w => List.Forall₂ (A.codes w)) (Eval.read fun s => s.items c.id)
        (Eval.read fun s => s.items d.id) :=
      .read fun _ hle _ _ hst => hA.codeItems hst (hA.codes_mono hle hc) hcv
    refine hread.bind fun w₁ hle₁ cells cells' hcells => ?_
    cases hcells with
    | nil => exact hA.newNil
    | cons hhead hoperands =>
      have hscope := hA.isOpen_mono hle₁ hscope
      refine (hev.eval hhead hscope).bind fun w₂ hle₂ callee callee' hcallee => ?_
      exact hA.apply hev (hA.isOpen_mono hle₂ hscope)
        (hA.codes_mono (hle₁.trans hle₂) hc) hcallee (hA.forall₂_codes_mono hle₂ hoperands)

/-- The evaluator of a host without packages keeps every lawful correspondence. -/
theorem evaluates {host : Host} (hpackages : host.packages = [])
    (hentries : ∀ path entry, host.known path = some entry → A.entries path entry) (fuel : Nat) :
    A.Evaluates (evaluator host fuel) where
  packages_eq := hpackages
  entries := hentries _ _
  eval := by
    induction fuel with
    | zero => exact fun _ _ => .stop fun _ _ => .exhausted
    | succ fuel ih =>
      intro w c d scope hc hscope
      exact hA.step ⟨hpackages, hentries _ _, ih⟩ hc hscope

end Lawful

end BracketScript.Correspondence
