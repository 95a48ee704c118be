import BracketScript.Diagnostic
import BracketScript.Proofs.Provenance

/-!
# The texts that faults are shown in

A report marks the place of a fault in a text. Which text this is follows from the name that the
place has: the script for the name of the script, and a file for any other name. Names are those of
the script and of the modules that were found. So a fault in a module is shown in the text of the
module, if this is still found under its name and the script has another name.

A string that is decomposed has no name. A place in it is taken to be one in the script, and what is
marked there has nothing to do with the fault.
-/

namespace BracketScript

open Relation Correspondence

/-! ### Texts of places -/

namespace Diagnostic

variable {m : Type → Type} [Monad m] {look : String → m Entry} {source : Source}
  {place : Location} {fault : Fault} {text : String}

theorem sourceOf_unnamed (h : place.origin = none) :
    sourceOf look (some source) place = pure (some source.text) := by
  simp only [sourceOf, h]

theorem sourceOf_own (h : place.origin = some source.name) :
    sourceOf look (some source) place = pure (some source.text) := by
  simp only [sourceOf, h, if_true]

theorem sourceOf_file [LawfulMonad m] {path : String} (h : place.origin = some path)
    (hne : path ≠ source.name) (hlook : look path = pure (.file (.ok text))) :
    sourceOf look (some source) place = pure (some text) := by
  simp only [sourceOf, h, if_neg hne, sourceOf.readText, hlook, pure_bind, Entry.read]

/-- A fault is shown in the text that its place belongs to, if it has a place there. -/
theorem report_of_sourceOf [LawfulMonad m] (hplace : fault.location? = some place)
    (hsource : sourceOf look (some source) place = pure (some text)) {offset : Nat}
    (hoffset : offset? text place = some offset) :
    report look fault (some source) =
      pure (.window (place.origin.getD source.name) text (ofFault fault offset)) := by
  simp only [report, hplace, hsource, pure_bind, hoffset, Option.map_some, Option.getD_some]

end Diagnostic

theorem IsSource.eq_or_mem {host : Host} {origin script name text : String} {log : List Meeting}
    {found : Option String} (h : IsSource host origin script log found text)
    (hname : found = some name) :
    name = origin ∧ text = script ∨ (some name, text) ∈ textsRead log := by
  cases h with
  | script =>
    cases hname
    exact .inl ⟨rfl, rfl⟩
  | imported hread _ =>
    cases hname
    exact .inr hread
  | decomposed _ => cases hname

/-- The text that is chosen for a place in one of the sources: the script for a place without a name
or with the name of the script, and the text that the place stands in for any other one. -/
theorem IsSource.sourceOf_eq {m : Type → Type} [Monad m] [LawfulMonad m] {look : String → m Entry}
    {host : Host} {origin script text : String} {log : List Meeting} {place : Location}
    (hlook : ∀ path text, (some path, text) ∈ textsRead log → look path = pure (.file (.ok text)))
    (h : IsSource host origin script log place.origin text) :
    Diagnostic.sourceOf look (some ⟨origin, script⟩) place =
      pure (some (if place.origin = none ∨ place.origin = some origin then script else text)) := by
  generalize hname : place.origin = name at h
  cases h with
  | script =>
    rw [if_pos (.inr rfl)]
    exact Diagnostic.sourceOf_own hname
  | @imported path _ hread _ =>
    by_cases hown : path = origin
    · rw [if_pos (.inr (congrArg some hown))]
      exact Diagnostic.sourceOf_own (hname.trans (congrArg some hown))
    · rw [if_neg (by simp [hown])]
      exact Diagnostic.sourceOf_file hname hown (hlook path text hread)
  | decomposed _ =>
    rw [if_pos (.inl rfl)]
    exact Diagnostic.sourceOf_unnamed hname

/-- A fault that ends a script stands in a text: in the script, in a module that was found or in a
string that was decomposed. The text that is chosen for the report is the script if the place of the
fault has no name or that of the script, and the text that the fault stands in otherwise, as long as
it is found unchanged. In this text, if it is the one that the fault stands in and has a name, the
place of the fault is marked. -/
theorem named_faults_are_shown_in_their_text {m : Type → Type} [Monad m] [LawfulMonad m]
    {host : Host} (hpackages : host.packages = []) {fuel : Nat} {origin script : String}
    {log : List Meeting} {σ : System Unit}
    (htrail : Trail (System.StepWith (evaluator host fuel).evaluate)
      (System.starting .initial
        (Script.execute (evaluator host fuel) Store.root origin script) []) log σ)
    {look : String → m Entry}
    (hlook : ∀ path text, (some path, text) ∈ textsRead log → look path = pure (.file (.ok text)))
    {fault : Fault} (hfault : fault ∈ σ.main.fault?) :
    ∃ place text, fault.location? = some place ∧
      IsSource host origin script log place.origin text ∧
      place.PointsAt place.origin text fault.Shows ∧
      Diagnostic.sourceOf look (some ⟨origin, script⟩) place =
        pure (some (if place.origin = none ∨ place.origin = some origin then script else text)) ∧
      ∀ name, place.origin = some name → (name = origin → text = script) →
        ∃ offset, Diagnostic.offset? text place = some offset ∧
          Diagnostic.report look fault (some ⟨origin, script⟩) =
            pure (.window name text (.ofFault fault offset)) := by
  have hev := IsSource.evaluates hpackages fuel origin script log
  obtain ⟨place, hplace, text, hsource, hpoints⟩ := pointsInto_of_trail hev
    (fun w => evals_execute hev .script w Store.root) htrail (fun _ => IsSource.allows) hfault
  have hchosen := hsource.sourceOf_eq hlook
  refine ⟨place, text, hplace, hsource, hpoints, hchosen, fun name hname hown => ?_⟩
  obtain ⟨-, before, front, back, behind, -, -, -, -, hoffset⟩ := hpoints
  have htext : (if place.origin = none ∨ place.origin = some origin then script else text) =
      text := by
    split
    · next h =>
      rw [hname] at h
      exact (hown (Option.some.inj (h.resolve_left (Option.some_ne_none name)))).symm
    · rfl
  rw [htext] at hchosen
  refine ⟨_, hoffset, ?_⟩
  rw [Diagnostic.report_of_sourceOf hplace hchosen hoffset, hname]
  rfl

/-- A module with an unknown name. -/
def faultyHost : Host :=
  ⟨[], [], fun path => if path = "m" then some (.file (.ok "[oops]")) else none⟩

def faultyRun : Option (List Meeting × System Unit) :=
  System.play? (fun _ => .directory) (evaluator faultyHost 4).evaluate
    (.starting .initial
      (Script.execute (evaluator faultyHost 4) Store.root "s" "[import \"m\"]") [])
    [.main, .main]

/-- A fault in a module is shown in the text of this module. -/
theorem named_faults_are_shown_in_their_text_module :
    let look : String → Id Entry := fun path => (faultyHost.known path).getD .directory
    ∃ log σ, Trail (System.StepWith (evaluator faultyHost 4).evaluate)
        (System.starting .initial
          (Script.execute (evaluator faultyHost 4) Store.root "s" "[import \"m\"]") []) log σ ∧
      textsRead log = [(some "m", "[oops]")] ∧
      ∃ fault ∈ σ.main.fault?, fault.location? = some ⟨1, 2, some "m"⟩ ∧
        Diagnostic.report look fault (some ⟨"s", "[import \"m\"]"⟩) =
          pure (.window "m" "[oops]" (.ofFault fault 1)) := by
  intro look
  have hrun : faultyRun.map (fun p => (textsRead p.1, p.2.main.fault?.map Fault.location?)) =
      some ([(some "m", "[oops]")], some (some ⟨1, 2, some "m"⟩)) := by
    decide +kernel
  obtain ⟨⟨log, σ⟩, hplay, heq⟩ := Option.map_eq_some_iff.1 hrun
  obtain ⟨hread, hfault⟩ := Prod.mk.inj heq
  obtain ⟨fault, hfault, hplace⟩ := Option.map_eq_some_iff.1 hfault
  rw [faultyRun] at hplay
  have htrail := System.trail_of_play? hplay
  have hmodule : ∀ path text, (some path, text) ∈ textsRead log → path = "m" ∧ text = "[oops]" := by
    intro path text hmem
    rw [hread, List.mem_singleton] at hmem
    cases hmem
    exact ⟨rfl, rfl⟩
  have hlook : ∀ path text, (some path, text) ∈ textsRead log →
      look path = pure (.file (.ok text)) := by
    intro path text hmem
    obtain ⟨rfl, rfl⟩ := hmodule path text hmem
    rfl
  obtain ⟨place, text, hlocation, hsource, -, -, hreport⟩ :=
    named_faults_are_shown_in_their_text rfl htrail hlook hfault
  obtain rfl := Option.some.inj (hplace.symm.trans hlocation)
  obtain rfl : text = "[oops]" := by
    rcases hsource.eq_or_mem rfl with hname | hmem
    · exact absurd hname.1 (by decide)
    · exact (hmodule "m" text hmem).2
  obtain ⟨offset, hoffset, hwindow⟩ := hreport "m" rfl fun hname => absurd hname (by decide)
  obtain rfl : offset = 1 := Option.some.inj (hoffset.symm.trans (by decide +kernel))
  exact ⟨log, σ, htrail, hread, fault, hfault, hplace, hwindow⟩

def misleadingRun : Option (List Meeting × System Unit) :=
  System.play? (fun _ => .directory) (evaluator ⟨[], [], fun _ => none⟩ 4).evaluate
    (.starting .initial (Script.execute (evaluator ⟨[], [], fun _ => none⟩ 4) Store.root "inline"
      "[decompose \"[nope]\"]") [])
    [.main, .main]

/-- The unknown name of `[decompose "[nope]"]` stands in the string, and this is the only text
without a name. It is the script that is shown, with the word `decompose` marked. -/
theorem decomposed_fault_is_shown_in_script :
    let script := "[decompose \"[nope]\"]"
    let ev := evaluator ⟨[], [], fun _ => none⟩ 4
    let look : String → Id Entry := fun _ => .directory
    ∃ log σ, Trail (System.StepWith ev.evaluate)
        (System.starting .initial (Script.execute ev Store.root "inline" script) []) log σ ∧
      ∃ fault ∈ σ.main.fault?, fault.location? = some ⟨1, 2, none⟩ ∧
        (∀ text, IsSource ⟨[], [], fun _ => none⟩ "inline" script log none text →
          text = "[nope]") ∧
        Diagnostic.report look fault (some ⟨"inline", script⟩) =
          pure (.window "inline" script (.ofFault fault 1)) := by
  intro script ev look
  have hrun : misleadingRun.map (fun p => (textsRead p.1, p.2.main.fault?.map Fault.location?)) =
      some ([(none, "[nope]")], some (some ⟨1, 2, none⟩)) := by
    decide +kernel
  obtain ⟨⟨log, σ⟩, hplay, heq⟩ := Option.map_eq_some_iff.1 hrun
  obtain ⟨hread, hfault⟩ := Prod.mk.inj heq
  obtain ⟨fault, hfault, hplace⟩ := Option.map_eq_some_iff.1 hfault
  rw [misleadingRun] at hplay
  refine ⟨log, σ, System.trail_of_play? hplay, fault, hfault, hplace, fun text htext => ?_, ?_⟩
  · cases htext with
    | decomposed hmem =>
      rw [hread, List.mem_singleton] at hmem
      cases hmem
      rfl
  · exact Diagnostic.report_of_sourceOf hplace (Diagnostic.sourceOf_unnamed rfl) (by decide +kernel)

end BracketScript
