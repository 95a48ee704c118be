import BracketScript.Proofs.Drivers
import BracketScript.Proofs.Places
import BracketScript.Proofs.Separation

/-!
# Where faults stand

Whatever a script does, a fault that ends it has a place, and this place is the first character of
a token in a text that the program was read from: the script, a module that was found, or a string
that was decomposed.

Which modules were found and which strings were decomposed is a matter of the run. Whenever a text
is to be read, it is noted in the log, and so is what is found at a path.
-/

namespace BracketScript

open Relation Correspondence

/-! ### Sources -/

namespace Meeting

def read? : Meeting → Option (Option String × String)
  | ⟨.source origin text, _⟩ => some (origin, text)
  | _ => none

def found? : Meeting → Option (String × Entry)
  | ⟨.entry path, entry⟩ => some (path, entry)
  | _ => none

end Meeting

/-- The texts that were read in a run, with their names. -/
def textsRead (log : List Meeting) : List (Option String × String) :=
  log.filterMap Meeting.read?

/-- This is at the path: the host knows it, or it was found there in the run. -/
def Host.Finds (host : Host) (log : List Meeting) (path : String) (entry : Entry) : Prop :=
  host.known path = some entry ∨ (path, entry) ∈ log.filterMap Meeting.found?

/-- The texts that a script was read from in a run: itself, the modules that were found and read,
and the strings that were decomposed, which have no name. -/
inductive IsSource (host : Host) (origin script : String) (log : List Meeting) :
    Option String → String → Prop
  | script : IsSource host origin script log (some origin) script
  | imported {path text : String} : (some path, text) ∈ textsRead log →
      host.Finds log path (.file (.ok text)) → IsSource host origin script log (some path) text
  | decomposed {text : String} : (none, text) ∈ textsRead log →
      IsSource host origin script log none text

/-- In one of the sources, what has this property begins at the place. -/
def Location.PointsInto (place : Location) (sources : Option String → String → Prop)
    (what : List Char → Prop) : Prop :=
  ∃ text, sources place.origin text ∧ place.PointsAt place.origin text what

def Token.SomeBegins (back : List Char) : Prop :=
  ∃ kind : Token.Kind, kind.Begins back

/-- What the fault points at: what is at fault in a text, or a token of a program. -/
def Fault.Shows : Fault → List Char → Prop
  | .parse error => error.cause.Begins
  | .failure _ _ | .assertion _ _ | .unknownName _ _ => Token.SomeBegins

theorem Location.PointsAt.pointsInto {place : Location} {sources : Option String → String → Prop}
    {origin : Option String} {text : String} {what : List Char → Prop}
    (hsource : sources origin text) (h : place.PointsAt origin text what) :
    place.PointsInto sources what := by
  obtain rfl := h.1
  exact ⟨text, hsource, h⟩

theorem Token.PointsIn.pointsInto {token : Token} {sources : Option String → String → Prop}
    {origin : Option String} {text : String} (hsource : sources origin text)
    (h : token.PointsIn origin text) : token.location.PointsInto sources SomeBegins :=
  Location.PointsAt.pointsInto hsource (Location.PointsAt.imp (fun _ hback => ⟨_, hback⟩) h)

def Mark.PlacedIn (good : Location → Prop) : Mark → Prop
  | .opening location | .atom _ location => good location
  | .closing => True

theorem Token.placedIn_mark {good : Location → Prop} {token : Token} (h : good token.location) :
    token.mark.PlacedIn good := by
  obtain ⟨kind, location⟩ := token
  cases kind with
  | closing => trivial
  | _ => exact h

namespace Tree

mutual

theorem placedIn_of_marks {good : Location → Prop} (tree : Tree)
    (h : ∀ mark ∈ tree.marks, mark.PlacedIn good) : tree.PlacedIn good := by
  match tree with
  | .atom a location => exact h (.atom a location) List.mem_cons_self
  | .list items location =>
    rw [marks_list] at h
    obtain ⟨hopening, hitems⟩ := List.forall_mem_cons.1 h
    exact ⟨hopening, allPlacedIn_of_marks items (List.forall_mem_append.1 hitems).1⟩

theorem allPlacedIn_of_marks {good : Location → Prop} (trees : List Tree)
    (h : ∀ mark ∈ marksAll trees, mark.PlacedIn good) : AllPlacedIn good trees := by
  match trees with
  | [] => trivial
  | tree :: trees =>
    obtain ⟨htree, htrees⟩ := List.forall_mem_append.1 h
    exact ⟨placedIn_of_marks tree htree, allPlacedIn_of_marks trees htrees⟩

end

theorem placedIn_of_mem {good : Location → Prop} {trees : List Tree} (h : AllPlacedIn good trees)
    {tree : Tree} (htree : tree ∈ trees) : tree.PlacedIn good := by
  induction trees with
  | nil => cases htree
  | cons other trees ih =>
    rcases List.mem_cons.1 htree with rfl | htree
    · exact h.1
    · exact ih h.2 htree

theorem allPlacedIn_append {good : Location → Prop} {trees others : List Tree}
    (h : AllPlacedIn good trees) (hothers : AllPlacedIn good others) :
    AllPlacedIn good (trees ++ others) := by
  induction trees with
  | nil => exact hothers
  | cons tree trees ih => exact ⟨h.1, ih h.2⟩

/-- Trees that point into a source are placed in it. -/
theorem PointIn.allPlacedIn {trees : List Tree} {sources : Option String → String → Prop}
    {origin : Option String} {text : String} (hsource : sources origin text)
    (h : PointIn trees origin text) :
    AllPlacedIn (fun place => place.PointsInto sources Token.SomeBegins) trees := by
  obtain ⟨tokens, hmarks, hpoints, -⟩ := h
  refine allPlacedIn_of_marks trees fun mark hmark => ?_
  rw [hmarks] at hmark
  obtain ⟨token, htoken, rfl⟩ := List.mem_map.1 hmark
  exact Token.placedIn_mark ((hpoints token htoken).pointsInto hsource)

end Tree

/-- The trees that a reader takes from lines of a source are placed in it. -/
theorem Reader.Reads.allPlacedIn {sources : Option String → String → Prop} {text : String}
    {r last : Reader} {number : Nat} {lines : List String} {trees : List Tree}
    (h : r.Reads number lines trees last) (hsource : sources r.origin text)
    (hr : r.StandsIn text number)
    (hlines : ∀ i line, lines[i]? = some line → Text.HasLine text (number + i) line.toList) :
    Tree.AllPlacedIn (fun place => place.PointsInto sources Token.SomeBegins) trees := by
  induction h with
  | nil r number => trivial
  | @cons r next last number line lines trees others hsubmit _ ih =>
    obtain ⟨hnext, horigin, htrees, -⟩ := hr.submit (hlines 0 line rfl)
    rw [hsubmit] at hnext horigin htrees
    refine Tree.allPlacedIn_append ((htrees trees rfl).allPlacedIn hsource) ?_
    refine ih (horigin ▸ hsource) hnext fun i other hother => ?_
    rw [Nat.add_right_comm]
    exact hlines (i + 1) other hother

/-! ### The invariant -/

section Located

variable (sources : Option String → String → Prop) (files : String → Entry → Prop)

/-- The invariant that every cell of a program stands in one of the sources. -/
def locating : Invariant :=
  placedSeparation (fun place => place.PointsInto sources Token.SomeBegins) (fun _ => True) sources
    files

variable {sources files}

/-- A fault at which the invariant lets an evaluation stop stands in one of the sources. -/
theorem located_of_faults {fault fault' : Fault}
    (h : (locating sources files).diagonal.Faults fault fault') :
    ∃ place, fault.location? = some place ∧ place.PointsInto sources fault.Shows := by
  cases h with
  | @parse origin text error hsource hparse =>
    have hpoints := (pointsIn_of_parse origin text).2 error hparse
    exact ⟨error.location, rfl, Location.PointsAt.pointsInto hsource hpoints⟩
  | failure cause hplace => exact hplace.2
  | assertion label hplace => exact hplace.2
  | unknownName name hplace => exact hplace.2

theorem lawful_locating (sources : Option String → String → Prop) (files : String → Entry → Prop) :
    (locating sources files).Lawful :=
  lawful_placedSeparation
    (fun origin text _ hsource hparse _ htree =>
      have hplaced := ((pointsIn_of_parse origin text).1 _ hparse).allPlacedIn hsource
      ⟨Tree.placedIn_of_mem hplaced htree, fun _ _ _ => trivial⟩) trivial

variable {ev : Evaluator} (hev : (locating sources files).diagonal.Evaluates ev)

include hev

theorem evals_runEach {trees : List Tree}
    (htrees : Tree.AllPlacedIn (fun place => place.PointsInto sources Token.SomeBegins) trees)
    (w : (locating sources files).World) (scope : ScopeId) :
    (locating sources files).diagonal.Evals w (fun _ _ _ => True)
      (Script.runEach ev scope trees) (Script.runEach ev scope trees) := by
  have hA := (lawful_locating sources files).diagonal
  induction trees generalizing w with
  | nil => exact .pure fun _ _ => trivial
  | cons tree trees ih =>
    have hload : (locating sources files).diagonal.Evals w
        (locating sources files).diagonal.codes (Eval.make fun s => s.load tree)
        (Eval.make fun s => s.load tree) := by
      refine .make fun w' _ s t hst => ?_
      obtain ⟨rfl, hs⟩ := hst
      obtain ⟨w'', hle, hs', hcode⟩ := Ledger.Agrees.load hs htrees.1 fun _ _ _ => trivial
      exact ⟨w'', hle, ⟨rfl, hs'⟩, rfl, hcode⟩
    have hrun : (locating sources files).diagonal.Evals w
        (locating sources files).diagonal.values (ev.runTree scope tree)
        (ev.runTree scope tree) :=
      hload.bind fun _ _ _ _ hcode => hA.evaluate hev hcode trivial
    exact hrun.bind fun w' _ _ _ _ => ih htrees.2 w'

/-- A script keeps the invariant, whether it can be read to its end or not. -/
theorem evals_execute {origin script : String} (hscript : sources (some origin) script)
    (w : (locating sources files).World) (scope : ScopeId) :
    (locating sources files).diagonal.Evals w (fun _ _ _ => True)
      (Script.execute ev scope origin script) (Script.execute ev scope origin script) := by
  cases hparse : parse (some origin) script with
  | ok trees =>
    rw [Script.execute_of_parse hparse]
    exact evals_runEach hev
      (((pointsIn_of_parse (some origin) script).1 trees hparse).allPlacedIn hscript) w scope
  | error error =>
    obtain ⟨front, back, trees, reader, hlines, hreads, -, hexecute⟩ :=
      @Script.execute_of_fault ev scope origin script error hparse
    rw [hexecute]
    have htrees :
        Tree.AllPlacedIn (fun place => place.PointsInto sources Token.SomeBegins) trees := by
      refine hreads.allPlacedIn hscript (Reader.standsIn_new _ script 1) fun i line hline => ?_
      refine Text.hasLine_of_lines script i line ?_
      rw [hlines]
      exact (List.getElem?_append_left (List.getElem?_eq_some_iff.1 hline).1).trans hline
    exact (evals_runEach hev htrees w scope).bind fun _ _ _ _ _ =>
      .fail (.parse hscript hparse)

end Located

def Main.fault? {α : Type} : Main α → Option Fault
  | .ended (.error (.fault fault)) => some fault
  | _ => none

theorem Main.eq_of_fault? {α : Type} {main : Main α} {fault : Fault} (h : fault ∈ main.fault?) :
    main = .ended (.error (.fault fault)) := by
  rw [Main.fault?.eq_def] at h
  split at h
  · cases h
    rfl
  · cases h

/-- Where an evaluation keeps to the sources, a fault that ends it stands in one of them, whatever
tasks do in between. -/
theorem pointsInto_of_trail {α : Type} {sources : Option String → String → Prop}
    {files : String → Entry → Prop} {ev : Evaluator}
    (hev : (locating sources files).diagonal.Evaluates ev) {main : Eval α}
    (hmain : ∀ w, (locating sources files).diagonal.Evals w (fun _ _ _ => True) main main)
    {log : List Meeting} {σ : System α}
    (htrail : Trail (System.StepWith ev.evaluate) (System.starting .initial main []) log σ)
    (hlog : ∀ m ∈ log, (locating sources files).Allows m) {fault : Fault}
    (hfault : fault ∈ σ.main.fault?) :
    ∃ place, fault.location? = some place ∧ place.PointsInto sources fault.Shows := by
  have hcovers : (locating sources files).Covers ⟨Keyword.all.length, fun _ => none⟩ .initial :=
    ⟨Ledger.agrees_initial _ _, nofun, nofun, nofun⟩
  obtain ⟨w, τ, -, -, hsound⟩ := (hcovers.starting (hmain _)).trail
    (lawful_locating sources files) (fun _ _ _ _ _ _ => trivial) hev htrail hlog
  have hended := hsound.main
  rw [Main.eq_of_fault? hfault] at hended
  generalize τ.main = main' at hended
  cases hended with
  | error reason' hfaults => exact located_of_faults (hfaults fault rfl)

/-- What a log notes is a source of its run. -/
theorem IsSource.allows {host : Host} {origin script : String} {log : List Meeting} {m : Meeting}
    (h : m ∈ log) : (locating (IsSource host origin script log) (host.Finds log)).Allows m := by
  obtain ⟨need, answer⟩ := m
  cases need with
  | turn filled => trivial
  | access channel request => trivial
  | completion task => trivial
  | entry path => exact .inr (List.mem_filterMap.2 ⟨_, h, rfl⟩)
  | source name text =>
    intro hfound
    have hread : (name, text) ∈ textsRead log := List.mem_filterMap.2 ⟨_, h, rfl⟩
    cases name with
    | none => exact .decomposed hread
    | some path => exact .imported hread (hfound path rfl)

/-- The evaluator keeps to the sources of the run. -/
theorem IsSource.evaluates {host : Host} (hpackages : host.packages = []) (fuel : Nat)
    (origin script : String) (log : List Meeting) :
    (locating (IsSource host origin script log) (host.Finds log)).diagonal.Evaluates
      (evaluator host fuel) :=
  (lawful_locating _ _).diagonal.evaluates hpackages (fun _ _ hknown => .inl hknown) fuel

/-- A fault that ends a script is located, whatever tasks do in between: its place is the first
character of a token, or of what is at fault, in a text that the run has read. This text is the
script, a module that was found under the name of the place, or a string that was decomposed, and
then the place has no name. -/
theorem faults_are_located {host : Host} (hpackages : host.packages = []) {fuel : Nat}
    {origin script : String} {log : List Meeting} {σ : System Unit}
    (htrail : Trail (System.StepWith (evaluator host fuel).evaluate)
      (System.starting .initial
        (Script.execute (evaluator host fuel) Store.root origin script) []) log σ)
    {fault : Fault} (hfault : fault ∈ σ.main.fault?) :
    ∃ place, fault.location? = some place ∧
      place.PointsInto (IsSource host origin script log) fault.Shows := by
  have hev := IsSource.evaluates hpackages fuel origin script log
  exact pointsInto_of_trail hev (fun w => evals_execute hev .script w Store.root) htrail
    (fun _ => IsSource.allows) hfault

/-- A module that decomposes a string with an unknown name. -/
def decomposingHost : Host :=
  ⟨[], [], fun path => if path = "m" then some (.file (.ok "[decompose \"[oops]\"]")) else none⟩

/-- Import the module and read the string. -/
def decomposingRun : Option (List Meeting × System Unit) :=
  System.play? (fun _ => .directory) (evaluator decomposingHost 4).evaluate
    (.starting .initial
      (Script.execute (evaluator decomposingHost 4) Store.root "s" "[import \"m\"]") [])
    [.main, .main, .main]

/-- The fault stands in the string, which is the only text without a name that was read. -/
theorem faults_are_located_in_decomposed :
    ∃ log σ, Trail (System.StepWith (evaluator decomposingHost 4).evaluate)
        (System.starting .initial
          (Script.execute (evaluator decomposingHost 4) Store.root "s" "[import \"m\"]") []) log σ ∧
      textsRead log = [(some "m", "[decompose \"[oops]\"]"), (none, "[oops]")] ∧
      ∃ fault ∈ σ.main.fault?, fault.location? = some ⟨1, 2, none⟩ ∧
        ∃ place, fault.location? = some place ∧
          place.PointsInto (IsSource decomposingHost "s" "[import \"m\"]" log) fault.Shows := by
  have hrun : decomposingRun.map (fun p => (textsRead p.1, p.2.main.fault?.map Fault.location?)) =
      some ([(some "m", "[decompose \"[oops]\"]"), (none, "[oops]")],
        some (some ⟨1, 2, none⟩)) := by
    decide +kernel
  obtain ⟨⟨log, σ⟩, hplay, heq⟩ := Option.map_eq_some_iff.1 hrun
  obtain ⟨hread, hfault⟩ := Prod.mk.inj heq
  obtain ⟨fault, hfault, hplace⟩ := Option.map_eq_some_iff.1 hfault
  rw [decomposingRun] at hplay
  have htrail := System.trail_of_play? hplay
  exact ⟨log, σ, htrail, hread, fault, hfault, hplace, faults_are_located rfl htrail hfault⟩

end BracketScript
