import BracketScript.Disk
import BracketScript.Search
import Mathlib.Data.Prod.Lex
import Mathlib.Order.Bounds.Basic

/-!
# The order in which modules are looked for

Two orders are interleaved in the search for a module: that of the bases, which are the name itself
and the paths below the roots, and that of the two forms in which a base is tried. An `Attempt`
names a base by its number and one of the two forms, and attempts are compared lexicographically.
The candidates of a search are the paths of all attempts from the least one on, and what the search
finds is decided by the least attempt that meets a file.
-/

namespace BracketScript.Search

/-- The number of a base and whether the extension of source files is added to it. -/
abbrev Attempt := ℕ ×ₗ Bool

/-- The bases of a search: the name comes first, and if it is relative the paths below the roots
follow. -/
def base? (roots : List String) (name : String) : ℕ → Option String
  | 0 => some name
  | i + 1 => if Path.isAbsolute name then none else roots[i]?.map fun root => Path.join root name

/-- The form of a base that is tried: the base as it is, or with the extension of source files if it
has none. -/
def form? (base : String) : Bool → Option String
  | false => some base
  | true =>
    if (Path.extension? base).isNone then some (Path.withExtension base sourceExtension) else none

def path? (roots : List String) (name : String) (a : Attempt) : Option String :=
  (base? roots name (ofLex a).1).bind fun base => form? base (ofLex a).2

/-- The attempts that meet a file, whether it can be read or not. -/
def hits (look : String → Entry) (roots : List String) (name : String) : Set Attempt :=
  {a | ∃ path content, path? roots name a = some path ∧ look path = .file content}

/-- The attempts are all there are, in their order, and these are their paths. -/
structure Enumerates (roots : List String) (name : String) (attempts : List Attempt)
    (paths : List String) : Prop where
  sorted : attempts.Pairwise (· < ·)
  paths_eq : attempts.map (path? roots name) = paths.map some
  complete : ∀ a, (path? roots name a).isSome → a ∈ attempts

/-! ### Attempts -/

/-- The same attempt when another base is put in front. -/
def Attempt.next (a : Attempt) : Attempt :=
  toLex ((ofLex a).1 + 1, (ofLex a).2)

theorem Attempt.lt_iff {a b : Attempt} :
    a < b ↔ (ofLex a).1 < (ofLex b).1 ∨ (ofLex a).1 = (ofLex b).1 ∧ (ofLex a).2 < (ofLex b).2 :=
  Prod.Lex.lt_iff

theorem Attempt.next_lt_next {a b : Attempt} (h : a < b) : a.next < b.next := by
  rw [lt_iff] at h ⊢
  simpa [next] using h

theorem Attempt.zero_lt_next (form : Bool) (a : Attempt) : toLex (0, form) < a.next := by
  rw [lt_iff]
  simp [next]

/-- The forms in which a base is tried. -/
def formsOf (base : String) : List Bool :=
  if (Path.extension? base).isNone then [false, true] else [false]

def attemptsOn : List String → List Attempt
  | [] => []
  | base :: bases =>
    (formsOf base).map (fun form => toLex (0, form)) ++ (attemptsOn bases).map Attempt.next

def pathOn? (bases : List String) (a : Attempt) : Option String :=
  bases[(ofLex a).1]?.bind fun base => form? base (ofLex a).2

theorem pathOn?_next (base : String) (bases : List String) (a : Attempt) :
    pathOn? (base :: bases) a.next = pathOn? bases a := by
  simp [pathOn?, Attempt.next]

theorem map_form? (base : String) : (formsOf base).map (form? base) = (variants base).map some := by
  by_cases h : (Path.extension? base).isNone = true <;> simp [formsOf, variants, form?, h]

theorem mem_formsOf {base : String} {form : Bool} (h : (form? base form).isSome) :
    form ∈ formsOf base := by
  cases form with
  | false =>
    rw [formsOf]
    split <;> simp
  | true =>
    rw [form?] at h
    split at h
    · next hnone => simp [formsOf, hnone]
    · cases h

theorem pairwise_formsOf (base : String) : (formsOf base).Pairwise (· < ·) := by
  rw [formsOf]
  split <;> simp

theorem pairwise_attemptsOn (bases : List String) : (attemptsOn bases).Pairwise (· < ·) := by
  induction bases with
  | nil => exact .nil
  | cons base bases ih =>
    rw [attemptsOn, List.pairwise_append]
    refine ⟨?_, ?_, ?_⟩
    · refine (pairwise_formsOf base).map _ fun form form' h => ?_
      rw [Attempt.lt_iff]
      exact .inr ⟨rfl, h⟩
    · exact ih.map _ fun _ _ => Attempt.next_lt_next
    · intro a ha b hb
      obtain ⟨form, -, rfl⟩ := List.mem_map.1 ha
      obtain ⟨later, -, rfl⟩ := List.mem_map.1 hb
      exact Attempt.zero_lt_next form later

theorem map_pathOn? (bases : List String) :
    (attemptsOn bases).map (pathOn? bases) = (bases.flatMap variants).map some := by
  induction bases with
  | nil => rfl
  | cons base bases ih =>
    have hfirst : (fun form => pathOn? (base :: bases) (toLex (0, form))) = form? base := by
      funext form
      simp [pathOn?]
    have hlater : pathOn? (base :: bases) ∘ Attempt.next = pathOn? bases :=
      funext (pathOn?_next base bases)
    rw [attemptsOn, List.map_append, List.map_map, List.map_map, hlater, ih, List.flatMap_cons,
      List.map_append, ← map_form?, ← hfirst]
    rfl

theorem mem_attemptsOn {bases : List String} {a : Attempt} (h : (pathOn? bases a).isSome) :
    a ∈ attemptsOn bases := by
  induction bases generalizing a with
  | nil => simp [pathOn?] at h
  | cons base bases ih =>
    obtain ⟨i, form⟩ := a
    cases i with
    | zero =>
      have hform : (form? base form).isSome := h
      exact List.mem_append_left _ (List.mem_map.2 ⟨form, mem_formsOf hform, rfl⟩)
    | succ i =>
      have hlater : (pathOn? bases (toLex (i, form))).isSome := by
        rwa [← pathOn?_next base]
      exact List.mem_append_right _ (List.mem_map.2 ⟨_, ih hlater, rfl⟩)

def basesOf (roots : List String) (name : String) : List String :=
  name :: if Path.isAbsolute name then [] else roots.map fun root => Path.join root name

theorem path?_eq (roots : List String) (name : String) :
    path? roots name = pathOn? (basesOf roots name) := by
  funext a
  have hbase : ∀ i, base? roots name i = (basesOf roots name)[i]? := by
    intro i
    cases i with
    | zero => rfl
    | succ i =>
      by_cases h : Path.isAbsolute name = true <;> simp [base?, basesOf, h]
  rw [path?, pathOn?, hbase]

/-- The candidates of a search are the paths of its attempts, from the least one on. -/
theorem enumerates_candidates (roots : List String) (name : String) :
    Enumerates roots name (attemptsOn (basesOf roots name)) (candidates roots name) where
  sorted := pairwise_attemptsOn _
  paths_eq := by
    rw [path?_eq]
    exact map_pathOn? _
  complete a h := by
    rw [path?_eq] at h
    exact mem_attemptsOn h

/-- The list in front of an element of a list in order holds what is less than this element. -/
theorem Enumerates.exists_of_append {roots : List String} {name path : String}
    {attempts : List Attempt} {front back : List String}
    (h : Enumerates roots name attempts (front ++ path :: back)) :
    ∃ a, path? roots name a = some path ∧
      ∀ b < a, ∀ other, path? roots name b = some other → other ∈ front := by
  have hpaths := h.paths_eq
  rw [List.map_append, List.map_cons] at hpaths
  obtain ⟨before, rest, rfl, hbefore, hrest⟩ := List.map_eq_append_iff.1 hpaths
  obtain ⟨a, after, rfl, ha, -⟩ := List.map_eq_cons_iff.1 hrest
  refine ⟨a, ha, fun b hlt other hother => ?_⟩
  have hmem := h.complete b (by simp [hother])
  have hsorted := List.pairwise_append.1 h.sorted
  rcases List.mem_append.1 hmem with hb | hb
  · have hpath := List.mem_map_of_mem (f := path? roots name) hb
    rw [hbefore, hother] at hpath
    simpa using hpath
  · -- what comes later is not less
    rcases List.mem_cons.1 hb with rfl | hb
    · exact absurd hlt (lt_irrefl b)
    · exact absurd hlt (not_lt_of_gt ((List.pairwise_cons.1 hsorted.2.1).1 b hb))

theorem Enumerates.mem_iff {roots : List String} {name path : String}
    {attempts : List Attempt} {paths : List String} (h : Enumerates roots name attempts paths) :
    path ∈ paths ↔ ∃ a, path? roots name a = some path := by
  constructor
  · intro hpath
    obtain ⟨front, back, rfl⟩ := List.append_of_mem hpath
    obtain ⟨a, ha, -⟩ := h.exists_of_append
    exact ⟨a, ha⟩
  · rintro ⟨a, ha⟩
    have hmem := List.mem_map_of_mem (f := path? roots name) (h.complete a (by simp [ha]))
    rw [h.paths_eq, ha] at hmem
    simpa using hmem

/-! ### The first file -/

section FirstFile

variable {look : String → Entry} {path : String} {content : Except ReadError String}
  {paths : List String}

def IsFile (look : String → Entry) (path : String) : Prop :=
  ∃ content, look path = .file content

theorem firstFile_of_file (h : look path = .file content) (paths : List String) :
    Id.run (firstFile look (path :: paths)) = some (path, content) := by
  simp only [firstFile, bind, h]
  rfl

theorem firstFile_of_not_isFile (h : ¬ IsFile look path) (paths : List String) :
    Id.run (firstFile look (path :: paths)) = Id.run (firstFile look paths) := by
  simp only [firstFile, bind]
  cases hentry : look path with
  | file content => exact absurd ⟨content, hentry⟩ h
  | _ => rfl

theorem firstFile_eq_none_iff :
    Id.run (firstFile look paths) = none ↔ ∀ path ∈ paths, ¬ IsFile look path := by
  induction paths with
  | nil => simp [firstFile]
  | cons path paths ih =>
    by_cases h : IsFile look path
    · obtain ⟨content, hcontent⟩ := h
      rw [firstFile_of_file hcontent]
      simp [IsFile, hcontent]
    · rw [firstFile_of_not_isFile h, ih, List.forall_mem_cons]
      simp [h]

theorem firstFile_append (h : ∀ path ∈ paths, ¬ IsFile look path) (more : List String) :
    Id.run (firstFile look (paths ++ more)) = Id.run (firstFile look more) := by
  induction paths with
  | nil => rfl
  | cons path paths ih =>
    rw [List.forall_mem_cons] at h
    rw [List.cons_append, firstFile_of_not_isFile h.1, ih h.2]

theorem exists_of_firstFile (h : Id.run (firstFile look paths) = some (path, content)) :
    ∃ front back, paths = front ++ path :: back ∧ (∀ other ∈ front, ¬ IsFile look other) ∧
      look path = .file content := by
  induction paths with
  | nil => cases h
  | cons other paths ih =>
    by_cases hother : IsFile look other
    · obtain ⟨content', hcontent⟩ := hother
      rw [firstFile_of_file hcontent] at h
      cases h
      exact ⟨[], paths, rfl, by simp, hcontent⟩
    · rw [firstFile_of_not_isFile hother] at h
      obtain ⟨front, back, rfl, hfront, hcontent⟩ := ih h
      exact ⟨other :: front, back, rfl, List.forall_mem_cons.2 ⟨hother, hfront⟩, hcontent⟩

/-- A file that was found is found whatever comes behind. -/
theorem firstFile_append_of_eq_some (h : Id.run (firstFile look paths) = some (path, content))
    (more : List String) : Id.run (firstFile look (paths ++ more)) = some (path, content) := by
  obtain ⟨front, back, rfl, hfront, hcontent⟩ := exists_of_firstFile h
  rw [List.append_assoc, firstFile_append hfront, List.cons_append, firstFile_of_file hcontent]

/-- Surroundings that answer at once make no difference. -/
theorem firstFile_pure {m : Type → Type} [Monad m] [LawfulMonad m] (look : String → Entry)
    (paths : List String) :
    firstFile (fun path => (pure (look path) : m Entry)) paths =
      pure (Id.run (firstFile look paths)) := by
  induction paths with
  | nil => rfl
  | cons path paths ih =>
    rw [firstFile, pure_bind]
    cases hentry : look path with
    | file content => rw [firstFile_of_file hentry]
    | _ =>
      rw [firstFile_of_not_isFile (by simp [IsFile, hentry])]
      exact ih

end FirstFile

/-! ### What is found -/

section Find

variable {look : String → Entry} {roots : List String} {name path : String}
  {content : Except ReadError String}

theorem mem_hits_iff {a : Attempt} :
    a ∈ hits look roots name ↔ ∃ path, path? roots name a = some path ∧ IsFile look path := by
  simp only [hits, IsFile, Set.mem_ofPred_eq, exists_and_left]

theorem hits_eq_empty_iff :
    hits look roots name = ∅ ↔ ∀ path ∈ candidates roots name, ¬ IsFile look path := by
  simp only [Set.eq_empty_iff_forall_notMem, mem_hits_iff,
    (enumerates_candidates roots name).mem_iff]
  constructor
  · rintro h path ⟨a, ha⟩ hfile
    exact h a ⟨path, ha, hfile⟩
  · rintro h a ⟨path, ha, hfile⟩
    exact h path ⟨a, ha⟩ hfile

theorem exists_isLeast_of_firstFile
    (h : Id.run (firstFile look (candidates roots name)) = some (path, content)) :
    ∃ a, IsLeast (hits look roots name) a ∧ path? roots name a = some path ∧
      look path = .file content := by
  obtain ⟨front, back, hpaths, hfront, hcontent⟩ := exists_of_firstFile h
  have henumerates := enumerates_candidates roots name
  rw [hpaths] at henumerates
  obtain ⟨a, ha, hbefore⟩ := henumerates.exists_of_append
  refine ⟨a, ⟨⟨path, content, ha, hcontent⟩, fun b hb => ?_⟩, ha, hcontent⟩
  obtain ⟨other, hother, hfile⟩ := mem_hits_iff.1 hb
  by_contra hlt
  exact hfront other (hbefore b (not_le.1 hlt) other hother) hfile

/-- The first candidate that is a file is the one of the least attempt that meets a file. -/
theorem firstFile_eq_some_iff :
    Id.run (firstFile look (candidates roots name)) = some (path, content) ↔
      ∃ a, IsLeast (hits look roots name) a ∧ path? roots name a = some path ∧
        look path = .file content := by
  refine ⟨exists_isLeast_of_firstFile, ?_⟩
  rintro ⟨a, ha, hpath, hcontent⟩
  cases hfirst : Id.run (firstFile look (candidates roots name)) with
  | none =>
    have hempty := hits_eq_empty_iff.2 (firstFile_eq_none_iff.1 hfirst)
    exact absurd ha.1 (by simp [hempty])
  | some found =>
    -- there is one least attempt only
    obtain ⟨b, hb, hpath', hcontent'⟩ := exists_isLeast_of_firstFile hfirst
    rw [hb.unique ha, hpath] at hpath'
    obtain rfl := Option.some.inj hpath'
    rw [hcontent] at hcontent'
    obtain rfl := Entry.file.inj hcontent'
    rfl

/-- What becomes of the first file among the candidates. -/
def outcome (roots : List String) (name : String) :
    Option (String × Except ReadError String) → Except LoadError SourceText
  | some (path, .ok text) => .ok ⟨path, text⟩
  | some (path, .error reason) => .error (.unreadable path reason)
  | none => .error (.notFound name (candidates roots name))

/-- Surroundings that answer at once make no difference. -/
theorem find_pure {m : Type → Type} [Monad m] [LawfulMonad m] (look : String → Entry)
    (roots : List String) (name : String) :
    find (fun path => (pure (look path) : m Entry)) roots name =
      pure (outcome roots name (Id.run (firstFile look (candidates roots name)))) := by
  rw [find, firstFile_pure, pure_bind]
  rcases Id.run (firstFile look (candidates roots name)) with _ | ⟨path, text | reason⟩ <;> rfl

theorem find_eq (look : String → Entry) (roots : List String) (name : String) :
    Id.run (find look roots name) =
      outcome roots name (Id.run (firstFile look (candidates roots name))) :=
  find_pure (m := Id) look roots name

theorem outcome_eq_ok_iff {found : Option (String × Except ReadError String)}
    {source : SourceText} :
    outcome roots name found = .ok source ↔ found = some (source.origin, .ok source.text) := by
  obtain ⟨origin, text⟩ := source
  unfold outcome
  split <;> simp

theorem outcome_eq_unreadable_iff {found : Option (String × Except ReadError String)}
    {reason : ReadError} :
    outcome roots name found = .error (.unreadable path reason) ↔
      found = some (path, .error reason) := by
  unfold outcome
  split <;> simp

theorem outcome_eq_notFound_iff {found : Option (String × Except ReadError String)}
    {asked : String} {searched : List String} :
    outcome roots name found = .error (.notFound asked searched) ↔
      asked = name ∧ searched = candidates roots name ∧ found = none := by
  unfold outcome
  split <;> simp [eq_comm]

theorem candidates_append (roots more : List String) (name : String) :
    ∃ others, candidates (roots ++ more) name = candidates roots name ++ others := by
  refine ⟨(if Path.isAbsolute name then [] else more.map fun root => Path.join root name).flatMap
    variants, ?_⟩
  by_cases h : Path.isAbsolute name = true <;> simp [candidates, h]

end Find

/-- What a search comes to is decided by the least attempt that meets a file. -/
structure DecidedByLeast (look : String → Entry) (roots : List String) (name : String)
    (found : Except LoadError SourceText) : Prop where
  text : ∀ source, found = .ok source ↔ ∃ a, IsLeast (hits look roots name) a ∧
    path? roots name a = some source.origin ∧ look source.origin = .file (.ok source.text)
  unreadable : ∀ path reason, found = .error (.unreadable path reason) ↔
    ∃ a, IsLeast (hits look roots name) a ∧ path? roots name a = some path ∧
      look path = .file (.error reason)
  notFound : ∀ asked searched, found = .error (.notFound asked searched) ↔
    asked = name ∧ searched = candidates roots name ∧ hits look roots name = ∅
  /-- There is no other way for a search to fail. -/
  ne_unknownPackage : ∀ package, found ≠ .error (.unknownPackage package)

theorem decidedByLeast_find (look : String → Entry) (roots : List String) (name : String) :
    DecidedByLeast look roots name (Id.run (find look roots name)) := by
  rw [find_eq]
  constructor
  · intro source
    rw [outcome_eq_ok_iff, firstFile_eq_some_iff]
  · intro path reason
    rw [outcome_eq_unreadable_iff, firstFile_eq_some_iff]
  · intro asked searched
    rw [outcome_eq_notFound_iff, firstFile_eq_none_iff, hits_eq_empty_iff]
  · intro package
    unfold outcome
    split <;> simp

end BracketScript.Search

namespace BracketScript

open Search

/-- A module is looked for at all candidates in their order, and the first one that is a file
decides what is found: its text, or that it cannot be read. Only if there is no such file nothing is
found, and all candidates are told then. Further roots therefore make no difference to a search that
came to a file, and surroundings that answer at once make none at all. -/
theorem modules_are_found_in_order (look : String → Entry) (roots : List String) (name : String) :
    (∃ attempts, Enumerates roots name attempts (candidates roots name)) ∧
    DecidedByLeast look roots name (Id.run (find look roots name)) ∧
    (∀ more, (∀ searched, Id.run (find look roots name) ≠ .error (.notFound name searched)) →
      Id.run (find look (roots ++ more) name) = Id.run (find look roots name)) ∧
    ∀ (m : Type → Type) [Monad m] [LawfulMonad m],
      find (fun path => (pure (look path) : m Entry)) roots name =
        pure (Id.run (find look roots name)) := by
  refine ⟨⟨_, enumerates_candidates roots name⟩, decidedByLeast_find look roots name, ?_, ?_⟩
  · intro more hfound
    simp only [find_eq] at hfound ⊢
    obtain ⟨others, hothers⟩ := candidates_append roots more name
    cases hfirst : Id.run (firstFile look (candidates roots name)) with
    | none =>
      rw [hfirst] at hfound
      exact absurd rfl (hfound _)
    | some found =>
      have hlonger : Id.run (firstFile look (candidates (roots ++ more) name)) = some found := by
        rw [hothers]
        exact firstFile_append_of_eq_some hfirst others
      obtain ⟨path, content⟩ := found
      rw [hlonger]
      cases content <;> rfl
  · intro m _ _
    rw [find_pure, find_eq]

/-- A disk with a directory of the name, a file below the first root that is no text, and a file of
the name below the second root. -/
def shadowingDisk : Disk :=
  ((Disk.empty.addDirectory "shapes").addFile "lib/shapes.saur" (.error .invalidText)).addFile
    "more/shapes" (.ok "1")

theorem find_shadowingDisk :
    Id.run (find shadowingDisk.entry ["lib", "more"] "shapes") =
      .error (.unreadable "lib/shapes.saur" .invalidText) := by
  decide +kernel

/-- The file that is no text is met in the second form of the second base, it is the first one that
is a file, and no root behind makes up for it. -/
theorem modules_are_found_in_order_shadowed :
    (∃ a, IsLeast (hits shadowingDisk.entry ["lib", "more"] "shapes") a ∧
      path? ["lib", "more"] "shapes" a = some "lib/shapes.saur") ∧
    ∀ more, Id.run (find shadowingDisk.entry (["lib", "more"] ++ more) "shapes") =
      .error (.unreadable "lib/shapes.saur" .invalidText) := by
  obtain ⟨-, hdecided, hmore, -⟩ :=
    modules_are_found_in_order shadowingDisk.entry ["lib", "more"] "shapes"
  constructor
  · obtain ⟨a, ha, hpath, -⟩ := (hdecided.unreadable _ _).1 find_shadowingDisk
    exact ⟨a, ha, hpath⟩
  · intro more
    rw [hmore more (by simp [find_shadowingDisk]), find_shadowingDisk]

end BracketScript
