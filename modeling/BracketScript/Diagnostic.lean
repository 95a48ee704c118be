import BracketScript.Fault
import BracketScript.Text.Offset

/-!
# Reports on faults

A fault is shown in the source text that it stands in, if that text can be had and has the place of
the fault; otherwise it is reported in one line.
-/

namespace BracketScript

/-- What is shown of a fault in its source text: a number of bytes is marked. -/
structure Diagnostic where
  message : String
  label : String
  offset : Nat
  length : Nat
  help : Option String
  deriving DecidableEq, Repr

namespace Diagnostic

def ofFault (fault : Fault) (offset : Nat) : Diagnostic :=
  ⟨fault.message, fault.category, offset, 1, fault.help?⟩

def offset? (text : String) (location : Location) : Option Nat :=
  Text.offset? text location.line location.column

/-- The source text that is at hand: its name and its content. -/
structure Source where
  name : String
  text : String
  deriving DecidableEq, Repr

inductive Report where
  /-- One line of text. -/
  | plain (line : String)
  /-- A part of the text of the given name, with the fault marked. -/
  | window (name text : String) (diagnostic : Diagnostic)

/-- The text that a place belongs to. A place in a text without a name is taken to be in the source
at hand, and a named text that is not the source at hand is read from the path of its name. -/
def sourceOf {m : Type → Type} [Monad m] (look : String → m Entry) (source : Option Source)
    (location : Location) : m (Option String) := do
  match location.origin, source with
  | some origin, some atHand =>
    if origin = atHand.name then pure (some atHand.text) else readText origin
  | some origin, none => readText origin
  | none, some atHand => pure (some atHand.text)
  | none, none => pure none
where
  /-- The text at a path, if it can be read. -/
  readText (path : String) : m (Option String) := do
    match (← look path).read with
    | .ok text => pure (some text)
    | .error _ => pure none

def report {m : Type → Type} [Monad m] (look : String → m Entry) (fault : Fault)
    (source : Option Source) : m Report := do
  match fault.location? with
  | none => pure (.plain s!"{fault.category}: {fault.message}")
  | some location =>
    let line := s!"{fault.category}: {fault.message} ({location.text})"
    match ← sourceOf look source location with
    | none => pure (.plain line)
    | some text =>
      match offset? text location with
      | none => pure (.plain line)
      | some offset =>
        let name := location.origin.getD ((source.map Source.name).getD "<input>")
        pure (.window name text (ofFault fault offset))

end Diagnostic

end BracketScript
