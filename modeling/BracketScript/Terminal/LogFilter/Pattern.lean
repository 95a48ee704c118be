import BracketScript.Terminal.LogFilter.Pattern.Class
import BracketScript.Text.Letter

/-!
# Patterns

The form of regular expressions: groups, alternatives, repetitions, classes in square brackets and
escapes. Nothing is matched here; `Pattern.check` says whether a text is a pattern that can be
matched.

A pattern is read from left to right. Each open group is a `Level` that remembers the mode in force
in it, so that settings end with their group.
-/

namespace BracketScript.Pattern

inductive Flaw where
  | malformed
  /-- The pattern asks for the edge of a word, which depends on characters on both sides. -/
  | wordEdge
  deriving DecidableEq, Repr

/-! ### Groups -/

inductive Opening where
  /-- A group with settings of its own. -/
  | group (settings : List Char)
  /-- A group with a name. -/
  | named (name : List Char)
  /-- Settings in brackets of their own. -/
  | settings (settings : List Char)
  deriving DecidableEq, Repr

def isGroupName : List Char → Bool
  | [] => false
  | first :: others =>
    (first == '_' || Text.isLetter first) &&
      others.all fun c => "_.[]".toList.contains c || Text.isLetterOrDigit c

def readGroupName? (cs : List Char) : Option (Opening × List Char) :=
  let name := cs.takeWhile (· != '>')
  match cs.dropWhile (· != '>') with
  | _ :: rest => if isGroupName name then some (.named name, rest) else none
  | [] => none

def areSettings (cs : List Char) : Bool :=
  cs.all ("imsURux-".toList.contains ·) && cs.all (cs.count · == 1) && cs.getLast? != some '-'

def readOpening? : List Char → Option (Opening × List Char)
  | '?' :: 'P' :: '<' :: rest => readGroupName? rest
  | '?' :: '<' :: rest => readGroupName? rest
  | '?' :: rest =>
    let isEnd (c : Char) := c == ':' || c == ')'
    let settings := rest.takeWhile fun c => !isEnd c
    if areSettings settings then
      match rest.dropWhile fun c => !isEnd c with
      | ':' :: rest => some (.group settings, rest)
      | ')' :: rest => if settings.isEmpty then none else some (.settings settings, rest)
      | _ => none
    else none
  | rest => some (.group [], rest)

structure Level where
  /-- How the next part is read. -/
  mode : Mode
  /-- The alternatives that are complete. -/
  alternatives : Row
  /-- The last alternative. -/
  sequence : Sequence
  deriving DecidableEq, Repr

namespace Level

def new (mode : Mode) : Level := ⟨mode, .none, .none⟩

def add (level : Level) (part : Part) : Level :=
  { level with sequence := level.sequence.add part }

def row (level : Level) : Row := level.alternatives.add level.sequence.row.depth

def alternate (level : Level) : Level := ⟨level.mode, level.row, .none⟩

end Level

/-! ### Whole patterns -/

structure Progress where
  /-- The names of groups. -/
  names : List (List Char)
  /-- The pattern asks for the edge of a word among characters. -/
  hasWordEdge : Bool
  /-- The levels around the current one. -/
  outer : List Level
  level : Level
  deriving DecidableEq, Repr

namespace Progress

def initial : Progress := ⟨[], false, [], .new .initial⟩

def openGroup (progress : Progress) (mode : Mode) : Progress :=
  { progress with outer := progress.level :: progress.outer, level := .new mode }

def closeGroup? (progress : Progress) : Option Progress :=
  match progress.outer with
  | [] => none
  | holder :: outer =>
    some { progress with outer, level := holder.add ⟨progress.level.row.depth + 1, true⟩ }

def opening? (progress : Progress) : Opening → Option Progress
  | .group settings => some (progress.openGroup (progress.level.mode.set settings))
  | .named name =>
    if progress.names.contains name then none
    else some { progress.openGroup progress.level.mode with names := name :: progress.names }
  | .settings settings =>
    let level := progress.level.add ⟨0, false⟩
    some { progress with level := { level with mode := level.mode.set settings } }

def atom? (progress : Progress) (atom : Atom) : Option Progress :=
  let mode := progress.level.mode
  if mode.allows atom then
    some { progress with
      hasWordEdge := progress.hasWordEdge || mode.isUnicode && atom == .place true
      level := progress.level.add ⟨0, true⟩ }
  else none

def repeated? (progress : Progress) : Option Progress :=
  progress.level.sequence.repeated?.map fun sequence =>
    { progress with level := { progress.level with sequence } }

/-- Take the character `c` of a pattern and as many of those behind it as go with it. -/
def step? (progress : Progress) (fuel : Nat) (c : Char) (rest : List Char) :
    Option (Progress × List Char) := do
  let mode := progress.level.mode
  match c with
  | '(' =>
    let (opening, rest) ← readOpening? (mode.skip rest)
    return (← progress.opening? opening, rest)
  | ')' => return (← progress.closeGroup?, rest)
  | '|' => return ({ progress with level := progress.level.alternate }, rest)
  | '*' | '+' | '?' =>
    return (← progress.repeated?, if rest.head? == some '?' then rest.drop 1 else rest)
  | '\x7b' => none
  | '[' =>
    let (depth, rest) ← readClass? mode fuel true [] .none (← openClass? mode rest)
    return ({ progress with level := progress.level.add ⟨depth, true⟩ }, rest)
  | '\\' =>
    let (atom, rest) ← readEscape? mode rest
    return (← progress.atom? atom, rest)
  | '.' => return (← progress.atom? .any, rest)
  | '^' | '$' => return (← progress.atom? (.place false), rest)
  | c => return (← progress.atom? (.character c), rest)

def read? : (fuel : Nat) → Progress → List Char → Option Progress
  | 0, _, _ => none
  | fuel + 1, progress, cs =>
    match progress.level.mode.skip cs with
    | [] => some progress
    | c :: rest => do
      let (progress, rest) ← progress.step? (fuel + 1) c rest
      read? fuel progress rest

end Progress

/-- Whether a text is a pattern that can be matched. Patterns come without closing braces, so that
no opening one can be part of a repetition. -/
def check (text : String) : Except Flaw Unit :=
  match Progress.initial.read? (text.length + 1) text.toList with
  | none => .error .malformed
  | some progress =>
    if !progress.outer.isEmpty || progress.level.row.depth > depthLimit then .error .malformed
    else if progress.hasWordEdge then .error .wordEdge
    else .ok ()

end BracketScript.Pattern
