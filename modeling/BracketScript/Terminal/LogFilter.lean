import BracketScript.Terminal.LogFilter.Pattern
import BracketScript.Text.Blank
import BracketScript.Text.Bytes
import BracketScript.Text.Split

/-!
# Log filters

A log filter is a row of directives with commas between them, and each says how much is logged and
where: `warn`, `lib=debug`, `lib[load]=info`, `[load{path=a.*}]`. A directive is read from left to
right; what it leaves out stays unrestricted.

Blanks around a directive are passed over, but places in it are counted from its first character
that is not blank and then used on the whole of it. So a blank in front moves the parts that are cut
out, and a blank at the end belongs to the last of them.
-/

namespace BracketScript

inductive LogLevel where
  | off | error | warn | info | debug | trace
  deriving DecidableEq, Repr

namespace LogLevel

def all : List LogLevel := [.off, .error, .warn, .info, .debug, .trace]

def name : LogLevel → String
  | .off => "off"
  | .error => "error"
  | .warn => "warn"
  | .info => "info"
  | .debug => "debug"
  | .trace => "trace"

def number? (cs : List Char) : Option Nat :=
  let digits := if cs.head? == some '+' then cs.drop 1 else cs
  if digits.isEmpty || !digits.all Decimal.isDigit then none else some (Decimal.natOfDigits digits)

/-- The level that a text denotes, by its number or by its name in any case. -/
def ofText? (cs : List Char) : Option LogLevel :=
  match number? cs with
  | some n => all[n]?
  | none => all.find? fun level => level.name == String.ofList (cs.map Char.toLower)

end LogLevel

namespace LogFilter

inductive Error where
  | malformed
  | unknownLevel
  /-- The value of a field is no pattern. -/
  | badPattern (flaw : Pattern.Flaw)
  /-- A part would start or end inside of a character. -/
  | brokenCharacter
  deriving DecidableEq, Repr

def Error.message : Error → String
  | .malformed | .brokenCharacter => "invalid filter directive"
  | .unknownLevel =>
    "error parsing level filter: expected one of \"off\", \"error\", \"warn\", \"info\", " ++
      "\"debug\", \"trace\", or a number 0-5"
  | .badPattern .malformed => "invalid field filter: error building NFA"
  | .badPattern .wordEdge =>
    "invalid field filter: unsupported regex feature for DFAs: cannot build DFAs for regexes " ++
      "with Unicode word boundaries; switch to ASCII word boundaries, or heuristically enable " ++
      "Unicode word boundaries or use a different regex engine"

/-- A field that an event must have, and the number or pattern that its value must match. -/
structure Field where
  name : String
  value : Option String
  deriving DecidableEq, Repr

structure Directive where
  target : Option String
  span : Option String
  fields : List Field
  level : LogLevel
  deriving DecidableEq, Repr

def Directive.everything : Directive := ⟨none, none, [], .trace⟩

def dropBytes (n : Nat) (text : List Char) : Except Error (List Char) :=
  match Text.dropBytes? n text with
  | some rest => .ok rest
  | none => .error .brokenCharacter

def cut (text : List Char) (first last : Nat) : Except Error (List Char) :=
  match Text.between? first last text with
  | some part => .ok part
  | none => .error .brokenCharacter

def readField (cs : List Char) : Except Error Field :=
  match Text.split '=' cs with
  | ([], []) => .error .malformed
  | (name, []) => .ok ⟨String.ofList name, none⟩
  | (name, value :: _) =>
    if (Decimal.read? value).isSome then .ok ⟨String.ofList name, some (String.ofList value)⟩
    else
      match Pattern.check (String.ofList value) with
      | .ok _ => .ok ⟨String.ofList name, some (String.ofList value)⟩
      | .error flaw => .error (.badPattern flaw)

/-- The level at the end of a directive; without one everything is logged. -/
def readLevel (cs : List Char) : Except Error LogLevel :=
  if cs.isEmpty then .ok .trace
  else
    match LogLevel.ofText? cs with
    | some level => .ok level
    | none => .error .unknownLevel

inductive Part where
  | start
  | levelOrTarget (first : Nat)
  | span (first : Nat)
  | field (first : Nat)
  | afterFields
  | afterSpan
  | level (first : Nat)
  deriving DecidableEq, Repr

def isStart (c : Char) : Bool :=
  c == '-' || c == ':' || c == '_' || Text.isLetterOrDigit c

def step (text : List Char) (directive : Directive) (part : Part) (place : Nat) (c : Char) :
    Except Error (Directive × Part) := do
  match part, c with
  | .start, '[' => return (directive, .span (place + 1))
  | .start, c => if isStart c then return (directive, .levelOrTarget place) else .error .malformed
  | .levelOrTarget first, '=' =>
    let target ← cut text first place
    return ({ directive with target := some (String.ofList target) }, .level (place + 1))
  | .levelOrTarget first, '[' =>
    let target ← cut text first place
    return ({ directive with target := some (String.ofList target) }, .span (place + 1))
  | .span first, ']' =>
    let span ← cut text first place
    return ({ directive with span := some (String.ofList span) }, .afterSpan)
  | .span first, '\x7b' =>
    let span ← cut text first place
    let span := if span.isEmpty then none else some (String.ofList span)
    return ({ directive with span }, .field (place + 1))
  | .field first, '\x7d' =>
    let field ← readField (← cut text first place)
    return ({ directive with fields := directive.fields ++ [field] }, .afterFields)
  | .afterFields, ']' => return (directive, .afterSpan)
  | .afterSpan, '=' => return (directive, .level (place + 1))
  | .afterFields, _ | .afterSpan, _ => .error .malformed
  | part, _ => return (directive, part)

def readFrom (text : List Char) (directive : Directive) (part : Part) (place : Nat) :
    List Char → Except Error (Directive × Part)
  | [] => .ok (directive, part)
  | c :: cs => do
    let (directive, part) ← step text directive part place c
    readFrom text directive part (place + c.utf8Size) cs

/-- End a directive. A text alone is a level if it can be one, and else a target. -/
def finish (text : List Char) (directive : Directive) : Part → Except Error Directive
  | .levelOrTarget first => do
    let word ← dropBytes first text
    match LogLevel.ofText? word with
    | some level => return { directive with level, target := none }
    | none => return { directive with target := some (String.ofList word) }
  | .level first => do
    let level ← readLevel (← dropBytes first text)
    return { directive with level }
  | .afterSpan => .ok directive
  | .start | .span _ | .field _ | .afterFields => .error .malformed

def readDirective (text : List Char) : Except Error Directive := do
  let (directive, part) ← readFrom text .everything .start 0 (Text.trim text)
  finish text directive part

def parse (text : String) : Except Error (List Directive) :=
  let (first, others) := Text.split ',' text.toList
  ((first :: others).filter fun piece => !piece.isEmpty).mapM readDirective

end LogFilter

end BracketScript
