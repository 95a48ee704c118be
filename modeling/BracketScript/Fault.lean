import BracketScript.Keyword
import BracketScript.Kind
import BracketScript.LoadError
import BracketScript.ParseError

/-!
# Faults

What can go wrong while a program runs. A fault is a cause together with the place it is reported
at, if there is one; `Fault.message` is the only place where its wording stands.
-/

namespace BracketScript

inductive Arity where
  | exactly (count : Nat)
  | atLeast (count : Nat)
  | between (least most : Nat)
  deriving DecidableEq, Repr

def Arity.describe : Arity → String
  | .exactly count => s!"{count} parameters"
  | .atLeast count => s!"at least {count} parameters"
  | .between least most => s!"{least} to {most} parameters"

/-- Why a procedure failed. Where a `procedure` is named, it is the one that failed. -/
inductive Fault.Cause where
  | arity (procedure : String) (expected : Arity) (given : Nat)
  | missingOperand (procedure : String) (position : Nat)
  | lambdaArity (expected given : Nat)
  | dottedName (procedure name : String)
  | keywordDefined (k : Keyword)
  | keywordAssigned (k : Keyword)
  | nameExpected (procedure : String)
  | parametersNotList
  | parameterNotPlain
  | unreachableMember (name segment : String)
  | notBox (path : String)
  | notIterable
  | listExpected (procedure : String) (kind : Kind)
  | sequenceExpected (procedure : String) (kind : Kind)
  | indexNotInteger (procedure : String)
  | indexNegative (procedure : String) (index : Int)
  | indexOutOfRange (index length : Nat)
  | insideItself (procedure : String)
  | numberExpected (procedure : String) (kind : Kind)
  | integerExpected (procedure : String)
  | shiftOutOfRange (procedure : String) (amount : Int)
  | notInteger (kind : Kind)
  | notReal (kind : Kind)
  | labelNotString
  | conditionKind (kind : Kind)
  | statusNotInteger
  | moduleNotString
  | moduleNotLoaded (error : LoadError)
  | packageNotString
  | packageNotLoaded (error : LoadError)
  | sourceNotString
  | notJoinable
  /-- A fault in words of the program or its host. -/
  | reported (text : String)
  deriving DecidableEq, Repr

def Fault.Cause.message : Fault.Cause → String
  | .arity procedure expected given =>
    s!"`{procedure}` expects {expected.describe}, but {given} were given"
  | .missingOperand procedure position => s!"`{procedure}` is missing argument {position}"
  | .lambdaArity expected given => s!"lambda expected {expected} arguments but received {given}"
  | .dottedName procedure name => s!"`{procedure}` cannot define the dotted name `{name}`"
  | .keywordDefined k => s!"Attempting to define a key symbol: {k.name}"
  | .keywordAssigned k => s!"Attempting to set a key symbol: {k.name}"
  | .nameExpected procedure => s!"`{procedure}` expects a symbol name"
  | .parametersNotList => "lambda parameters must be a list"
  | .parameterNotPlain => "lambda parameters must be plain symbols"
  | .unreachableMember name segment =>
    s!"unable to resolve `{name}`: `{segment}` is not reachable through a box"
  | .notBox path => s!"`{path}` is not a box"
  | .notIterable => "`iter` expects a list to iterate over"
  | .listExpected procedure kind =>
    s!"`{procedure}` expects a list but was given a {kind.name}"
  | .sequenceExpected procedure kind =>
    s!"`{procedure}` expects a list or string but was given a {kind.name}"
  | .indexNotInteger procedure => s!"`{procedure}` expects an integer index"
  | .indexNegative procedure index => s!"`{procedure}` was given a negative index {index}"
  | .indexOutOfRange index length =>
    s!"`set_at` index {index} is out of range for a list of {length}"
  | .insideItself procedure => s!"`{procedure}` cannot place a list inside itself"
  | .numberExpected procedure kind =>
    s!"`{procedure}` expects numeric operands but was given a {kind.name}"
  | .integerExpected procedure => s!"`{procedure}` expects integer operands"
  | .shiftOutOfRange procedure amount => s!"`{procedure}` cannot shift by {amount}"
  | .notInteger kind => s!"unable to convert {kind.name} to an integer"
  | .notReal kind => s!"unable to convert {kind.name} to a real"
  | .labelNotString => "assert expects a raw string label"
  | .conditionKind kind => s!"assert condition evaluated to a {kind.name}"
  | .statusNotInteger => "`exit` expects an integer status"
  | .moduleNotString => "Import objects are expected to be raw strings"
  | .moduleNotLoaded error => s!"Unable to load import: {error.message}"
  | .packageNotString => "`use` expects parameters to be raw strings"
  | .packageNotLoaded error => error.message
  | .sourceNotString => "`decompose` expects a string"
  | .notJoinable => "thread is not joinable"
  | .reported text => text

inductive Fault where
  | parse (error : ParseError)
  | failure (cause : Fault.Cause) (location : Option Location)
  | assertion (label : String) (location : Option Location)
  | unknownName (name : String) (location : Option Location)
  deriving DecidableEq, Repr

namespace Fault

def location? : Fault → Option Location
  | .parse error => some error.location
  | .failure _ location | .assertion _ location | .unknownName _ location => location

def message : Fault → String
  | .parse error => error.message
  | .failure cause _ => cause.message
  | .assertion label _ => s!"assertion failure: {label}"
  | .unknownName name _ => s!"Unknown identifier `{name}`"

def category : Fault → String
  | .parse _ => "parse error"
  | .failure _ _ => "runtime error"
  | .assertion _ _ => "assertion error"
  | .unknownName _ _ => "unknown identifier"

def help? : Fault → Option String
  | .parse error => error.cause.help?
  | _ => none

end Fault

end BracketScript
