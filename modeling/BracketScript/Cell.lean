import BracketScript.Keyword
import BracketScript.Kind
import BracketScript.Location

/-!
# Cells

A running program works on cells: values with an identity and, if they come from a source text, a
place. Code is made of cells too, so that a program can be evaluated, quoted and passed on like any
other value.

What never changes is part of the cell. What can change lives in the store and is reached through
an identity: the items of a list under the identity of its cell, and scopes, channels, references
and tasks each under an identity of their own.
-/

namespace BracketScript

structure CellId where
  index : Nat
  deriving DecidableEq, Repr

structure ScopeId where
  index : Nat
  deriving DecidableEq, Repr

structure ChannelId where
  index : Nat
  deriving DecidableEq, Repr

structure RefId where
  index : Nat
  deriving DecidableEq, Repr

structure TaskId where
  index : Nat
  deriving DecidableEq, Repr

inductive HandleKind where
  | async | thread | channel | reference
  deriving DecidableEq, Repr

def HandleKind.name : HandleKind → String
  | .async => "async"
  | .thread => "thread"
  | .channel => "chan"
  | .reference => "ref"

/-- A method of a handle, bound to what the handle gives access to. -/
inductive Method where
  | waitFor (task : TaskId)
  | resultOf (task : TaskId)
  | join (task : TaskId)
  | detach (task : TaskId)
  | isJoinable (task : TaskId)
  | threadName (task : TaskId)
  | send (channel : ChannelId)
  | receive (channel : ChannelId)
  | hasData (channel : ChannelId)
  | drain (channel : ChannelId)
  | write (reference : RefId)
  | read (reference : RefId)
  deriving DecidableEq, Repr

def Method.name : Method → String
  | .waitFor _ => "wait"
  | .resultOf _ | .receive _ | .read _ => "get"
  | .join _ => "join"
  | .detach _ => "detach"
  | .isJoinable _ => "is_joinable"
  | .threadName _ => "get_id"
  | .send _ | .write _ => "put"
  | .hasData _ => "has_data"
  | .drain _ => "drain"

/-- Something that can be called with unevaluated operands. -/
inductive Procedure where
  | builtIn (k : Keyword)
  | method (m : Method)
  /-- The member of a package that the host provides, with the name it goes by. -/
  | native (package member name : String)
  deriving DecidableEq, Repr

def Procedure.name : Procedure → String
  | .builtIn k => k.name
  | .method m => m.name
  | .native _ _ name => name

mutual

/-- A value with its identity and its place in a source text. -/
structure Cell where
  id : CellId
  location : Option Location
  value : Value

inductive Value where
  | integer (value : Int64)
  | real (value : Float)
  | string (text : String)
  | symbol (name : String)
  | keyword (k : Keyword)
  /-- A list, whose items are in the store under the identity of the cell. -/
  | list
  | lambda (parameters : List String) (body : Cell) (scope : ScopeId)
  | box (members : ScopeId)
  | handle (kind : HandleKind) (members : ScopeId)
  | procedure (p : Procedure)

end

namespace Value

def nilText : String := "#nil"

/-- The absence of a value, which is a string like any other. -/
def nil : Value := .string nilText

def ofBool (b : Bool) : Value := .integer (if b then 1 else 0)

def kind : Value → Kind
  | .integer _ => .integer
  | .real _ => .real
  | .string _ => .string
  | .symbol _ | .procedure _ => .symbol
  | .keyword _ => .keyword
  | .list => .list
  | .lambda _ _ _ => .lambda
  | .box _ => .box
  | .handle _ _ => .handle

def isNil : Value → Bool
  | .string text => text == nilText
  | _ => false

def integer? : Value → Option Int64
  | .integer value => some value
  | _ => none

def string? : Value → Option String
  | .string text => some text
  | _ => none

def symbol? : Value → Option String
  | .symbol name => some name
  | _ => none

def isList : Value → Bool
  | .list => true
  | _ => false

/-- The scope that holds the members of a box or handle. -/
def members? : Value → Option ScopeId
  | .box members | .handle _ members => some members
  | _ => none

/-- Binding such a value makes a new cell, while lists, lambdas, boxes, handles and procedures stay
shared. -/
def isCopied : Value → Bool
  | .integer _ | .real _ | .string _ | .symbol _ | .keyword _ => true
  | .list | .lambda _ _ _ | .box _ | .handle _ _ | .procedure _ => false

end Value

def Cell.same (a b : Cell) : Bool :=
  a.id == b.id

def Cell.builtIn (k : Keyword) : Cell :=
  ⟨⟨k.index⟩, none, .procedure (.builtIn k)⟩

end BracketScript
