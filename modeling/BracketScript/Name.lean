import BracketScript.Fault
import BracketScript.Store
import BracketScript.Text.Split

/-!
# Names

A name is plain or a path of segments with dots between them. The first segment is looked up in the
scopes around; each further one is a member of the box or handle that the path has led to so far.
Assigning to a name goes to the very binding that looking it up would read.
-/

namespace BracketScript

/-- A binding that can be changed: a scope and a name that it binds. -/
structure Slot where
  scope : ScopeId
  name : String
  deriving DecidableEq, Repr

namespace Name

def segments (name : String) : String × List String :=
  Text.pieces '.' name

def isDotted (name : String) : Bool :=
  name.toList.contains '.'

/-- The name in front of the last dot and the segment behind it. -/
def splitLast? (name : String) : Option (String × String) :=
  let backward := name.toList.reverse
  match backward.dropWhile (· != '.') with
  | [] => none
  | _ :: path =>
    some (String.ofList path.reverse, String.ofList (backward.takeWhile (· != '.')).reverse)

end Name

namespace Store

/-- Go from a cell to a member of it, from there to a member of that, and so on. -/
def follow (s : Store) (name : String) (location : Option Location) (c : Cell) :
    List String → Except Fault Cell
  | [] => .ok c
  | segment :: segments =>
    match c.value.members? with
    | none => .error (.failure (.unreachableMember name segment) location)
    | some members =>
      match (s.scope members).get? segment with
      | none => .error (.unknownName name location)
      | some member => s.follow name location member segments

def resolve (s : Store) (id : ScopeId) (name : String) (location : Option Location) :
    Except Fault Cell :=
  let (first, others) := Name.segments name
  match s.lookup? id first with
  | none => .error (.unknownName name location)
  | some c => s.follow name location c others

/-- The slot of a name without regard to dots: the nearest binding around the scope. -/
def plainSlot (s : Store) (id : ScopeId) (name : String) (location : Option Location) :
    Except Fault Slot :=
  match s.owner? id name with
  | none => .error (.unknownName name location)
  | some owner => .ok ⟨owner, name⟩

/-- The slot of a name: that of a plain name or, if the name is dotted, the member that its last
segment names of what its path leads to. -/
def slot (s : Store) (id : ScopeId) (name : String) (location : Option Location) :
    Except Fault Slot :=
  match Name.splitLast? name with
  | none => s.plainSlot id name location
  | some (path, member) => do
    let holder ← s.resolve id path location
    match holder.value.members? with
    | none => .error (.failure (.notBox path) location)
    | some members =>
      if (s.scope members).binds member then .ok ⟨members, member⟩
      else .error (.unknownName name location)

def fill (s : Store) (slot : Slot) (cell : Cell) : Store :=
  s.define slot.scope slot.name cell

end Store

end BracketScript
