import BracketScript.Arena
import BracketScript.Queue
import BracketScript.Scope

/-!
# The store

Everything that a running program can change: the items of lists, the bindings of scopes, what
waits in channels and stands in references, how far tasks have come, and the output so far.

Each cell that is made takes the next free identity. Only lists have items, but every cell has its
position in the row of items, so that one counter serves all of them. The first cells are those of
the built-in procedures.
-/

namespace BracketScript

structure Task where
  result : Option Cell
  joinable : Bool

instance : Inhabited Task := ⟨⟨none, false⟩⟩

structure Launch where
  task : TaskId
  body : Cell
  scope : ScopeId

/-- What a running program can change. -/
structure Store where
  /-- The items of each cell, which only a list has. -/
  itemRows : Arena (Array Cell)
  scopes : Arena Scope
  channels : Arena (Queue Cell)
  refs : Arena (Option Cell)
  tasks : Arena Task
  /-- How many tasks have not come to their end. -/
  running : Nat
  /-- The tasks that were made and not started yet, oldest first. -/
  launches : List Launch
  /-- How much of its turn the current task has used up. -/
  used : Nat
  output : String

namespace Store

/-- The identity of the scope that every program starts with. -/
def root : ScopeId := ⟨0⟩

/-- The store in which a program starts: the built-in procedures have their cells, and one scope
without bindings is there. -/
def initial : Store where
  itemRows := ⟨(Keyword.all.map fun _ => #[]).toArray⟩
  scopes := Arena.empty.push default
  channels := .empty
  refs := .empty
  tasks := .empty
  running := 0
  launches := []
  used := 0
  output := ""

/-! ### Cells -/

/-- The row of items of a cell, in which each can be reached at once. -/
def row (s : Store) (id : CellId) : Array Cell :=
  s.itemRows.get id.index

def items (s : Store) (id : CellId) : List Cell :=
  (s.row id).toList

def newCell (s : Store) (value : Value) (location : Option Location) (row : Array Cell) :
    Cell × Store :=
  (⟨⟨s.itemRows.size⟩, location, value⟩, { s with itemRows := s.itemRows.push row })

def modifyRow (s : Store) (id : CellId) (f : Array Cell → Array Cell) : Store :=
  { s with itemRows := s.itemRows.modify id.index f }

theorem row_newCell (s : Store) (value : Value) (location : Option Location) (row : Array Cell)
    (id : CellId) :
    (s.newCell value location row).2.row id =
      if id.index = s.itemRows.size then row else s.row id :=
  Arena.get_push s.itemRows row id.index

theorem row_modifyRow (s : Store) (id other : CellId) (f : Array Cell → Array Cell) :
    (s.modifyRow id f).row other =
      if id.index = other.index ∧ other.index < s.itemRows.size then f (s.row other)
      else s.row other :=
  Arena.get_modify s.itemRows id.index other.index f

@[simp] theorem items_newCell (s : Store) (value : Value) (location : Option Location)
    (row : Array Cell) (id : CellId) :
    (s.newCell value location row).2.items id =
      if id.index = s.itemRows.size then row.toList else s.items id := by
  rw [items, row_newCell, items]
  split <;> rfl

/-- Changing a row by what is `f` on arrays and `g` on lists changes the items by `g`. -/
theorem items_modifyRow (s : Store) (id other : CellId) {f : Array Cell → Array Cell}
    {g : List Cell → List Cell} (h : ∀ row, (f row).toList = g row.toList) :
    (s.modifyRow id f).items other =
      if id.index = other.index ∧ other.index < s.itemRows.size then g (s.items other)
      else s.items other := by
  rw [items, row_modifyRow, items]
  split
  · exact h _
  · rfl

/-- Positive numbers, lambdas, and strings and lists that are not empty count as true. -/
def isTruthy (s : Store) (c : Cell) : Bool :=
  match c.value with
  | .integer value => 0 < value
  | .real value => 0.0 < value
  | .string text => !text.isEmpty
  | .list => !(s.row c.id).isEmpty
  | .lambda _ _ _ => true
  | _ => false

/-- More than any chain of different cells in which each is an item of the one before it. -/
def depth (s : Store) : Nat :=
  s.itemRows.size + 1

/-- The target is the cell or lies inside of it, at most `fuel` lists deep. -/
def reachesWithin (s : Store) (target : Cell) : (fuel : Nat) → Cell → Bool
  | 0, _ => false
  | fuel + 1, c =>
    c.same target ||
      (c.value.isList && (s.row c.id).any fun item => s.reachesWithin target fuel item)

theorem reachesWithin_succ (s : Store) (target : Cell) (fuel : Nat) (c : Cell) :
    s.reachesWithin target (fuel + 1) c =
      (c.same target ||
        (c.value.isList && (s.items c.id).any fun item => s.reachesWithin target fuel item)) := by
  rw [reachesWithin, items, Array.any_toList]

/-- The target is the cell or lies anywhere inside of it. -/
def reaches (s : Store) (c target : Cell) : Bool :=
  s.reachesWithin target s.depth c

def extent (s : Store) : List Cell → Nat
  | [] => 0
  | c :: cs => (if c.value.isList then (s.row c.id).size + 1 else 1) + s.extent cs

/-! ### Scopes -/

def scope (s : Store) (id : ScopeId) : Scope :=
  s.scopes.get id.index

/-- A scope and the scopes around it, nearest first. -/
def chain (s : Store) (id : ScopeId) : List ScopeId :=
  id :: (s.scope id).outer

def newScope (s : Store) (outer : List ScopeId) : ScopeId × Store :=
  (⟨s.scopes.size⟩, { s with scopes := s.scopes.push ⟨outer, [], []⟩ })

def childScope (s : Store) (parent : ScopeId) : ScopeId × Store :=
  s.newScope (s.chain parent)

def define (s : Store) (id : ScopeId) (name : String) (cell : Cell) : Store :=
  { s with scopes := s.scopes.modify id.index fun scope => scope.set name cell }

theorem scope_newScope (s : Store) (outer : List ScopeId) (id : ScopeId) :
    (s.newScope outer).2.scope id =
      if id.index = s.scopes.size then ⟨outer, [], []⟩ else s.scope id :=
  Arena.get_push s.scopes ⟨outer, [], []⟩ id.index

theorem scope_define (s : Store) (id other : ScopeId) (name : String) (cell : Cell) :
    (s.define id name cell).scope other =
      if id.index = other.index ∧ other.index < s.scopes.size then (s.scope other).set name cell
      else s.scope other :=
  Arena.get_modify s.scopes id.index other.index fun scope => scope.set name cell

/-- What a name means in a scope: the nearest binding around it. -/
def lookup? (s : Store) (id : ScopeId) (name : String) : Option Cell :=
  (s.chain id).findSome? fun i => (s.scope i).get? name

/-- The scope that binds a name, the nearest one around `id`. -/
def owner? (s : Store) (id : ScopeId) (name : String) : Option ScopeId :=
  (s.chain id).find? fun i => (s.scope i).binds name

/-- A package has been loaded into the scope or one around it. -/
def isLoaded (s : Store) (id : ScopeId) (package : String) : Bool :=
  (s.chain id).any fun i => (s.scope i).packages.contains package

def markLoaded (s : Store) (id : ScopeId) (package : String) : Store :=
  { s with scopes := s.scopes.modify id.index fun scope => scope.mark package }

/-! ### Channels, references and tasks -/

def queue (s : Store) (id : ChannelId) : Queue Cell :=
  s.channels.get id.index

def newChannel (s : Store) : ChannelId × Store :=
  (⟨s.channels.size⟩, { s with channels := s.channels.push .empty })

def queue? (s : Store) (id : ChannelId) : Option (Queue Cell) :=
  if id.index < s.channels.size then some (s.queue id) else none

def setQueue (s : Store) (id : ChannelId) (queue : Queue Cell) : Store :=
  { s with channels := s.channels.modify id.index fun _ => queue }

def reference (s : Store) (id : RefId) : Option Cell :=
  s.refs.get id.index

def newReference (s : Store) (initial : Option Cell) : RefId × Store :=
  (⟨s.refs.size⟩, { s with refs := s.refs.push initial })

def writeReference (s : Store) (id : RefId) (cell : Cell) : Store :=
  { s with refs := s.refs.modify id.index fun _ => some cell }

def task (s : Store) (id : TaskId) : Task :=
  s.tasks.get id.index

/-- Some task has not come to its end. -/
def isBusy (s : Store) : Bool :=
  0 < s.running

/-- Make a task that is to evaluate `body` in a scope. If there is no other one, turns are counted
from here on. -/
def newTask (s : Store) (body : Cell) (scope : ScopeId) : TaskId × Store :=
  let id : TaskId := ⟨s.tasks.size⟩
  (id, { s with
    tasks := s.tasks.push ⟨none, true⟩
    running := s.running + 1
    launches := s.launches ++ [⟨id, body, scope⟩]
    used := if s.isBusy then s.used else 0 })

def modifyTask (s : Store) (id : TaskId) (f : Task → Task) : Store :=
  { s with tasks := s.tasks.modify id.index f }

def endTask (s : Store) (id : TaskId) (result : Cell) : Store :=
  let ended := s.modifyTask id fun task => { task with result := some result }
  { ended with running := ended.running - 1 }

def beginTurn (s : Store) : Store :=
  { s with used := 0 }

def write (s : Store) (text : String) : Store :=
  { s with output := s.output ++ text }

end Store

end BracketScript
