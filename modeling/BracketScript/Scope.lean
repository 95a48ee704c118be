import BracketScript.Cell

/-!
# Scopes

A scope binds names to cells and knows the scopes around it, nearest first. It also marks the
packages that have been loaded into it.
-/

namespace BracketScript

abbrev Bindings := List (String × Cell)

def Bindings.insert (name : String) (cell : Cell) : Bindings → Bindings
  | [] => [(name, cell)]
  | (other, bound) :: rest =>
    if other = name then (name, cell) :: rest
    else (other, bound) :: Bindings.insert name cell rest

structure Scope where
  /-- The scopes around this one, nearest first. -/
  outer : List ScopeId
  bindings : Bindings
  /-- The packages loaded into this scope. -/
  packages : List String

instance : Inhabited Scope := ⟨⟨[], [], []⟩⟩

namespace Scope

def get? (scope : Scope) (name : String) : Option Cell :=
  scope.bindings.lookup name

def binds (scope : Scope) (name : String) : Bool :=
  (scope.get? name).isSome

def set (scope : Scope) (name : String) (cell : Cell) : Scope :=
  { scope with bindings := Bindings.insert name cell scope.bindings }

def mark (scope : Scope) (package : String) : Scope :=
  { scope with packages := package :: scope.packages }

theorem lookup_insert (name other : String) (cell : Cell) (bindings : Bindings) :
    List.lookup other (Bindings.insert name cell bindings) =
      if other = name then some cell else List.lookup other bindings := by
  induction bindings with
  | nil => grind [Bindings.insert]
  | cons binding rest ih =>
    obtain ⟨bound, c⟩ := binding
    grind [Bindings.insert]

/-- Binding a name changes what that name is bound to and nothing else. -/
theorem get?_set (scope : Scope) (name other : String) (cell : Cell) :
    (scope.set name cell).get? other = if other = name then some cell else scope.get? other :=
  lookup_insert name other cell scope.bindings

end Scope

end BracketScript
