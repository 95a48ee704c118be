import BracketScript.Text.Bytes
import BracketScript.Terminal.Cluster

/-!
# Typed lines

A backspace in a typed line erases the cluster in front of it that has not been erased yet, and
nothing at the start of the line.

What is remembered of a cluster is its size in a single byte. Of one that takes more than 255 bytes
fewer are erased, and when these end inside of a character the line is broken.
-/

namespace BracketScript.Text

def backspace : Char := '\x08'

structure Typed where
  /-- The characters, the last first. -/
  backward : List Char
  /-- The sizes of the clusters that can still be erased, the last first. -/
  sizes : List Nat
  deriving DecidableEq, Repr

namespace Typed

def empty : Typed := ⟨[], []⟩

def erase? (typed : Typed) : Option Typed :=
  match typed.sizes with
  | [] => some typed
  | size :: sizes => (dropBytes? size typed.backward).map fun backward => ⟨backward, sizes⟩

def type? (typed : Typed) (cluster : List Char) : Option Typed :=
  if cluster = [backspace] then typed.erase?
  else some ⟨cluster.reverse ++ typed.backward, byteSize cluster % 256 :: typed.sizes⟩

def typeAll? (typed : Typed) (clusters : List (List Char)) : Option Typed :=
  clusters.foldlM type? typed

end Typed

/-- What is left of a typed line, unless it is broken. -/
def typed? (line : String) : Option String :=
  if line.contains backspace then
    (Typed.empty.typeAll? (clusters line.toList)).map fun typed =>
      String.ofList typed.backward.reverse
  else some line

end BracketScript.Text
