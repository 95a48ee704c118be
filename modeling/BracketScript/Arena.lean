/-!
# Arenas

An arena is a growing row of entries that are told apart by their position. Reading a position that
has no entry gives the default, so that reading is total; writing to one changes nothing.
-/

namespace BracketScript

structure Arena (α : Type) where
  entries : Array α

namespace Arena

variable {α : Type}

def empty : Arena α := ⟨#[]⟩

/-- The number of entries, which is the position of the next one. -/
def size (a : Arena α) : Nat := a.entries.size

def get [Inhabited α] (a : Arena α) (i : Nat) : α := (a.entries[i]?).getD default

/-- The arena with one more entry, at position `a.size`. -/
def push (a : Arena α) (entry : α) : Arena α := ⟨a.entries.push entry⟩

def modify (a : Arena α) (i : Nat) (f : α → α) : Arena α := ⟨a.entries.modify i f⟩

@[simp] theorem size_push (a : Arena α) (entry : α) : (a.push entry).size = a.size + 1 :=
  Array.size_push entry

@[simp] theorem size_modify (a : Arena α) (i : Nat) (f : α → α) : (a.modify i f).size = a.size :=
  Array.size_modify

theorem get_of_size_le [Inhabited α] (a : Arena α) {i : Nat} (h : a.size ≤ i) :
    a.get i = default := by
  simp only [size] at h
  simp [get, h]

theorem get_push [Inhabited α] (a : Arena α) (entry : α) (i : Nat) :
    (a.push entry).get i = if i = a.size then entry else a.get i := by
  simp only [get, push, size, Array.getElem?_push]
  split <;> simp [*]

theorem get_modify [Inhabited α] (a : Arena α) (i j : Nat) (f : α → α) :
    (a.modify i f).get j = if i = j ∧ j < a.size then f (a.get j) else a.get j := by
  simp only [get, modify, size, Array.getElem?_modify]
  grind

end Arena

end BracketScript
