/-!
# Queues

First come, first served. A queue keeps its front in order and its back in reverse, so that it costs
the same to add to a long queue as to a short one. `toList` is what a queue stands for, and each
operation is described by what it does to that list.
-/

namespace BracketScript

structure Queue (α : Type) where
  front : List α
  /-- What stands behind the front, the last comer first. -/
  back : List α

namespace Queue

variable {α : Type}

def empty : Queue α := ⟨[], []⟩

instance : Inhabited (Queue α) := ⟨empty⟩

/-- All that waits, first come first. -/
def toList (q : Queue α) : List α := q.front ++ q.back.reverse

def isEmpty (q : Queue α) : Bool := q.front.isEmpty && q.back.isEmpty

def push (q : Queue α) (a : α) : Queue α := { q with back := a :: q.back }

def pushAll (q : Queue α) (added : List α) : Queue α := added.foldl push q

def pop? (q : Queue α) : Option (α × Queue α) :=
  match q.front with
  | a :: front => some (a, { q with front })
  | [] =>
    match q.back.reverse with
    | a :: front => some (a, ⟨front, []⟩)
    | [] => none

@[simp] theorem toList_empty : (empty : Queue α).toList = [] := rfl

@[simp] theorem toList_push (q : Queue α) (a : α) : (q.push a).toList = q.toList ++ [a] := by
  simp [toList, push]

@[simp] theorem toList_pushAll (q : Queue α) (added : List α) :
    (q.pushAll added).toList = q.toList ++ added := by
  induction added generalizing q with
  | nil => simp [pushAll]
  | cons a added ih =>
    have hstep : (q.pushAll (a :: added)).toList = ((q.push a).pushAll added).toList := rfl
    rw [hstep, ih, toList_push, List.append_assoc, List.singleton_append]

theorem isEmpty_iff (q : Queue α) : q.isEmpty = true ↔ q.toList = [] := by
  simp [isEmpty, toList]

/-- Taking from a queue takes the head of its list. -/
theorem pop?_eq (q : Queue α) :
    (q.pop?.map fun (a, rest) => (a, rest.toList)) =
      match q.toList with
      | [] => none
      | a :: rest => some (a, rest) := by
  obtain ⟨front, back⟩ := q
  cases front with
  | cons a front => simp [pop?, toList]
  | nil => cases hback : back.reverse with
    | nil => simp [pop?, toList, hback]
    | cons a front => simp [pop?, toList, hback]

theorem toList_of_pop? {q : Queue α} {p : α × Queue α} (h : q.pop? = some p) :
    q.toList = p.1 :: p.2.toList := by
  have hpop := q.pop?_eq
  rw [h] at hpop
  cases hlist : q.toList with
  | nil => simp [hlist] at hpop
  | cons a rest =>
    simp only [hlist, Option.map_some, Option.some.injEq, Prod.mk.injEq] at hpop
    rw [hpop.1, hpop.2]

end Queue

end BracketScript
