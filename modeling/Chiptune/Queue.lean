/-!
# First-in first-out queues

A queue is a list to take from and a reversed list to add to, with its length kept beside
them. `Queue.toList` is what it holds, oldest first; every operation is stated through it.

* `toList_push`, `toList_foldl_push`: an added element comes last, and so do several.
* `pop?_eq_none_iff`, `pop?_eq_some`: taking gives the first element and leaves the rest.
* `size_eq_length`: the kept length is the length.
-/

set_option autoImplicit false

namespace Chiptune

/-- A queue of elements. -/
structure Queue (α : Type) where
  /-- Oldest elements, oldest first. -/
  front : List α
  /-- Newer elements, newest first. -/
  back : List α
  size : Nat
  size_eq : size = front.length + back.length

namespace Queue

variable {α : Type}

/-- What the queue holds, oldest first. -/
def toList (q : Queue α) : List α := q.front ++ q.back.reverse

/-- The queue that holds nothing. -/
def empty : Queue α := { front := [], back := [], size := 0, size_eq := rfl }

/-- The queue that holds a list. -/
def ofList (xs : List α) : Queue α :=
  { front := xs, back := [], size := xs.length, size_eq := by simp }

/-- Adds an element behind all others. -/
def push (q : Queue α) (a : α) : Queue α :=
  { front := q.front
    back := a :: q.back
    size := q.size + 1
    size_eq := by rw [q.size_eq, List.length_cons]; omega }

/-- Takes the oldest element. -/
def pop? (q : Queue α) : Option (α × Queue α) :=
  match h : q.front with
  | a :: rest =>
    some (a,
      { front := rest
        back := q.back
        size := q.size - 1
        size_eq := by rw [q.size_eq, h, List.length_cons]; omega })
  | [] =>
    match hb : q.back.reverse with
    | a :: rest =>
      some (a,
        { front := rest
          back := []
          size := q.size - 1
          size_eq := by
            have hl : q.back.length = rest.length + 1 := by
              rw [← List.length_reverse, hb, List.length_cons]
            rw [q.size_eq, h, hl]
            simp })
    | [] => none

/-- The oldest element. -/
def peek? (q : Queue α) : Option α :=
  match q.front with
  | a :: _ => some a
  | [] => q.back.getLast?

@[simp] theorem toList_empty : (empty : Queue α).toList = [] := rfl

@[simp] theorem toList_ofList (xs : List α) : (ofList xs).toList = xs := by
  simp [ofList, toList]

theorem size_eq_length (q : Queue α) : q.size = q.toList.length := by
  simp [toList, q.size_eq]

@[simp] theorem toList_push (q : Queue α) (a : α) : (q.push a).toList = q.toList ++ [a] := by
  simp [push, toList]

theorem toList_foldl_push (q : Queue α) (xs : List α) :
    (xs.foldl push q).toList = q.toList ++ xs := by
  induction xs generalizing q with
  | nil => simp
  | cons x xs ih => rw [List.foldl_cons, ih, toList_push, List.append_assoc]; rfl

theorem pop?_eq_none_iff (q : Queue α) : q.pop? = none ↔ q.toList = [] := by
  unfold pop? toList
  split
  · next a rest h => simp [h]
  · next h =>
    split
    · next a rest hb => simp [h, hb]
    · next hb => simp [h, hb]

theorem pop?_eq_some {q q' : Queue α} {a : α} (h : q.pop? = some (a, q')) :
    q.toList = a :: q'.toList := by
  unfold pop? at h
  split at h
  · next b rest hf =>
    obtain ⟨rfl, rfl⟩ := Prod.mk.injEq .. ▸ Option.some.injEq .. ▸ h
    simp [toList, hf]
  · next hf =>
    split at h
    · next b rest hb =>
      obtain ⟨rfl, rfl⟩ := Prod.mk.injEq .. ▸ Option.some.injEq .. ▸ h
      simp [toList, hf, hb]
    · simp at h

theorem peek?_eq_head? (q : Queue α) : q.peek? = q.toList.head? := by
  unfold peek? toList
  split
  · next a rest h => simp [h]
  · next h => simp [h, List.head?_reverse]

end Queue

end Chiptune
