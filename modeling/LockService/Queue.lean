/-!
# Bounded queues

A queue has a fixed number of places and gives its items back in the order in which they came.
Two things are refused: to make a queue with no place or with more places than can be counted
(`Queue.make?`), and to put an item into a queue that is full (`Queue.push?`).
-/

namespace LockService

/-- Items in the order in which they came, and the number of places for them. -/
structure Queue (α : Type) where
  capacity : Nat
  items : List α := []
deriving DecidableEq, Repr, Inhabited

namespace Queue

variable {α : Type}

/-- The largest number of places that a queue can be made with: an eighth of the largest 64-bit
word, rounded down. -/
def maxCapacity : Nat := (UInt64.size - 1) / 8

/-- An empty queue with some number of places, if there can be one. -/
def make? (capacity : Nat) : Option (Queue α) :=
  if 0 < capacity ∧ capacity ≤ maxCapacity then some { capacity } else none

/-- How many items are queued. -/
def size (q : Queue α) : Nat :=
  q.items.length

/-- Whether no place is left. -/
def isFull (q : Queue α) : Bool :=
  q.capacity ≤ q.size

/-- Whether nothing is queued. -/
def isEmpty (q : Queue α) : Bool :=
  q.items.isEmpty

/-- Puts an item behind all others, if there is a place for it. -/
def push? (q : Queue α) (item : α) : Option (Queue α) :=
  if q.isFull then none else some { q with items := q.items ++ [item] }

/-- Takes the item that came first. -/
def pop? (q : Queue α) : Option (α × Queue α) :=
  match q.items with
  | [] => none
  | item :: rest => some (item, { q with items := rest })

/-- The queue without its items. -/
def clear (q : Queue α) : Queue α :=
  { q with items := [] }

theorem eq_of_make? {capacity : Nat} {q : Queue α} (h : make? capacity = some q) :
    0 < capacity ∧ q = { capacity } := by
  unfold make? at h
  split at h
  · next hcapacity =>
    cases h
    exact ⟨hcapacity.1, rfl⟩
  · cases h

theorem isSome_make?_iff {capacity : Nat} :
    (make? capacity : Option (Queue α)).isSome = true ↔ 0 < capacity ∧ capacity ≤ maxCapacity := by
  unfold make?
  split
  · next h => exact iff_of_true rfl h
  · next h => exact iff_of_false nofun h

theorem items_of_push? {q r : Queue α} {item : α} (h : q.push? item = some r) :
    r.items = q.items ++ [item] := by
  unfold push? at h
  split at h
  · cases h
  · cases h; rfl

theorem items_of_pop? {q r : Queue α} {item : α} (h : q.pop? = some (item, r)) :
    q.items = item :: r.items := by
  unfold pop? at h
  split at h
  · cases h
  · cases h; assumption

theorem push?_eq_none_iff {q : Queue α} {item : α} : q.push? item = none ↔ q.capacity ≤ q.size := by
  simp [push?, isFull]

theorem pop?_eq_none_iff {q : Queue α} : q.pop? = none ↔ q.items = [] := by
  unfold pop?
  split <;> simp_all

end Queue

end LockService
