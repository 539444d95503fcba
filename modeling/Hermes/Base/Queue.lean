import Mathlib.Data.List.Basic
import Mathlib.Algebra.Group.Nat.Even

/-!
# Queues of fixed capacity

What a program relies on that keeps items in a first-in first-out queue of fixed
capacity.  The queue is abstract: `items` says what it holds, and the laws say how
its operations change that.  `boundedQueue` is the list instance.
-/

namespace Hermes

/-- A queue of fixed capacity.  The capacity asked for is the one had when it is a power of two. -/
structure CircularQue (Item : Type) where
  Que : Type
  make : ℕ → Que
  getCapacity : Que → ℕ
  add : Que → Item → Option Que
  get : Que → Option (Item × Que)
  items : Que → List Item
  items_make (size : ℕ) : items (make size) = []
  capacity_make (exponent : ℕ) : getCapacity (make (2 ^ exponent)) = 2 ^ exponent
  add_room {que : Que} (room : (items que).length < getCapacity que) (item : Item) :
    ∃ que', add que item = some que' ∧ items que' = items que ++ [item] ∧
      getCapacity que' = getCapacity que
  add_full {que : Que} (full : getCapacity que ≤ (items que).length) (item : Item) :
    add que item = none
  get_nil {que : Que} (empty : items que = []) : get que = none
  get_cons {que : Que} {item : Item} {rest : List Item} (front : items que = item :: rest) :
    ∃ que', get que = some (item, que') ∧ items que' = rest ∧
      getCapacity que' = getCapacity que

namespace CircularQue

variable {Item : Type} (queue : CircularQue Item) {que que' : queue.Que} {item : Item}

theorem items_of_add (added : queue.add que item = some que') :
    queue.items que' = queue.items que ++ [item] ∧
      queue.getCapacity que' = queue.getCapacity que := by
  rcases Nat.lt_or_ge (queue.items que).length (queue.getCapacity que) with room | full
  · rcases queue.add_room room item with ⟨next, same, items, capacity⟩
    rw [added] at same
    cases same
    exact ⟨items, capacity⟩
  · rw [queue.add_full full] at added
    cases added

theorem items_of_get (got : queue.get que = some (item, que')) :
    queue.items que = item :: queue.items que' ∧
      queue.getCapacity que' = queue.getCapacity que := by
  cases items : queue.items que with
  | nil =>
      rw [queue.get_nil items] at got
      cases got
  | cons front rest =>
      rcases queue.get_cons items with ⟨next, same, rest, capacity⟩
      rw [got] at same
      cases same
      exact ⟨by rw [rest], capacity⟩

theorem items_of_get_none (nothing : queue.get que = none) : queue.items que = [] := by
  cases items : queue.items que with
  | nil => rfl
  | cons front rest =>
      rcases queue.get_cons items with ⟨next, same, _⟩
      rw [nothing] at same
      cases same

end CircularQue

/-- The queue as a list beside its capacity. -/
def boundedQueue (Item : Type) : CircularQue Item where
  Que := List Item × ℕ
  make size := ([], size)
  getCapacity que := que.2
  add que item := if que.1.length < que.2 then some (que.1 ++ [item], que.2) else none
  get
    | ([], _) => none
    | (item :: rest, size) => some (item, (rest, size))
  items que := que.1
  items_make _ := rfl
  capacity_make _ := rfl
  add_room room _ := ⟨_, if_pos room, rfl, rfl⟩
  add_full full _ := if_neg (Nat.not_lt.mpr full)
  get_nil := by
    rintro ⟨items, size⟩ empty
    cases empty
    rfl
  get_cons := by
    rintro ⟨items, size⟩ item rest front
    cases front
    exact ⟨_, rfl, rfl, rfl⟩

end Hermes
