import Mathlib.Data.List.Basic
import Mathlib.Tactic.Common

/-!
# Addressed memory, reads and writes

A memory is a total function from addresses to cells.  `write` stores a list of
cells from an address on, `read` collects a number of cells.
-/

namespace Hermes

/-- Cells by address. -/
abbrev Memory (Cell : Type*) := ℕ → Cell

namespace Memory

variable {Cell : Type*}

/-- Store the cells from `address` on. -/
def write (memory : Memory Cell) (address : ℕ) (cells : List Cell) : Memory Cell :=
  fun place =>
    if address ≤ place then cells[place - address]?.getD (memory place) else memory place

/-- The `count` cells from `address` on. -/
def read (memory : Memory Cell) (address count : ℕ) : List Cell :=
  (List.range count).map fun offset => memory (address + offset)

@[simp]
theorem write_nil (memory : Memory Cell) (address : ℕ) : memory.write address [] = memory := by
  funext place
  simp [write]

theorem write_outside (memory : Memory Cell) {address place : ℕ} {cells : List Cell}
    (outside : place < address ∨ address + cells.length ≤ place) :
    memory.write address cells place = memory place := by
  rcases outside with before | after
  · simp [write, Nat.not_le.mpr before]
  · have beyond : cells.length ≤ place - address := by omega
    simp [write, List.getElem?_eq_none beyond]

theorem write_inside (memory : Memory Cell) (address : ℕ) {cells : List Cell} {offset : ℕ}
    (inside : offset < cells.length) :
    memory.write address cells (address + offset) = cells[offset] := by
  simp [write, List.getElem?_eq_getElem inside]

/-- A changed cell lies in the written range. -/
theorem write_changed {memory : Memory Cell} {address place : ℕ} {cells : List Cell}
    (changed : memory.write address cells place ≠ memory place) :
    address ≤ place ∧ place < address + cells.length := by
  by_contra outside
  exact changed (write_outside memory (by omega))

theorem write_append (memory : Memory Cell) (address : ℕ) (left right : List Cell) :
    memory.write address (left ++ right) =
      (memory.write address left).write (address + left.length) right := by
  funext place
  by_cases low : address ≤ place
  · by_cases inLeft : place < address + left.length
    · obtain ⟨offset, rfl⟩ := Nat.exists_eq_add_of_le low
      have bound : offset < left.length := by omega
      rw [write_inside memory address (by simp; omega), write_outside _ (Or.inl inLeft),
        write_inside memory address bound]
      simp [List.getElem_append_left bound]
    · by_cases inRight : place < address + left.length + right.length
      · obtain ⟨offset, rfl⟩ := Nat.exists_eq_add_of_le (Nat.le_of_not_lt inLeft)
        have bound : offset < right.length := by omega
        rw [write_inside _ _ bound, Nat.add_assoc, write_inside memory address (by simp; omega)]
        simp
      · rw [write_outside memory (Or.inr (by simp; omega)), write_outside _ (Or.inr (by omega)),
          write_outside _ (Or.inr (by omega))]
  · rw [write_outside memory (Or.inl (by omega)), write_outside _ (Or.inl (by omega)),
      write_outside _ (Or.inl (by omega))]

@[simp]
theorem length_read (memory : Memory Cell) (address count : ℕ) :
    (memory.read address count).length = count := by
  simp [read]

@[simp]
theorem read_zero (memory : Memory Cell) (address : ℕ) : memory.read address 0 = [] := rfl

theorem getElem_read (memory : Memory Cell) (address : ℕ) {count offset : ℕ}
    (inside : offset < (memory.read address count).length) :
    (memory.read address count)[offset] = memory (address + offset) := by
  simp [read]

theorem read_congr {memory other : Memory Cell} {address otherAddress count : ℕ}
    (agree : ∀ offset < count, memory (address + offset) = other (otherAddress + offset)) :
    memory.read address count = other.read otherAddress count := by
  apply List.map_congr_left
  intro offset present
  exact agree offset (List.mem_range.mp present)

/-- Equal reads have equal cells. -/
theorem cells_of_read_eq {memory other : Memory Cell} {address otherAddress count : ℕ}
    (same : memory.read address count = other.read otherAddress count) :
    ∀ offset < count, memory (address + offset) = other (otherAddress + offset) := by
  intro offset inside
  have cell := congrArg (fun cells => cells[offset]?) same
  simpa [read, inside] using cell

theorem read_add (memory : Memory Cell) (address first second : ℕ) :
    memory.read address (first + second) =
      memory.read address first ++ memory.read (address + first) second := by
  simp [read, List.range_add, Function.comp_def, Nat.add_assoc]

theorem read_write_same (memory : Memory Cell) (address : ℕ) (cells : List Cell) :
    (memory.write address cells).read address cells.length = cells := by
  apply List.ext_getElem
  · simp
  · intro offset inRead inside
    rw [getElem_read, write_inside memory address inside]

end Memory

end Hermes
