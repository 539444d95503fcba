import Mathlib.Data.Nat.ModEq
import Mathlib.Data.List.Basic
import Mathlib.Data.Set.Lattice
import Mathlib.Order.CompletePartialOrder

/-!
# Consecutive blocks and their positions in a ring

Blocks are laid one after the other on an unbounded line of edges.  `Chained`
says that a list of blocks covers a stretch of the line without gap or overlap.
A ring of `size` bytes shows the window `[base, base + size)` of the line: inside
one window `edge % size` is injective, so blocks that are apart on the line are
apart in the ring.
-/

namespace Hermes

namespace Window

/-- Inside a window of one ring size, a ring position determines the edge. -/
theorem mod_injOn {size left right : Nat} (base : Nat) (leftLow : base ≤ left)
    (leftHigh : left < base + size) (rightLow : base ≤ right) (rightHigh : right < base + size)
    (same : left % size = right % size) : left = right := by
  rcases Nat.le_total left right with ordered | ordered
  · have divides : size ∣ right - left := (Nat.modEq_iff_dvd' ordered).mp same
    rcases Nat.eq_zero_or_pos (right - left) with zero | positive
    · omega
    · have := Nat.le_of_dvd positive divides
      omega
  · have divides : size ∣ left - right := (Nat.modEq_iff_dvd' ordered).mp same.symm
    rcases Nat.eq_zero_or_pos (left - right) with zero | positive
    · omega
    · have := Nat.le_of_dvd positive divides
      omega

/-- Ring positions of the block of `length` bytes at `edge`. -/
def positions (size edge length : Nat) : Set Nat :=
  {position | ∃ offset < length, position = (edge + offset) % size}

/-- Blocks that are apart inside one window have no ring position in common. -/
theorem positions_disjoint {size base firstEdge firstLength secondEdge secondLength : Nat}
    (low : base ≤ firstEdge) (apart : firstEdge + firstLength ≤ secondEdge)
    (high : secondEdge + secondLength ≤ base + size) :
    Disjoint (positions size firstEdge firstLength) (positions size secondEdge secondLength) := by
  rw [Set.disjoint_left]
  rintro position ⟨first, firstInside, rfl⟩ ⟨second, secondInside, same⟩
  have := mod_injOn base (by omega) (by omega) (by omega) (by omega) same
  omega

/-- The position `offset` bytes after an edge, when it does not pass the end of the ring. -/
theorem add_mod_of_lt {size edge offset : Nat} (fits : edge % size + offset < size) :
    (edge + offset) % size = edge % size + offset := by
  have positive : 0 < size := by omega
  rw [Nat.add_mod, Nat.mod_eq_of_lt (a := offset) (by omega), Nat.mod_eq_of_lt fits]

/-- The position `offset` bytes after an edge, when it passes the end of the ring once. -/
theorem add_mod_of_le {size edge offset : Nat} (positive : 0 < size)
    (wraps : size ≤ edge % size + offset) (once : edge % size + offset < 2 * size) :
    (edge + offset) % size = edge % size + offset - size := by
  have low := Nat.mod_lt edge positive
  have split := Nat.div_add_mod edge size
  have rearranged : edge + offset =
      (edge % size + offset - size) + size * (edge / size + 1) := by
    rw [Nat.mul_add, Nat.mul_one]
    omega
  rw [rearranged, Nat.add_mul_mod_self_left, Nat.mod_eq_of_lt (by omega)]

end Window

section Chained

variable {Block : Type*} (start length : Block → Nat)

/-- The blocks cover the stretch from `low` to `high` in order, without gap or overlap. -/
def Chained (low : Nat) : List Block → Nat → Prop
  | [], high => low = high
  | block :: blocks, high => start block = low ∧ Chained (low + length block) blocks high

variable {start length}

theorem Chained.le {low high : Nat} {blocks : List Block}
    (chained : Chained start length low blocks high) : low ≤ high := by
  induction blocks generalizing low with
  | nil => exact Nat.le_of_eq chained
  | cons block blocks ih =>
      have := ih chained.2
      omega

theorem Chained.append {low middle high : Nat} {left right : List Block}
    (first : Chained start length low left middle)
    (second : Chained start length middle right high) :
    Chained start length low (left ++ right) high := by
  induction left generalizing low with
  | nil =>
      obtain rfl : low = middle := first
      exact second
  | cons block blocks ih => exact ⟨first.1, ih first.2⟩

theorem Chained.concat {low middle : Nat} {blocks : List Block} {block : Block}
    (chained : Chained start length low blocks middle) (next : start block = middle) :
    Chained start length low (blocks ++ [block]) (middle + length block) :=
  chained.append ⟨next, rfl⟩

theorem Chained.split {low high : Nat} {left right : List Block}
    (chained : Chained start length low (left ++ right) high) :
    ∃ middle, Chained start length low left middle ∧
      Chained start length middle right high := by
  induction left generalizing low with
  | nil => exact ⟨low, rfl, chained⟩
  | cons block blocks ih =>
      obtain ⟨middle, first, second⟩ := ih chained.2
      exact ⟨middle, ⟨chained.1, first⟩, second⟩

/-- Every block of a chain lies inside the stretch the chain covers. -/
theorem Chained.mem_bounds {low high : Nat} {blocks : List Block}
    (chained : Chained start length low blocks high) {block : Block} (present : block ∈ blocks) :
    low ≤ start block ∧ start block + length block ≤ high := by
  induction blocks generalizing low with
  | nil => simp at present
  | cons head blocks ih =>
      have afterHead := chained.2.le
      rcases List.mem_cons.mp present with rfl | later
      · exact ⟨by rw [chained.1], by rw [chained.1]; exact afterHead⟩
      · have := ih chained.2 later
        exact ⟨by omega, this.2⟩

/-- Of two blocks of a chain the first ends before the second starts. -/
theorem Chained.pairwise {low high : Nat} {blocks : List Block}
    (chained : Chained start length low blocks high) :
    blocks.Pairwise fun first second => start first + length first ≤ start second := by
  induction blocks generalizing low with
  | nil => exact List.Pairwise.nil
  | cons head blocks ih =>
      refine List.pairwise_cons.mpr ⟨?_, ih chained.2⟩
      intro block present
      rw [chained.1]
      exact (chained.2.mem_bounds present).1

/-- A block at the low end of a chain of blocks that are not empty is its first. -/
theorem Chained.eq_cons {low high : Nat} {blocks : List Block}
    (chained : Chained start length low blocks high)
    (positive : ∀ block ∈ blocks, 0 < length block) {block : Block} (present : block ∈ blocks)
    (first : start block = low) : ∃ rest, blocks = block :: rest := by
  cases blocks with
  | nil => simp at present
  | cons head rest =>
      rcases List.mem_cons.mp present with rfl | later
      · exact ⟨rest, rfl⟩
      · have := (chained.2.mem_bounds later).1
        have := positive head List.mem_cons_self
        omega

/-- A chain of blocks that are not empty over an empty stretch has no block. -/
theorem Chained.eq_nil {low : Nat} {blocks : List Block}
    (chained : Chained start length low blocks low)
    (positive : ∀ block ∈ blocks, 0 < length block) : blocks = [] := by
  cases blocks with
  | nil => rfl
  | cons head rest =>
      have := chained.2.le
      have := positive head List.mem_cons_self
      omega

end Chained

end Hermes
