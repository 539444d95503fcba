import Hermes.Base.Memory
import Hermes.Base.Window

/-!
# Rings in memory

A ring of `size` cells at address `base` shows the cell of edge `edge` at address
`base + edge % size`.  `ringRead` collects the cells at consecutive edges; up to
the end of the ring it is a plain read.  A `Segment` is a plain write that stores
part of a record at the ring positions where the whole record belongs.  Writing
segments of a record changes no cell but the record's own, and leaves each of
these either as it was or as the record has it, so a set of segments that covers
the record makes the ring show it.
-/

namespace Hermes

namespace Memory

variable {Cell : Type*}

/-- The cells at `count` consecutive edges of the ring of `size` cells at `base`. -/
def ringRead (memory : Memory Cell) (base size edge count : ℕ) : List Cell :=
  (List.range count).map fun offset => memory (base + (edge + offset) % size)

@[simp]
theorem length_ringRead (memory : Memory Cell) (base size edge count : ℕ) :
    (memory.ringRead base size edge count).length = count := by
  simp [ringRead]

theorem getElem_ringRead (memory : Memory Cell) (base size edge : ℕ) {count offset : ℕ}
    (inside : offset < (memory.ringRead base size edge count).length) :
    (memory.ringRead base size edge count)[offset] =
      memory (base + (edge + offset) % size) := by
  simp [ringRead]

theorem ringRead_add (memory : Memory Cell) (base size edge first second : ℕ) :
    memory.ringRead base size edge (first + second) =
      memory.ringRead base size edge first ++
        memory.ringRead base size (edge + first) second := by
  simp [ringRead, List.range_add, Function.comp_def, Nat.add_assoc]

/-- A ring read that does not pass the end of the ring is a plain read. -/
theorem ringRead_eq_read (memory : Memory Cell) {base size edge count : ℕ}
    (fits : edge % size + count ≤ size) :
    memory.ringRead base size edge count = memory.read (base + edge % size) count := by
  apply List.map_congr_left
  intro offset present
  have bound := List.mem_range.mp present
  rw [Window.add_mod_of_lt (by omega), Nat.add_assoc]

/-- A ring read that passes the end of the ring is two plain reads. -/
theorem ringRead_eq_append (memory : Memory Cell) {base size edge first second : ℕ}
    (atEnd : edge % size + first = size) (once : second ≤ size) :
    memory.ringRead base size edge (first + second) =
      memory.read (base + edge % size) first ++ memory.read base second := by
  have restart : (edge + first) % size = 0 := by
    rw [← Nat.mod_add_mod, atEnd, Nat.mod_self]
  rw [ringRead_add, ringRead_eq_read memory (by omega), ringRead_eq_read memory (by omega),
    restart, Nat.add_zero]

/-- The ring shows the record from `edge` on. -/
def Shows (memory : Memory Cell) (base size edge : ℕ) (record : List Cell) : Prop :=
  ∀ offset (inside : offset < record.length),
    memory (base + (edge + offset) % size) = record[offset]

/-- `cells` written at `address` are the cells of the record from `skip` on, at the ring
positions where the record has them. -/
structure Segment (base size edge : ℕ) (record : List Cell) (skip address : ℕ)
    (cells : List Cell) : Prop where
  bound : skip + cells.length ≤ record.length
  part : cells = (record.drop skip).take cells.length
  placed : cells ≠ [] → address = base + (edge + skip) % size
  straight : cells ≠ [] → (edge + skip) % size + cells.length ≤ size

section Segment

variable {base size edge : ℕ} {record : List Cell}

theorem shows_iff_ringRead {memory : Memory Cell} :
    memory.Shows base size edge record ↔
      memory.ringRead base size edge record.length = record := by
  constructor
  · intro shown
    apply List.ext_getElem (by simp)
    intro offset inRead inside
    rw [getElem_ringRead, shown offset inside]
  · intro same offset inside
    have inRead : offset < (memory.ringRead base size edge record.length).length := by
      simpa using inside
    rw [← getElem_ringRead memory base size edge inRead]
    simp only [same]

/-- Only the ring position of an edge matters. -/
theorem Shows.congr_edge {memory : Memory Cell} {other : ℕ}
    (shown : memory.Shows base size edge record) (same : other % size = edge % size) :
    memory.Shows base size other record := by
  intro offset inside
  rw [← shown offset inside, Nat.add_mod, same, ← Nat.add_mod]

/-- The ring position of a cell of a segment. -/
theorem Segment.address_add {skip address : ℕ} {cells : List Cell}
    (segment : Segment base size edge record skip address cells) {offset : ℕ}
    (inside : offset < cells.length) :
    address + offset = base + (edge + (skip + offset)) % size := by
  have nonempty : cells ≠ [] := List.ne_nil_of_length_pos (by omega)
  have straight := segment.straight nonempty
  have position : (edge + skip + offset) % size = (edge + skip) % size + offset :=
    Window.add_mod_of_lt (by omega)
  rw [segment.placed nonempty, ← Nat.add_assoc edge, position, Nat.add_assoc]

theorem Segment.getElem_eq {skip address : ℕ} {cells : List Cell}
    (segment : Segment base size edge record skip address cells) {offset : ℕ}
    (inside : offset < cells.length) (inRecord : skip + offset < record.length) :
    cells[offset] = record[skip + offset] := by
  have part := segment.part
  have bound : offset < ((record.drop skip).take cells.length).length := by
    rw [← part]
    exact inside
  calc cells[offset]
      = ((record.drop skip).take cells.length)[offset] := by simp only [← part]
    _ = record[skip + offset] := by simp

/-- A plain read of a segment of a record the ring shows. -/
theorem Shows.read_segment {memory : Memory Cell} {skip address : ℕ} {cells : List Cell}
    (shown : memory.Shows base size edge record)
    (segment : Segment base size edge record skip address cells) :
    memory.read address cells.length = cells := by
  apply List.ext_getElem (by simp)
  intro offset inRead inside
  have bound := segment.bound
  rw [getElem_read, segment.address_add inside, shown (skip + offset) (by omega),
    segment.getElem_eq inside (by omega)]

/-- A cell a segment changes is a cell of the record. -/
theorem Segment.changed {skip address place : ℕ} {cells : List Cell}
    (segment : Segment base size edge record skip address cells) {memory : Memory Cell}
    (changed : memory.write address cells place ≠ memory place) :
    ∃ offset, skip ≤ offset ∧ offset < record.length ∧ place = base + (edge + offset) % size := by
  obtain ⟨low, high⟩ := write_changed changed
  obtain ⟨offset, rfl⟩ := Nat.exists_eq_add_of_le low
  have := segment.bound
  exact ⟨skip + offset, by omega, by omega, segment.address_add (by omega)⟩

/-- After writing a segment its own cells are as the record has them. -/
theorem Segment.write_own {skip address : ℕ} {cells : List Cell}
    (segment : Segment base size edge record skip address cells) (memory : Memory Cell)
    {offset : ℕ} (low : skip ≤ offset) (high : offset < skip + cells.length)
    (inside : offset < record.length) :
    memory.write address cells (base + (edge + offset) % size) = record[offset] := by
  obtain ⟨rest, rfl⟩ := Nat.exists_eq_add_of_le low
  rw [← segment.address_add (by omega), write_inside memory address (by omega),
    segment.getElem_eq (by omega) inside]

/-- Cells of the record outside the segment stay, as the record is not longer than the ring. -/
theorem Segment.write_other {skip address : ℕ} {cells : List Cell}
    (segment : Segment base size edge record skip address cells) (memory : Memory Cell)
    (short : record.length ≤ size) {offset : ℕ} (inside : offset < record.length)
    (apart : offset < skip ∨ skip + cells.length ≤ offset) :
    memory.write address cells (base + (edge + offset) % size) =
      memory (base + (edge + offset) % size) := by
  by_contra changed
  obtain ⟨low, high⟩ := write_changed changed
  obtain ⟨rest, restEq⟩ := Nat.exists_eq_add_of_le low
  have bound := segment.bound
  have own : address + rest = base + (edge + (skip + rest)) % size :=
    segment.address_add (by omega)
  have same : (edge + offset) % size = (edge + (skip + rest)) % size := by omega
  have := Window.mod_injOn edge (by omega) (by omega) (by omega) (by omega) same
  omega

/-- Writing a segment keeps what the ring already shows of the record. -/
theorem Segment.write_keeps {skip address : ℕ} {cells : List Cell}
    (segment : Segment base size edge record skip address cells) {memory : Memory Cell}
    (short : record.length ≤ size) {offset : ℕ} (inside : offset < record.length)
    (shown : memory (base + (edge + offset) % size) = record[offset]) :
    memory.write address cells (base + (edge + offset) % size) = record[offset] := by
  by_cases own : skip ≤ offset ∧ offset < skip + cells.length
  · exact segment.write_own memory own.1 own.2 inside
  · rw [segment.write_other memory short inside (by omega), shown]

/-- A record elsewhere in one window of the ring is not touched by a segment. -/
theorem Segment.write_shows {skip address otherEdge : ℕ} {cells other : List Cell}
    (segment : Segment base size edge record skip address cells) (low : ℕ) {memory : Memory Cell}
    (apart : otherEdge + other.length ≤ edge ∨ edge + record.length ≤ otherEdge)
    (otherLow : low ≤ otherEdge) (otherHigh : otherEdge + other.length ≤ low + size)
    (ownLow : low ≤ edge) (ownHigh : edge + record.length ≤ low + size)
    (shown : memory.Shows base size otherEdge other) :
    (memory.write address cells).Shows base size otherEdge other := by
  intro offset inside
  rw [← shown offset inside]
  by_contra changed
  obtain ⟨own, _, ownInside, same⟩ := segment.changed changed
  have : otherEdge + offset = edge + own :=
    Window.mod_injOn low (by omega) (by omega) (by omega) (by omega) (Nat.add_left_cancel same)
  omega

/-- The writes still to come are segments of the record, and every cell of the record is in
place already or in one of them. -/
structure Pending (memory : Memory Cell) (base size edge : ℕ) (record : List Cell)
    (writes : List (ℕ × List Cell)) : Prop where
  segments : ∀ write ∈ writes, ∃ skip, Segment base size edge record skip write.1 write.2
  covered : ∀ offset (inside : offset < record.length),
    memory (base + (edge + offset) % size) = record[offset] ∨
      ∃ write ∈ writes, ∃ skip, Segment base size edge record skip write.1 write.2 ∧
        skip ≤ offset ∧ offset < skip + write.2.length

theorem Pending.shows {memory : Memory Cell} (pending : Pending memory base size edge record []) :
    memory.Shows base size edge record := by
  intro offset inside
  rcases pending.covered offset inside with shown | ⟨write, present, _⟩
  · exact shown
  · simp at present

/-- Performing the next write leaves the others pending. -/
theorem Pending.write {memory : Memory Cell} {address : ℕ} {cells : List Cell}
    {writes : List (ℕ × List Cell)} (short : record.length ≤ size)
    (pending : Pending memory base size edge record ((address, cells) :: writes)) :
    Pending (memory.write address cells) base size edge record writes := by
  obtain ⟨skip, segment⟩ := pending.segments (address, cells) List.mem_cons_self
  refine ⟨fun write present => pending.segments write (List.mem_cons_of_mem _ present), ?_⟩
  intro offset inside
  rcases pending.covered offset inside with shown | ⟨write, present, other, covers, low, high⟩
  · exact Or.inl (segment.write_keeps short inside shown)
  · rcases List.mem_cons.mp present with rfl | later
    · exact Or.inl (covers.write_own memory low high inside)
    · exact Or.inr ⟨write, later, other, covers, low, high⟩

/-- A segment of another record in the same window disturbs nothing that is pending. -/
theorem Pending.write_other {skip address otherEdge : ℕ} {cells other : List Cell}
    {writes : List (ℕ × List Cell)} {memory : Memory Cell}
    (segment : Segment base size edge record skip address cells) (low : ℕ)
    (apart : otherEdge + other.length ≤ edge ∨ edge + record.length ≤ otherEdge)
    (otherLow : low ≤ otherEdge) (otherHigh : otherEdge + other.length ≤ low + size)
    (ownLow : low ≤ edge) (ownHigh : edge + record.length ≤ low + size)
    (pending : Pending memory base size otherEdge other writes) :
    Pending (memory.write address cells) base size otherEdge other writes := by
  refine ⟨pending.segments, ?_⟩
  intro offset inside
  rcases pending.covered offset inside with shown | later
  · left
    rw [← shown]
    by_contra changed
    obtain ⟨own, _, ownInside, same⟩ := segment.changed changed
    have : otherEdge + offset = edge + own :=
      Window.mod_injOn low (by omega) (by omega) (by omega) (by omega) (Nat.add_left_cancel same)
    omega
  · exact Or.inr later

/-- Writing a record to a ring in straight pieces: one when it does not pass the end of the ring,
otherwise the part from the start of the ring first and the part up to its end last. -/
def splitWrites (base size edge : ℕ) (record : List Cell) : List (ℕ × List Cell) :=
  if size < edge % size + record.length then
    [(base, record.drop (size - edge % size)),
      (base + edge % size, record.take (size - edge % size))]
  else [(base + edge % size, record)]

theorem splitWrites_congr {other : ℕ} (same : other % size = edge % size) :
    splitWrites base size other record = splitWrites base size edge record := by
  simp only [splitWrites, same]

/-- The pieces are segments of the record, and every cell of the record is in one of them. -/
theorem splitWrites_segments (positive : 0 < size) (short : record.length ≤ size) :
    (∀ write ∈ splitWrites base size edge record,
      ∃ skip, Segment base size edge record skip write.1 write.2) ∧
    ∀ offset < record.length, ∃ write ∈ splitWrites base size edge record, ∃ skip,
      Segment base size edge record skip write.1 write.2 ∧
        skip ≤ offset ∧ offset < skip + write.2.length := by
  have low := Nat.mod_lt edge positive
  by_cases wraps : size < edge % size + record.length
  · have restart : (edge + (size - edge % size)) % size = 0 := by
      have whole : edge % size + (size - edge % size) = size := by omega
      rw [← Nat.mod_add_mod, whole, Nat.mod_self]
    have high : Segment base size edge record (size - edge % size) base
        (record.drop (size - edge % size)) := by
      refine ⟨?_, (List.take_length).symm, ?_, ?_⟩
      · rw [List.length_drop]
        omega
      · intro _
        rw [restart, Nat.add_zero]
      · intro _
        rw [restart, List.length_drop]
        omega
    have first : Segment base size edge record 0 (base + edge % size)
        (record.take (size - edge % size)) := by
      refine ⟨by simp, by simp, fun _ => rfl, ?_⟩
      intro _
      simp only [Nat.add_zero, List.length_take]
      omega
    simp only [splitWrites, wraps, if_true]
    refine ⟨?_, ?_⟩
    · intro write present
      simp only [List.mem_cons, List.not_mem_nil, or_false] at present
      rcases present with rfl | rfl
      · exact ⟨_, high⟩
      · exact ⟨_, first⟩
    · intro offset inside
      by_cases late : size - edge % size ≤ offset
      · refine ⟨_, List.mem_cons_self, _, high, late, ?_⟩
        simp only [List.length_drop]
        omega
      · refine ⟨_, List.mem_cons_of_mem _ List.mem_cons_self, 0, first, Nat.zero_le _, ?_⟩
        simp only [List.length_take]
        omega
  · have whole : Segment base size edge record 0 (base + edge % size) record :=
      ⟨by simp, by simp, fun _ => rfl, fun _ => by simpa using Nat.le_of_not_lt wraps⟩
    simp only [splitWrites, wraps, if_false]
    refine ⟨?_, ?_⟩
    · intro write present
      obtain rfl := List.mem_singleton.mp present
      exact ⟨0, whole⟩
    · intro offset inside
      exact ⟨_, List.mem_cons_self, 0, whole, Nat.zero_le _, by simpa using inside⟩

theorem pending_splitWrites (memory : Memory Cell) (positive : 0 < size)
    (short : record.length ≤ size) :
    Pending memory base size edge record (splitWrites base size edge record) := by
  rcases splitWrites_segments positive short with ⟨segments, covered⟩
  exact ⟨segments, fun offset inside => Or.inr (covered offset inside)⟩

/-- Addresses of the cells of a write. -/
def targets (write : ℕ × List Cell) : Set ℕ :=
  {place | write.1 ≤ place ∧ place < write.1 + write.2.length}

/-- Writes that carry a record to a ring and nothing else: one, or two when the record passes the
end of the ring, apart from each other, at exactly the positions of the record. -/
structure Pieces (base size edge : ℕ) (record : List Cell) (writes : List (ℕ × List Cell)) :
    Prop where
  count : writes.length = if size < edge % size + record.length then 2 else 1
  apart : writes.Pairwise fun first second => Disjoint (targets first) (targets second)
  inside : ∀ write ∈ writes, ∀ place ∈ targets write, base ≤ place ∧ place < base + size
  exact : ∀ place, (∃ write ∈ writes, place ∈ targets write) ↔
    ∃ position ∈ Window.positions size edge record.length, place = base + position
  carried : ∀ write ∈ writes, ∀ offset (inside : offset < write.2.length),
    ∃ skip, ∃ (known : skip < record.length),
      write.1 + offset = base + (edge + skip) % size ∧ write.2[offset] = record[skip]

theorem pieces_splitWrites (positive : 0 < size) (short : record.length ≤ size) :
    Pieces base size edge record (splitWrites base size edge record) := by
  have whole : (∀ write ∈ splitWrites base size edge record,
        ∃ skip, Segment base size edge record skip write.1 write.2) ∧ _ :=
    splitWrites_segments positive short
  rcases whole with ⟨segments, covered⟩
  have carried : ∀ write ∈ splitWrites base size edge record,
      ∀ offset (inside : offset < write.2.length),
        ∃ skip, ∃ (known : skip < record.length),
          write.1 + offset = base + (edge + skip) % size ∧ write.2[offset] = record[skip] := by
    intro write present offset inside
    rcases segments write present with ⟨skip, segment⟩
    have bound := segment.bound
    exact ⟨skip + offset, by omega, segment.address_add inside,
      segment.getElem_eq inside (by omega)⟩
  have low := Nat.mod_lt edge positive
  refine
    { count := ?_
      apart := ?_
      inside := ?_
      exact := ?_
      carried := carried }
  · simp only [splitWrites]
    split <;> rfl
  · simp only [splitWrites]
    split
    · rw [List.pairwise_pair, Set.disjoint_left]
      rintro place ⟨_, below⟩ ⟨above, _⟩
      simp only [List.length_drop] at below
      omega
    · exact List.pairwise_singleton _ _
  · rintro write present place ⟨above, below⟩
    rcases Nat.exists_eq_add_of_le above with ⟨offset, rfl⟩
    rcases carried write present offset (by omega) with ⟨skip, _, placed, _⟩
    have := Nat.mod_lt (edge + skip) positive
    omega
  · intro place
    constructor
    · rintro ⟨write, present, above, below⟩
      rcases Nat.exists_eq_add_of_le above with ⟨offset, rfl⟩
      rcases carried write present offset (by omega) with ⟨skip, known, placed, _⟩
      exact ⟨_, ⟨skip, known, rfl⟩, placed⟩
    · rintro ⟨position, ⟨offset, inside, rfl⟩, rfl⟩
      rcases covered offset inside with ⟨write, present, skip, segment, above, below⟩
      rcases Nat.exists_eq_add_of_le above with ⟨rest, rfl⟩
      have placed := segment.address_add (show rest < write.2.length by omega)
      refine ⟨write, present, ?_, ?_⟩
      · omega
      · omega

/-- What a straight read of the pieces finds when the ring shows the record. -/
theorem Shows.splitWrites_eq {memory : Memory Cell} (shown : memory.Shows base size edge record)
    (positive : 0 < size) (short : record.length ≤ size) (other : ℕ) :
    splitWrites other size edge record =
      if size < edge % size + record.length then
        [(other, memory.read base (record.length - (size - edge % size))),
          (other + edge % size, memory.read (base + edge % size) (size - edge % size))]
      else [(other + edge % size, memory.read (base + edge % size) record.length)] := by
  have content := shows_iff_ringRead.mp shown
  by_cases wraps : size < edge % size + record.length
  · have low := Nat.mod_lt edge positive
    have total : size - edge % size + (record.length - (size - edge % size)) = record.length := by
      omega
    have parts : memory.ringRead base size edge
        (size - edge % size + (record.length - (size - edge % size))) =
          memory.read (base + edge % size) (size - edge % size) ++
            memory.read base (record.length - (size - edge % size)) :=
      ringRead_eq_append memory (by omega) (by omega)
    rw [total, content] at parts
    have firstLength : (memory.read (base + edge % size) (size - edge % size)).length =
        size - edge % size := length_read _ _ _
    have taken : record.take (size - edge % size) =
        memory.read (base + edge % size) (size - edge % size) := by
      conv_lhs => rw [parts]
      rw [List.take_left' firstLength]
    have dropped : record.drop (size - edge % size) =
        memory.read base (record.length - (size - edge % size)) := by
      conv_lhs => rw [parts]
      rw [List.drop_left' firstLength]
    rw [splitWrites, if_pos wraps, if_pos wraps, taken, dropped]
  · rw [splitWrites, if_neg wraps, if_neg wraps, ← ringRead_eq_read memory (by omega), content]

end Segment

end Memory

end Hermes
