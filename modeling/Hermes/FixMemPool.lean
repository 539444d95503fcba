import Hermes.FixMem
import Mathlib.Data.List.Nodup
import Mathlib.Data.List.Perm.Subperm

/-!
# The pools of small buffers

In each pool an index is in the queue of free buffers, once, exactly when its
descriptor has size zero.  `PoolOk` says this, with what the constructor fixes; each
operation of a pool has its lemma here.
-/

namespace Hermes

variable {queue : CircularQue ℕ} {setup : BufSetup} {id : PoolId} {index size alignment offset : ℕ}

section Pools

theorem PoolId.bufSize_pos (id : PoolId) : 0 < id.bufSize := by
  cases id <;> simp [PoolId.bufSize, kibi]

theorem BufSetup.entry_inj (sane : setup.Sane) {index index' : ℕ} :
    setup.entry id index = setup.entry id index' ↔ index = index' := by
  have positive := sane.entrySize
  simp [BufSetup.entry, positive.ne']

/-- The descriptors of a pool and its queue of free buffers agree. -/
structure PoolOk (setup : BufSetup) (id : PoolId) (pool : SmallBufferPool queue) : Prop where
  this : pool.this = id
  body : pool.body = setup.body id
  entrySize : pool.entrySize = setup.entrySize
  memory : pool.memory = setup.memory id
  room : numBufs * id.bufSize ≤ pool.memory.size
  capacity : queue.getCapacity pool.mFree = numBufs
  nodup : (queue.items pool.mFree).Nodup
  free : ∀ index, index ∈ queue.items pool.mFree ↔
    index < numBufs ∧ (pool.mBody (setup.entry id index)).size = 0
  owned : ∀ index, index < numBufs → (pool.mBody (setup.entry id index)).pPool = some id

variable {pool : SmallBufferPool queue}

theorem PoolOk.indexOf_entry (ok : PoolOk setup id pool) (sane : setup.Sane) (index : ℕ) :
    pool.indexOf (setup.entry id index) = index := by
  have positive : (setup.entrySize : ℤ) ≠ 0 := by exact_mod_cast sane.entrySize.ne'
  rw [SmallBufferPool.indexOf, ok.body, ok.entrySize, BufSetup.entry]
  push_cast
  rw [add_sub_cancel_left]
  exact Int.mul_ediv_cancel _ positive

/-- A descriptor that is in use finds its part of the pool's memory. -/
theorem PoolOk.getData_eq (ok : PoolOk setup id pool) (sane : setup.Sane) (small : index < numBufs)
    (used : (pool.mBody (setup.entry id index)).size ≠ 0) :
    pool.getData (setup.entry id index) = .ok (setup.pages id + index * id.bufSize) := by
  have inside : index * id.bufSize < pool.memory.size := by
    exact (Nat.mul_lt_mul_of_pos_right small id.bufSize_pos).trans_le ok.room
  simp only [SmallBufferPool.getData, ok.indexOf_entry sane, ok.capacity, ok.this, auditAssert,
    if_pos used, bind, Except.bind]
  rw [if_pos (by exact_mod_cast small), if_neg (by omega), Int.toNat_natCast, Span.at,
    if_pos inside, ok.memory]
  rfl

/-- There is room in the queue for a buffer that is in use. -/
theorem PoolOk.add_ok (ok : PoolOk setup id pool) (small : index < numBufs)
    (used : (pool.mBody (setup.entry id index)).size ≠ 0) :
    ∃ mFree, queue.add pool.mFree index = some mFree ∧
      queue.items mFree = queue.items pool.mFree ++ [index] ∧
        queue.getCapacity mFree = queue.getCapacity pool.mFree := by
  apply queue.add_room
  have notFree : index ∉ queue.items pool.mFree := fun member => used ((ok.free index).mp member).2
  have all : index :: queue.items pool.mFree ⊆ List.range numBufs := by
    intro index' member
    rw [List.mem_range]
    rcases List.mem_cons.mp member with rfl | member
    · exact small
    · exact ((ok.free index').mp member).1
  have fits := (List.subperm_of_subset (List.nodup_cons.mpr ⟨notFree, ok.nodup⟩) all).length_le
  rw [List.length_cons, List.length_range] at fits
  rw [ok.capacity]
  exact fits

/-- One descriptor changes, and the queue with it. -/
theorem PoolOk.update (ok : PoolOk setup id pool) (sane : setup.Sane) (small : index < numBufs)
    {buffer : SmallBuffer} {mFree : queue.Que}
    (same : buffer.pPool = (pool.mBody (setup.entry id index)).pPool)
    (capacity : queue.getCapacity mFree = queue.getCapacity pool.mFree)
    (nodup : (queue.items mFree).Nodup)
    (here : index ∈ queue.items mFree ↔ buffer.size = 0)
    (others : ∀ other, other ≠ index →
      (other ∈ queue.items mFree ↔ other ∈ queue.items pool.mFree)) :
    PoolOk setup id { pool with
      mBody := Function.update pool.mBody (setup.entry id index) buffer
      mFree } := by
  constructor
  case this => exact ok.this
  case body => exact ok.body
  case entrySize => exact ok.entrySize
  case memory => exact ok.memory
  case room => exact ok.room
  case capacity => exact capacity.trans ok.capacity
  case nodup => exact nodup
  case free =>
    intro other
    by_cases own : other = index
    · subst own
      simp [here, small]
    · have apart : setup.entry id other ≠ setup.entry id index :=
        fun shared => own ((BufSetup.entry_inj sane).mp shared)
      simp [others other own, ok.free other, Function.update_of_ne apart]
  case owned =>
    intro other inside
    by_cases own : other = index
    · subst own
      simpa [same] using ok.owned other inside
    · have apart : setup.entry id other ≠ setup.entry id index :=
        fun shared => own ((BufSetup.entry_inj sane).mp shared)
      simpa [Function.update_of_ne apart] using ok.owned other inside

/-- `Release` of a buffer in use. -/
theorem PoolOk.release_ok (ok : PoolOk setup id pool) (sane : setup.Sane) (small : index < numBufs)
    (used : (pool.mBody (setup.entry id index)).size ≠ 0) :
    ∃ after, pool.release (setup.entry id index) = .ok after ∧ PoolOk setup id after ∧
      after.mBody = Function.update pool.mBody (setup.entry id index)
        { pool.mBody (setup.entry id index) with size := 0, offset := 0 } := by
  rcases ok.add_ok small used with ⟨mFree, added, items, capacity⟩
  have below : index < 2 ^ 32 := small.trans (by decide)
  have index' : (((index : ℤ) % 2 ^ 32).toNat) = index := by omega
  refine ⟨{ pool with
    mBody := Function.update pool.mBody (setup.entry id index)
      { pool.mBody (setup.entry id index) with size := 0, offset := 0 }
    mFree }, ?_, ?_, rfl⟩
  · have place : (pool.body : ℤ) + index * pool.entrySize = setup.entry id index := by
      rw [ok.body, ok.entrySize, BufSetup.entry]
      push_cast
      rfl
    simp only [SmallBufferPool.release, ok.indexOf_entry sane, ok.capacity, auditAssert,
      if_pos used, bind, Except.bind]
    rw [if_pos place, if_pos (by exact_mod_cast small)]
    dsimp only
    rw [index', added]
    rfl
  · have notFree : index ∉ queue.items pool.mFree :=
      fun member => used ((ok.free index).mp member).2
    refine ok.update sane small ?_ capacity ?_ ?_ ?_
    · rfl
    · rw [items, ← List.concat_eq_append]
      exact ok.nodup.concat notFree
    · simp [items]
    · intro other apart
      simp [items, apart]

/-- What `Release` does to the descriptors. -/
theorem release_mBody {pool after : SmallBufferPool queue} {pBuf : ℕ}
    (released : pool.release pBuf = .ok after) :
    after.mBody = Function.update pool.mBody pBuf
      { pool.mBody pBuf with size := 0, offset := 0 } := by
  simp only [SmallBufferPool.release, auditAssert, bind, Except.bind] at released
  repeat' split at released
  all_goals cases released <;> rfl

/-- `Allocate` takes a free buffer. -/
theorem PoolOk.allocate_ok (ok : PoolOk setup id pool) (sane : setup.Sane) (positive : 0 < size)
    (fits : size ≤ id.bufSize) (aligned : alignment ≤ id.bufSize)
    (power : ∃ exponent, alignment = 2 ^ exponent) (offset : ℕ) :
    pool.allocate size alignment offset =
        .error (.assert "Small Buffer Pool empty.") ∧ queue.items pool.mFree = [] ∨
      ∃ index after, index < numBufs ∧ (pool.mBody (setup.entry id index)).size = 0 ∧
        pool.allocate size alignment offset = .ok (setup.entry id index, after) ∧
        PoolOk setup id after ∧
        after.mBody = Function.update pool.mBody (setup.entry id index)
          { pool.mBody (setup.entry id index) with size, offset } := by
  have masked : alignment &&& (alignment - 1) = 0 := by
    have isPower := (isPower2_iff alignment).mpr power
    simp only [isPower2, decide_eq_true_eq] at isPower
    exact isPower.2
  have place : ∀ index, pool.body + index * pool.entrySize = setup.entry id index := by
    intro index
    rw [ok.body, ok.entrySize, BufSetup.entry]
  cases taken : queue.get pool.mFree with
  | none =>
      refine .inl ⟨?_, queue.items_of_get_none taken⟩
      simp only [SmallBufferPool.allocate, auditAssert, ok.this, if_pos positive, if_pos fits,
        if_pos (And.intro aligned masked), taken, bind, Except.bind]
  | some pair =>
      rcases pair with ⟨index, mFree⟩
      rcases queue.items_of_get taken with ⟨items, capacity⟩
      have front : index ∈ queue.items pool.mFree := by
        rw [items]
        exact List.mem_cons_self
      rcases (ok.free index).mp front with ⟨small, blank⟩
      have nodup := ok.nodup
      rw [items] at nodup
      rcases List.nodup_cons.mp nodup with ⟨once, nodup'⟩
      refine .inr ⟨index, { pool with
        mBody := Function.update pool.mBody (setup.entry id index)
          { pool.mBody (setup.entry id index) with size, offset }
        mFree }, small, blank, ?_, ?_, rfl⟩
      · simp only [SmallBufferPool.allocate, auditAssert, ok.this, if_pos positive, if_pos fits,
          if_pos (And.intro aligned masked), taken, bind, Except.bind, place]
        rfl
      · refine ok.update sane small ?_ capacity nodup' ?_ ?_
        · rfl
        · simp [once, positive.ne']
        · intro other apart
          simp [items, apart]

/-- The pool while it is constructed: the first buffers are in the queue. -/
structure Filled (setup : BufSetup) (id : PoolId) (count : ℕ) (pool : SmallBufferPool queue) :
    Prop where
  this : pool.this = id
  body : pool.body = setup.body id
  entrySize : pool.entrySize = setup.entrySize
  memory : pool.memory = setup.memory id
  capacity : queue.getCapacity pool.mFree = numBufs
  items : queue.items pool.mFree = List.range count
  blank : ∀ ptr, (pool.mBody ptr).size = 0
  owned : ∀ index, index < count → (pool.mBody (setup.entry id index)).pPool = some id

theorem Filled.addBuffer {count : ℕ} (filled : Filled setup id count pool)
    (room : count < numBufs) : Filled setup id (count + 1) (pool.addBuffer count) := by
  have space : (queue.items pool.mFree).length < queue.getCapacity pool.mFree := by
    rw [filled.items, filled.capacity, List.length_range]
    exact room
  rcases queue.add_room space count with ⟨mFree, added, items, capacity⟩
  have place : pool.body + count * pool.entrySize = setup.entry id count := by
    rw [filled.body, filled.entrySize, BufSetup.entry]
  constructor
  case this => exact filled.this
  case body => exact filled.body
  case entrySize => exact filled.entrySize
  case memory => exact filled.memory
  case capacity => simp [SmallBufferPool.addBuffer, added, capacity, filled.capacity]
  case items => simp [SmallBufferPool.addBuffer, added, items, filled.items, List.range_succ]
  case blank =>
    intro ptr
    by_cases same : ptr = pool.body + count * pool.entrySize
    · simp [SmallBufferPool.addBuffer, same, filled.blank]
    · simp [SmallBufferPool.addBuffer, Function.update_of_ne same, filled.blank]
  case owned =>
    intro index below
    by_cases same : setup.entry id index = setup.entry id count
    · simp [SmallBufferPool.addBuffer, place, same, filled.this]
    · have before : index < count := by
        apply Nat.lt_of_le_of_ne (Nat.le_of_lt_succ below)
        rintro rfl
        exact same rfl
      simp [SmallBufferPool.addBuffer, place, Function.update_of_ne same,
        filled.owned index before]

theorem Filled.fold (filled : Filled setup id 0 pool) {count : ℕ} (room : count ≤ numBufs) :
    Filled setup id count ((List.range count).foldl SmallBufferPool.addBuffer pool) := by
  induction count with
  | zero => exact filled
  | succ count ih =>
      rw [List.range_succ, List.foldl_append]
      exact (ih (Nat.le_of_succ_le room)).addBuffer room

/-- A pool that is constructed has all its buffers free, and memory for them. -/
theorem construct_ok (constructed : SmallBufferPool.construct queue setup id = .ok pool) :
    PoolOk setup id pool ∧ ∀ ptr, (pool.mBody ptr).size = 0 := by
  simp only [SmallBufferPool.construct, auditAssert] at constructed
  by_cases counted : wrap32 ((setup.memory id).size / id.bufSize) = numBufs
  · rw [if_pos counted] at constructed
    have made := Except.ok.inj constructed
    have room : numBufs * id.bufSize ≤ (setup.memory id).size := by
      have below := Nat.mod_le ((setup.memory id).size / id.bufSize) (2 ^ 32)
      rw [wrap32] at counted
      rw [counted] at below
      exact (Nat.le_div_iff_mul_le id.bufSize_pos).mp below
    have blank : Filled setup id 0 ({
        this := id
        body := setup.body id
        entrySize := setup.entrySize
        memory := setup.memory id
        mBody := fun _ => {}
        mFree := queue.make numBufs } : SmallBufferPool queue) :=
      ⟨rfl, rfl, rfl, rfl, queue.capacity_make 10, queue.items_make _, fun _ => rfl,
        fun _ below => absurd below (Nat.not_lt_zero _)⟩
    have filled := blank.fold le_rfl
    rw [made] at filled
    refine ⟨?_, filled.blank⟩
    constructor
    case this => exact filled.this
    case body => exact filled.body
    case entrySize => exact filled.entrySize
    case memory => exact filled.memory
    case room => exact filled.memory ▸ room
    case capacity => exact filled.capacity
    case nodup =>
      rw [filled.items]
      exact List.nodup_range
    case free =>
      intro index
      simp [filled.items, filled.blank]
    case owned => exact filled.owned
  · rw [if_neg counted] at constructed
    cases constructed

end Pools

end Hermes
