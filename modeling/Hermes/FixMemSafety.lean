import Hermes.FixMemPool

/-!
# The buffers of the manager are apart

In every run the live buffers have memory of their own.  `BufsOk` adds to what holds
of each pool that the descriptors in use are those of the live buffers, and that the
heap buffers were allocated apart.
-/

namespace Hermes

variable {queue : CircularQue ℕ} {setup : BufSetup} {id : PoolId} {index size alignment offset : ℕ}

section Manager

/-- The memory a live buffer has to stay inside. -/
def Lease.home (setup : BufSetup) (lease : Lease) : Span :=
  match lease.ptr with
  | .small id _ => setup.memory id
  | .heap ptr => ⟨ptr - lease.size, lease.size + setup.heapBufferSize⟩

/-- A live buffer and its descriptor agree. -/
def LeaseOk (setup : BufSetup) (manager : FixedBufManager queue) (lease : Lease) : Prop :=
  match lease.ptr with
  | .small id ptr => ∃ index, index < numBufs ∧ ptr = setup.entry id index ∧
      ((manager.pools id).mBody ptr).size = lease.size ∧ 0 < lease.size ∧
      lease.size ≤ id.bufSize ∧ lease.alignment ∣ id.bufSize
  | .heap ptr => ∃ buf offset, ptr = buf + lease.size ∧
      manager.heap ptr = some ⟨lease.size, offset⟩ ∧ lease.alignment ∣ buf ∧
      ∀ id, Disjoint (lease.home setup).bytes (setup.memory id).bytes

/-- The descriptors in use are those of the live buffers. -/
structure BufsOk (setup : BufSetup) (manager : FixedBufManager queue) (live : List Lease) :
    Prop where
  pools : ∀ id, PoolOk setup id (manager.pools id)
  ptrs : (live.map Lease.ptr).Nodup
  leases : ∀ lease ∈ live, LeaseOk setup manager lease
  used : ∀ id index, index < numBufs →
    ((manager.pools id).mBody (setup.entry id index)).size ≠ 0 →
      ∃ lease ∈ live, lease.ptr = .small id (setup.entry id index)
  blocks : live.Pairwise fun first second => ∀ block other, first.block setup = some block →
    second.block setup = some other → Disjoint block.bytes other.bytes

variable {manager : FixedBufManager queue} {live : List Lease} {ptr : BufPtr} {buf : ℕ}

theorem LeaseOk.of_small {lease : Lease} (ok : LeaseOk setup manager lease)
    {pool : SmallBufferPool queue} {entry : ℕ} {buffer : SmallBuffer}
    (mBody : pool.mBody = Function.update (manager.pools id).mBody entry buffer)
    (other : lease.ptr ≠ .small id entry) :
    LeaseOk setup { manager with pools := Function.update manager.pools id pool } lease := by
  unfold LeaseOk at ok ⊢
  cases place : lease.ptr with
  | heap ptr =>
      rw [place] at ok
      exact ok
  | small id' ptr' =>
      rw [place] at ok other
      dsimp only at ok ⊢
      by_cases same : id' = id
      · subst same
        have apart : ptr' ≠ entry := fun shared => other (by rw [shared])
        rw [Function.update_self, mBody, Function.update_of_ne apart]
        exact ok
      · rw [Function.update_of_ne same]
        exact ok

theorem LeaseOk.of_heap {lease : Lease} (ok : LeaseOk setup manager lease) {address : ℕ}
    {buffer : Option HeapBuffer} (other : lease.ptr ≠ .heap address) :
    LeaseOk setup { manager with heap := Function.update manager.heap address buffer } lease := by
  unfold LeaseOk at ok ⊢
  cases place : lease.ptr with
  | small id ptr =>
      rw [place] at ok
      exact ok
  | heap ptr' =>
      rw [place] at ok other
      dsimp only at ok ⊢
      have apart : ptr' ≠ address := fun shared => other (by rw [shared])
      rw [Function.update_of_ne apart]
      exact ok

/-- The pool chosen has buffers that are large enough, and aligned well enough. -/
theorem choose_fits (chosen : FixedBufManager.choose size alignment = some id) :
    size ≤ id.bufSize ∧ alignment ≤ id.bufSize := by
  unfold FixedBufManager.choose at chosen
  split at chosen
  · cases chosen
    assumption
  split at chosen
  · cases chosen
    assumption
  split at chosen
  · cases chosen
    assumption
  · cases chosen

theorem dvd_bufSize (power : ∃ exponent, alignment = 2 ^ exponent)
    (fits : alignment ≤ id.bufSize) : alignment ∣ id.bufSize := by
  rcases power with ⟨exponent, rfl⟩
  have isPower : ∃ large, id.bufSize = 2 ^ large := by
    cases id
    · exact ⟨11, rfl⟩
    · exact ⟨13, rfl⟩
    · exact ⟨15, rfl⟩
  rcases isPower with ⟨large, same⟩
  rw [same] at fits ⊢
  exact Nat.pow_dvd_pow 2 ((Nat.pow_le_pow_iff_right (by decide)).mp fits)

/-- The pools after one of them has changed. -/
theorem BufsOk.update_pools (ok : BufsOk setup manager live) {pool : SmallBufferPool queue}
    (changed : PoolOk setup id pool) (id' : PoolId) :
    PoolOk setup id' (Function.update manager.pools id pool id') := by
  by_cases same : id' = id
  · subst same
    rw [Function.update_self]
    exact changed
  · rw [Function.update_of_ne same]
    exact ok.pools id'

/-- A live buffer is not where a free one is. -/
theorem BufsOk.not_free (ok : BufsOk setup manager live) {lease : Lease} (member : lease ∈ live)
    {entry : ℕ} (blank : ((manager.pools id).mBody entry).size = 0) :
    lease.ptr ≠ .small id entry := by
  intro place
  have fits := ok.leases lease member
  simp only [LeaseOk, place] at fits
  rcases fits with ⟨_, _, _, sized, positive, _⟩
  omega

/-- A pool's buffer becomes live. -/
theorem BufsOk.lend (ok : BufsOk setup manager live) (sane : setup.Sane)
    {pool : SmallBufferPool queue}
    (small : index < numBufs)
    (blank : ((manager.pools id).mBody (setup.entry id index)).size = 0)
    (changed : PoolOk setup id pool)
    (mBody : pool.mBody = Function.update (manager.pools id).mBody (setup.entry id index)
      { (manager.pools id).mBody (setup.entry id index) with size, offset })
    (positive : 0 < size) (fits : size ≤ id.bufSize) (aligned : alignment ∣ id.bufSize) :
    BufsOk setup { manager with pools := Function.update manager.pools id pool }
      (live ++ [⟨.small id (setup.entry id index), size, alignment⟩]) := by
  have fresh : ∀ lease ∈ live, lease.ptr ≠ .small id (setup.entry id index) :=
    fun lease member => ok.not_free member blank
  constructor
  case pools => exact ok.update_pools changed
  case ptrs =>
    rw [List.map_append, List.map_singleton, ← List.concat_eq_append]
    apply ok.ptrs.concat
    rw [List.mem_map]
    rintro ⟨lease, member, same⟩
    exact fresh lease member same
  case leases =>
    intro lease member
    rcases List.mem_append.mp member with old | new
    · exact (ok.leases lease old).of_small mBody (fresh lease old)
    · rw [List.mem_singleton.mp new]
      refine ⟨index, small, rfl, ?_, positive, fits, aligned⟩
      simp [mBody]
  case used =>
    intro id' index' small' sized
    by_cases here : id' = id ∧ index' = index
    · rcases here with ⟨rfl, rfl⟩
      exact ⟨_, List.mem_append_right _ (List.mem_singleton_self _), rfl⟩
    · have kept : (Function.update manager.pools id pool id').mBody (setup.entry id' index') =
          (manager.pools id').mBody (setup.entry id' index') := by
        by_cases same : id' = id
        · subst same
          have apart : setup.entry id' index' ≠ setup.entry id' index :=
            fun shared => here ⟨rfl, (BufSetup.entry_inj sane).mp shared⟩
          rw [Function.update_self, mBody, Function.update_of_ne apart]
        · rw [Function.update_of_ne same]
      rcases ok.used id' index' small' (kept ▸ sized) with ⟨lease, member, place⟩
      exact ⟨lease, List.mem_append_left _ member, place⟩
  case blocks =>
    apply List.pairwise_append.mpr
    refine ⟨ok.blocks, List.pairwise_singleton _ _, ?_⟩
    intro first _ second here block other _ none
    rw [List.mem_singleton.mp here] at none
    cases none

/-- A heap buffer becomes live. -/
theorem BufsOk.lendHeap (ok : BufsOk setup manager live) (sane : setup.Sane)
    (mallocs : Mallocs setup live alignment ⟨buf, size + setup.heapBufferSize⟩) (offset : ℕ) :
    BufsOk setup
      { manager with heap := Function.update manager.heap (buf + size) (some ⟨size, offset⟩) }
      (live ++ [⟨.heap (buf + size), size, alignment⟩]) := by
  have fresh : ∀ lease ∈ live, lease.ptr ≠ .heap (buf + size) := by
    intro lease member place
    have disjoint := mallocs.blocks lease member _ (by rw [Lease.block, place])
    have descriptor := sane.heapBufferSize
    have fits := ok.leases lease member
    simp only [LeaseOk, place] at fits
    rcases fits with ⟨start, _, same, _⟩
    have inside : buf + size ∈ Span.bytes ⟨buf, size + setup.heapBufferSize⟩ := by
      simp [Span.bytes, descriptor]
    apply Set.disjoint_left.mp disjoint inside
    simp only [Span.bytes, Set.mem_ofPred_eq]
    omega
  constructor
  case pools => exact ok.pools
  case ptrs =>
    rw [List.map_append, List.map_singleton, ← List.concat_eq_append]
    apply ok.ptrs.concat
    rw [List.mem_map]
    rintro ⟨lease, member, same⟩
    exact fresh lease member same
  case leases =>
    intro lease member
    rcases List.mem_append.mp member with old | new
    · exact (ok.leases lease old).of_heap (fresh lease old)
    · rw [List.mem_singleton.mp new]
      refine ⟨buf, offset, rfl, Function.update_self _ _ _, mallocs.aligned, ?_⟩
      intro id
      simpa [Lease.home] using mallocs.pages id
  case used =>
    intro id index small sized
    rcases ok.used id index small sized with ⟨lease, member, place⟩
    exact ⟨lease, List.mem_append_left _ member, place⟩
  case blocks =>
    apply List.pairwise_append.mpr
    refine ⟨ok.blocks, List.pairwise_singleton _ _, ?_⟩
    intro first member second here block other mine theirs
    rw [List.mem_singleton.mp here] at theirs
    simp only [Lease.block, Option.some.injEq] at theirs
    have disjoint := (mallocs.blocks first member block mine).symm
    rw [← theirs, Nat.add_sub_cancel]
    exact disjoint

/-- `HeapBuffer::Allocate` succeeds when the heap provides the memory. -/
theorem allocate_heap (chosen : FixedBufManager.choose size alignment = none)
    (power : ∃ exponent, alignment = 2 ^ exponent) (given : buf ≠ 0) :
    manager.allocate size alignment offset buf = .ok (.heap (buf + size),
      { manager with
        heap := Function.update manager.heap (buf + size) (some ⟨size, offset⟩) }) := by
  have isPower : isPower2 alignment = true := (isPower2_iff alignment).mpr power
  rw [FixedBufManager.allocate, chosen]
  simp only [FixedBufManager.heapAllocate, auditAssert, if_pos isPower, if_pos given]
  rfl

/-- `Allocate` succeeds, and the buffer is live then, unless the pool is empty or the heap is. -/
theorem BufsOk.allocate_ok (ok : BufsOk setup manager live) (sane : setup.Sane)
    (positive : 0 < size) (power : ∃ exponent, alignment = 2 ^ exponent)
    (mallocs : FixedBufManager.choose size alignment = none →
      Mallocs setup live alignment ⟨buf, size + setup.heapBufferSize⟩) (offset : ℕ) :
    (∃ ptr after, manager.allocate size alignment offset buf = .ok (ptr, after) ∧
        BufsOk setup after (live ++ [⟨ptr, size, alignment⟩])) ∨
      (∃ id, FixedBufManager.choose size alignment = some id ∧
        queue.items (manager.pools id).mFree = [] ∧
          manager.allocate size alignment offset buf =
            .error (.assert "Small Buffer Pool empty.")) ∨
      (FixedBufManager.choose size alignment = none ∧ buf = 0 ∧
        manager.allocate size alignment offset buf =
          .error (.assert "can not allocate memory from heap!")) := by
  cases chosen : FixedBufManager.choose size alignment with
  | some id =>
      rcases choose_fits chosen with ⟨fits, aligned⟩
      rcases (ok.pools id).allocate_ok sane positive fits aligned power
        offset with
        ⟨stopped, empty⟩ | ⟨index, pool, small, blank, allocated, changed, mBody⟩
      · refine .inr (.inl ⟨id, rfl, empty, ?_⟩)
        rw [FixedBufManager.allocate, chosen]
        dsimp only
        rw [stopped]
        rfl
      · refine .inl ⟨_, _, ?_, ok.lend sane small blank changed mBody positive fits
          (dvd_bufSize power aligned)⟩
        rw [FixedBufManager.allocate, chosen]
        dsimp only
        rw [allocated]
        rfl
  | none =>
      have isPower : isPower2 alignment = true := (isPower2_iff alignment).mpr power
      by_cases null : buf = 0
      · refine .inr (.inr ⟨rfl, null, ?_⟩)
        rw [FixedBufManager.allocate, chosen]
        simp only [FixedBufManager.heapAllocate, auditAssert, if_pos isPower, null]
        rfl
      · exact .inl ⟨_, _, allocate_heap chosen power null, ok.lendHeap sane (mallocs chosen) offset⟩

/-- `Dispose` of a live buffer. -/
theorem BufsOk.dispose_ok (ok : BufsOk setup manager live) (sane : setup.Sane) {lease : Lease}
    (member : lease ∈ live) :
    ∃ after, manager.dispose lease.ptr = .ok after ∧
      BufsOk setup after (live.filter fun other => other.ptr ≠ lease.ptr) := by
  have fits := ok.leases lease member
  have kept : ∀ {other}, other ∈ live.filter (fun other => other.ptr ≠ lease.ptr) →
      other ∈ live ∧ other.ptr ≠ lease.ptr := by
    intro other member
    simpa using List.mem_filter.mp member
  have ptrs : ((live.filter fun other => other.ptr ≠ lease.ptr).map Lease.ptr).Nodup :=
    ok.ptrs.sublist ((List.filter_sublist).map _)
  have blocks := ok.blocks.sublist
    (List.filter_sublist (l := live) (p := fun other => other.ptr ≠ lease.ptr))
  cases place : lease.ptr with
  | small id ptr =>
      simp only [LeaseOk, place] at fits
      rcases fits with ⟨index, small, rfl, sized, positive, _⟩
      rw [place] at kept ptrs blocks
      have used : ((manager.pools id).mBody (setup.entry id index)).size ≠ 0 := by omega
      rcases (ok.pools id).release_ok sane small used with ⟨pool, released, changed, mBody⟩
      refine ⟨{ manager with pools := Function.update manager.pools id pool }, ?_, ?_⟩
      · rw [FixedBufManager.dispose, (ok.pools id).owned index small]
        dsimp only
        rw [released]
        rfl
      constructor
      case pools => exact ok.update_pools changed
      case ptrs => exact ptrs
      case leases =>
        intro other member
        exact (ok.leases other (kept member).1).of_small mBody (kept member).2
      case used =>
        intro id' index' small' sized'
        by_cases here : id' = id ∧ index' = index
        · rcases here with ⟨rfl, rfl⟩
          simp [mBody] at sized'
        have same : (Function.update manager.pools id pool id').mBody (setup.entry id' index') =
            (manager.pools id').mBody (setup.entry id' index') := by
          by_cases same : id' = id
          · subst same
            have apart : setup.entry id' index' ≠ setup.entry id' index :=
              fun shared => here ⟨rfl, (BufSetup.entry_inj sane).mp shared⟩
            rw [Function.update_self, mBody, Function.update_of_ne apart]
          · rw [Function.update_of_ne same]
        rcases ok.used id' index' small' (same ▸ sized') with ⟨other, member', place'⟩
        refine ⟨other, List.mem_filter.mpr ⟨member', ?_⟩, place'⟩
        rw [place', decide_eq_true_eq]
        intro shared
        injection shared with sameId sameEntry
        subst sameId
        exact here ⟨rfl, (BufSetup.entry_inj sane).mp sameEntry⟩
      case blocks => exact blocks
  | heap ptr =>
      simp only [LeaseOk, place] at fits
      rcases fits with ⟨start, offset, _, held, _⟩
      rw [place] at kept ptrs blocks
      refine ⟨{ manager with heap := Function.update manager.heap ptr none }, ?_, ?_⟩
      · rw [FixedBufManager.dispose, held]
        rfl
      constructor
      case pools => exact ok.pools
      case ptrs => exact ptrs
      case leases =>
        intro other member
        exact (ok.leases other (kept member).1).of_heap (kept member).2
      case used =>
        intro id index small sized
        rcases ok.used id index small sized with ⟨other, member', place'⟩
        refine ⟨other, List.mem_filter.mpr ⟨member', ?_⟩, place'⟩
        rw [place', decide_eq_true_eq]
        exact nofun
      case blocks => exact blocks

/-- The factory's manager has no live buffers. -/
theorem factory_ok (made : fixedBufManagerFactory queue setup = .ok manager) :
    BufsOk setup manager [] := by
  simp only [fixedBufManagerFactory, bind, Except.bind] at made
  cases small : SmallBufferPool.construct queue setup .sPool with
  | error stop =>
      rw [small] at made
      cases made
  | ok sPool =>
  cases middle : SmallBufferPool.construct queue setup .mPool with
  | error stop =>
      rw [small, middle] at made
      cases made
  | ok mPool =>
  cases big : SmallBufferPool.construct queue setup .bPool with
  | error stop =>
      rw [small, middle, big] at made
      cases made
  | ok bPool =>
      rw [small, middle, big] at made
      cases made
      have pools : ∀ id, PoolOk setup id (fixedPools sPool mPool bPool id) ∧
          ∀ ptr, ((fixedPools sPool mPool bPool id).mBody ptr).size = 0 := by
        intro id
        cases id
        · exact construct_ok small
        · exact construct_ok middle
        · exact construct_ok big
      refine ⟨fun id => (pools id).1, List.nodup_nil, nofun, ?_, .nil⟩
      exact fun id index _ sized => absurd ((pools id).2 _) sized

/-- The invariant holds in every run. -/
theorem reachable_bufsOk (sane : setup.Sane) {state : FixedBufManager queue × List Lease}
    (reachable : (bufMachine queue setup).Reachable
      (fun state => BufAction.Allowed setup state.2) state) : BufsOk setup state.1 state.2 := by
  refine reachable.invariant (fun state => BufsOk setup state.1 state.2) ?_ ?_
  · rintro ⟨manager, live⟩ ⟨made, rfl⟩
    exact factory_ok made
  · rintro ⟨manager, live⟩ action next ok allowed stepped
    cases action with
    | allocate size alignment offset buf =>
        rcases allowed with ⟨positive, power, mallocs⟩
        rcases ok.allocate_ok sane positive power mallocs offset with
          ⟨ptr, after, allocated, afterOk⟩ | ⟨_, _, _, stopped⟩ | ⟨_, _, stopped⟩
        · simp only [bufMachine, allocated] at stepped
          cases stepped
          exact afterOk
        · simp only [bufMachine, stopped] at stepped
          cases stepped
        · simp only [bufMachine, stopped] at stepped
          cases stepped
    | dispose ptr =>
        rcases allowed with ⟨lease, member, rfl⟩
        rcases ok.dispose_ok sane member with ⟨after, disposed, afterOk⟩
        simp only [bufMachine, disposed] at stepped
        cases stepped
        exact afterOk

/-- A pool is not empty while fewer buffers are live than it has. -/
theorem BufsOk.room (ok : BufsOk setup manager live) (sane : setup.Sane)
    (few : live.length < numBufs) (id : PoolId) : queue.items (manager.pools id).mFree ≠ [] := by
  intro empty
  let entries := (List.range numBufs).map fun index => BufPtr.small id (setup.entry id index)
  have lent : entries ⊆ live.map Lease.ptr := by
    intro entry member
    rcases List.mem_map.mp member with ⟨index, inside, rfl⟩
    have small := List.mem_range.mp inside
    have used : ((manager.pools id).mBody (setup.entry id index)).size ≠ 0 := by
      intro blank
      have free := ((ok.pools id).free index).mpr ⟨small, blank⟩
      simp [empty] at free
    rcases ok.used id index small used with ⟨lease, live, place⟩
    exact List.mem_map.mpr ⟨lease, live, place⟩
  have once : entries.Nodup := by
    apply List.Nodup.map _ List.nodup_range
    intro index index' same
    exact (BufSetup.entry_inj sane).mp (BufPtr.small.inj same).2
  have count := (once.subperm lent).length_le
  simp only [entries, List.length_map, List.length_range] at count
  omega

/-- `Allocate` succeeds while few buffers are live. -/
theorem reachable_allocate (sane : setup.Sane)
    (reachable : (bufMachine queue setup).Reachable
      (fun state => BufAction.Allowed setup state.2) (manager, live))
    (few : live.length < numBufs) (positive : 0 < size)
    (power : ∃ exponent, alignment = 2 ^ exponent)
    (mallocs : FixedBufManager.choose size alignment = none →
      Mallocs setup live alignment ⟨buf, size + setup.heapBufferSize⟩) (given : buf ≠ 0) :
    ∃ ptr after, (bufMachine queue setup).Reachable
      (fun state => BufAction.Allowed setup state.2) (after, live ++ [⟨ptr, size, alignment⟩]) := by
  have ok := reachable_bufsOk sane reachable
  rcases ok.allocate_ok sane positive power mallocs 0 with
    ⟨ptr, after, allocated, _⟩ | ⟨id, _, empty, _⟩ | ⟨_, null, _⟩
  · have stepped : (bufMachine queue setup).step (manager, live)
        (.allocate size alignment 0 buf) = .ok (after, live ++ [⟨ptr, size, alignment⟩]) := by
      simp only [bufMachine, allocated]
      rfl
    have allowed : BufAction.Allowed setup live (.allocate size alignment 0 buf) :=
      ⟨positive, power, mallocs⟩
    exact ⟨ptr, after, reachable.tail allowed stepped⟩
  · exact absurd empty (ok.room sane few id)
  · exact absurd null given

/-- `Dispose` of a live buffer succeeds. -/
theorem reachable_dispose (sane : setup.Sane)
    (reachable : (bufMachine queue setup).Reachable
      (fun state => BufAction.Allowed setup state.2) (manager, live)) {lease : Lease}
    (member : lease ∈ live) :
    ∃ after, (bufMachine queue setup).step (manager, live) (.dispose lease.ptr) =
        .ok (after, live.filter fun other => other.ptr ≠ lease.ptr) ∧
      (bufMachine queue setup).Reachable (fun state => BufAction.Allowed setup state.2)
        (after, live.filter fun other => other.ptr ≠ lease.ptr) := by
  rcases (reachable_bufsOk sane reachable).dispose_ok sane member with ⟨after, disposed, _⟩
  have stepped : (bufMachine queue setup).step (manager, live) (.dispose lease.ptr) =
      .ok (after, live.filter fun other => other.ptr ≠ lease.ptr) := by
    simp only [bufMachine, disposed]
    rfl
  have allowed : BufAction.Allowed setup live (.dispose lease.ptr) := ⟨lease, member, rfl⟩
  exact ⟨after, stepped, reachable.tail allowed stepped⟩

/-- Where the data of a live buffer is. -/
theorem BufsOk.start (ok : BufsOk setup manager live) (sane : setup.Sane) {lease : Lease}
    (member : lease ∈ live) :
    ∃ start, manager.pStart lease.ptr = .ok start ∧ manager.size lease.ptr = .ok lease.size ∧
      lease.alignment ∣ start ∧
        Span.bytes ⟨start, lease.size⟩ ⊆ (lease.home setup).bytes ∧
          ∀ id ptr, lease.ptr = .small id ptr → ∃ index, index < numBufs ∧
            ptr = setup.entry id index ∧ start = setup.pages id + index * id.bufSize ∧
              lease.size ≤ id.bufSize := by
  have fits := ok.leases lease member
  cases place : lease.ptr with
  | small id ptr =>
      simp only [LeaseOk, place] at fits
      rcases fits with ⟨index, small, rfl, sized, positive, size, aligned⟩
      have used : ((manager.pools id).mBody (setup.entry id index)).size ≠ 0 := by omega
      have poolOk := ok.pools id
      refine ⟨setup.pages id + index * id.bufSize, ?_, ?_, ?_, ?_, ?_⟩
      · rw [FixedBufManager.pStart, poolOk.owned index small]
        exact poolOk.getData_eq sane small used
      · rw [FixedBufManager.size, sized]
        rfl
      · have page : id.bufSize ∣ 64 * kibi := by
          cases id
          · exact ⟨32, rfl⟩
          · exact ⟨8, rfl⟩
          · exact ⟨2, rfl⟩
        apply Nat.dvd_add
        · exact aligned.trans (page.trans (sane.aligned id))
        · exact Dvd.dvd.mul_left aligned index
      · have room := poolOk.room
        have next : (index + 1) * id.bufSize ≤ numBufs * id.bufSize := Nat.mul_le_mul_right _ small
        rw [poolOk.memory] at room
        simp only [Lease.home, place]
        apply Span.bytes_subset
        · exact Nat.le_add_right _ _
        · rw [Nat.add_one_mul] at next
          have pages : (setup.memory id).data = setup.pages id := rfl
          dsimp only
          omega
      · intro id' ptr' same
        cases same
        exact ⟨index, small, rfl, rfl, size⟩
  | heap ptr =>
      simp only [LeaseOk, place] at fits
      rcases fits with ⟨start, offset, rfl, held, aligned, _⟩
      refine ⟨start, ?_, ?_, aligned, ?_, nofun⟩
      · rw [FixedBufManager.pStart, held]
        exact congrArg Except.ok (Nat.add_sub_cancel start lease.size)
      · rw [FixedBufManager.size, held]
        rfl
      · simp only [Lease.home, place]
        apply Span.bytes_subset
        · simp
        · simp

end Manager

section Sound

variable {manager : FixedBufManager queue} {live : List Lease}

/-- What the manager guarantees for the live buffers. -/
structure BufsSound (setup : BufSetup) (manager : FixedBufManager queue) (live : List Lease) :
    Prop where
  starts : ∀ lease ∈ live, ∃ start, manager.pStart lease.ptr = .ok start ∧
    manager.size lease.ptr = .ok lease.size ∧ lease.alignment ∣ start ∧
      Span.bytes ⟨start, lease.size⟩ ⊆ (lease.home setup).bytes
  apart : live.Pairwise fun first second => ∀ start start',
    manager.pStart first.ptr = .ok start → manager.pStart second.ptr = .ok start' →
      Disjoint (Span.bytes ⟨start, first.size⟩) (Span.bytes ⟨start', second.size⟩)
  indices : ∀ id, (∀ index ∈ queue.items (manager.pools id).mFree, index < numBufs) ∧
    ∀ index, index < numBufs →
      ((queue.items (manager.pools id).mFree).count index = 1 ∧
          ((manager.pools id).mBody (setup.entry id index)).size = 0 ∧
          ∀ lease ∈ live, lease.ptr ≠ .small id (setup.entry id index)) ∨
        ((queue.items (manager.pools id).mFree).count index = 0 ∧
          0 < ((manager.pools id).mBody (setup.entry id index)).size ∧
          ∃ lease ∈ live, lease.ptr = .small id (setup.entry id index))
  releases : ∀ id index, index < numBufs →
    0 < ((manager.pools id).mBody (setup.entry id index)).size →
      (queue.add (manager.pools id).mFree index).isSome
  disposes : ∀ lease ∈ live, ∃ after, manager.dispose lease.ptr = .ok after
  allocates : ∀ size alignment offset buf, 0 < size → (∃ exponent, alignment = 2 ^ exponent) →
    (∀ id, FixedBufManager.choose size alignment = some id →
      queue.items (manager.pools id).mFree ≠ []) →
    (FixedBufManager.choose size alignment = none → buf ≠ 0) →
    ∃ ptr after, manager.allocate size alignment offset buf = .ok (ptr, after)

/-- Two places of a pool share no byte. -/
theorem disjoint_slots {base width first second size size' : ℕ} (other : first ≠ second)
    (fits : size ≤ width) (fits' : size' ≤ width) :
    Disjoint (Span.bytes ⟨base + first * width, size⟩)
      (Span.bytes ⟨base + second * width, size'⟩) := by
  rcases Nat.lt_or_gt_of_ne other with before | after
  · have next : (first + 1) * width ≤ second * width := Nat.mul_le_mul_right _ before
    rw [Nat.add_one_mul] at next
    apply Span.bytes_disjoint
    dsimp only
    omega
  · have next : (second + 1) * width ≤ first * width := Nat.mul_le_mul_right _ after
    rw [Nat.add_one_mul] at next
    apply Disjoint.symm
    apply Span.bytes_disjoint
    dsimp only
    omega

/-- Two live buffers share no byte. -/
theorem BufsOk.disjoint (ok : BufsOk setup manager live) (sane : setup.Sane) {first second : Lease}
    (member : first ∈ live) (member' : second ∈ live) (other : first.ptr ≠ second.ptr)
    (blocks : ∀ block block', first.block setup = some block → second.block setup = some block' →
      Disjoint block.bytes block'.bytes) {start start' : ℕ}
    (starts : manager.pStart first.ptr = .ok start)
    (starts' : manager.pStart second.ptr = .ok start') :
    Disjoint (Span.bytes ⟨start, first.size⟩) (Span.bytes ⟨start', second.size⟩) := by
  rcases ok.start sane member with ⟨at₁, same, _, _, inside, slot⟩
  rcases ok.start sane member' with ⟨at₂, same', _, _, inside', slot'⟩
  cases starts.symm.trans same
  cases starts'.symm.trans same'
  have fits := ok.leases first member
  have fits' := ok.leases second member'
  cases place : first.ptr with
  | small id ptr =>
      have home : first.home setup = setup.memory id := by rw [Lease.home, place]
      cases place' : second.ptr with
      | small id' ptr' =>
          have home' : second.home setup = setup.memory id' := by rw [Lease.home, place']
          by_cases sameId : id = id'
          · subst sameId
            rcases slot id ptr place with ⟨index, _, rfl, rfl, small⟩
            rcases slot' id ptr' place' with ⟨index', _, rfl, rfl, small'⟩
            refine disjoint_slots ?_ small small'
            rintro rfl
            exact other (place.trans place'.symm)
          · rw [home] at inside
            rw [home'] at inside'
            exact (sane.apart id id' sameId).mono inside inside'
      | heap ptr' =>
          rw [home] at inside
          simp only [LeaseOk, place'] at fits'
          rcases fits' with ⟨_, _, _, _, _, pages⟩
          exact (pages id).symm.mono inside inside'
  | heap ptr =>
      simp only [LeaseOk, place] at fits
      rcases fits with ⟨_, _, _, _, _, pages⟩
      cases place' : second.ptr with
      | small id' ptr' =>
          have home' : second.home setup = setup.memory id' := by rw [Lease.home, place']
          rw [home'] at inside'
          exact (pages id').mono inside inside'
      | heap ptr' =>
          have block : first.block setup = some (first.home setup) := by
            rw [Lease.block, Lease.home, place]
          have block' : second.block setup = some (second.home setup) := by
            rw [Lease.block, Lease.home, place']
          exact (blocks _ _ block block').mono inside inside'

theorem BufsOk.sound (ok : BufsOk setup manager live) (sane : setup.Sane) :
    BufsSound setup manager live := by
  constructor
  case starts =>
    intro lease member
    rcases ok.start sane member with ⟨start, starts, sized, aligned, inside, _⟩
    exact ⟨start, starts, sized, aligned, inside⟩
  case apart =>
    have both := (List.pairwise_map.mp ok.ptrs).and ok.blocks
    apply both.imp_of_mem
    rintro first second member member' ⟨other, blocks⟩ start start' starts starts'
    exact ok.disjoint sane member member' other blocks starts starts'
  case indices =>
    intro id
    refine ⟨fun index member => (((ok.pools id).free index).mp member).1, ?_⟩
    intro index small
    have held := (ok.pools id).free index
    by_cases blank : ((manager.pools id).mBody (setup.entry id index)).size = 0
    · refine .inl ⟨?_, blank, fun lease member => ok.not_free member blank⟩
      exact List.count_eq_one_of_mem (ok.pools id).nodup (held.mpr ⟨small, blank⟩)
    · refine .inr ⟨?_, Nat.pos_of_ne_zero blank, ok.used id index small blank⟩
      exact List.count_eq_zero_of_not_mem fun member => blank (held.mp member).2
  case releases =>
    intro id index small used
    rcases (ok.pools id).add_ok small used.ne' with ⟨mFree, added, _⟩
    rw [added]
    rfl
  case disposes =>
    intro lease member
    rcases ok.dispose_ok sane member with ⟨after, disposed, _⟩
    exact ⟨after, disposed⟩
  case allocates =>
    intro size alignment offset buf positive power room given
    cases chosen : FixedBufManager.choose size alignment with
    | some id =>
        rcases choose_fits chosen with ⟨fits, aligned⟩
        rcases (ok.pools id).allocate_ok sane positive fits aligned power offset with
          ⟨_, empty⟩ | ⟨index, pool, _, _, allocated, _⟩
        · exact absurd empty (room id chosen)
        · rw [FixedBufManager.allocate, chosen]
          dsimp only
          rw [allocated]
          exact ⟨_, _, rfl⟩
    | none => exact ⟨_, _, allocate_heap chosen power (given chosen)⟩

/-- A buffer that has been released stays so while buffers are only disposed of. -/
theorem dispose_keeps_released {manager after : FixedBufManager queue} {ptr : BufPtr}
    (disposed : manager.dispose ptr = .ok after) {entry : ℕ}
    (released : (manager.pools id).mBody entry = { pPool := some id }) :
    (after.pools id).mBody entry = { pPool := some id } := by
  cases ptr with
  | heap ptr =>
      simp only [FixedBufManager.dispose] at disposed
      split at disposed
      · cases disposed
      · cases disposed
        exact released
  | small id' ptr =>
      simp only [FixedBufManager.dispose] at disposed
      split at disposed
      · cases disposed
      next pPool _ =>
        simp only [bind, Except.bind] at disposed
        cases outcome : (manager.pools pPool).release ptr with
        | error stop =>
            rw [outcome] at disposed
            cases disposed
        | ok pool =>
            rw [outcome] at disposed
            cases disposed
            by_cases same : id = pPool
            · subst same
              dsimp only
              rw [Function.update_self, release_mBody outcome]
              by_cases here : entry = ptr
              · subst here
                simp [released]
              · rw [Function.update_of_ne here]
                exact released
            · dsimp only
              rw [Function.update_of_ne same]
              exact released

/-- A descriptor that has been released does not go back to its pool again. -/
theorem dispose_released {manager : FixedBufManager queue} {entry : ℕ}
    (released : (manager.pools id).mBody entry = { pPool := some id }) :
    manager.dispose (.small id entry) =
      .error (.assert "Double buffer release detected!") := by
  simp only [FixedBufManager.dispose, released]
  rw [SmallBufferPool.release, released]
  rfl

/-- In every run of a manager the live buffers are sound, and a pool's buffer that is disposed of
twice without an allocation between is detected. -/
theorem fixedBufManager_sound (sane : setup.Sane) {state : FixedBufManager queue × List Lease}
    (reachable : (bufMachine queue setup).Reachable
      (fun state => BufAction.Allowed setup state.2) state) :
    BufsSound setup state.1 state.2 ∧
      ∀ id ptr, (∃ lease ∈ state.2, lease.ptr = .small id ptr) → ∀ next last,
        (bufMachine queue setup).step state (.dispose (.small id ptr)) = .ok next →
        (bufMachine queue setup).Run (fun _ action => ∃ other, action = .dispose other) next last →
          (bufMachine queue setup).step last (.dispose (.small id ptr)) =
            .error (.assert "Double buffer release detected!") := by
  have ok := reachable_bufsOk sane reachable
  refine ⟨ok.sound sane, ?_⟩
  rintro id ptr ⟨lease, member, place⟩ next last stepped run
  have fits := ok.leases lease member
  simp only [LeaseOk, place] at fits
  rcases fits with ⟨index, small, rfl, sized, positive, _⟩
  have used : ((state.1.pools id).mBody (setup.entry id index)).size ≠ 0 := by omega
  rcases (ok.pools id).release_ok sane small used with ⟨pool, released, _, mBody⟩
  have owned := (ok.pools id).owned index small
  have first : (next.1.pools id).mBody (setup.entry id index) = { pPool := some id } := by
    simp only [bufMachine, FixedBufManager.dispose, owned, released] at stepped
    cases stepped
    simp [mBody, owned]
  have kept : (last.1.pools id).mBody (setup.entry id index) = { pPool := some id } := by
    refine @Machine.Run.preserves _ _ _ _ _
      (fun state => (state.1.pools id).mBody (setup.entry id index) = { pPool := some id })
      ?_ _ _ run first
    rintro before action after still ⟨other, rfl⟩ stepped
    simp only [bufMachine, bind, Except.bind] at stepped
    cases disposed : before.1.dispose other with
    | error stop =>
        rw [disposed] at stepped
        cases stepped
    | ok manager =>
        rw [disposed] at stepped
        cases stepped
        exact dispose_keeps_released disposed still
  simp only [bufMachine, dispose_released kept]
  rfl

/-- Large pages of two MiB, and descriptors of the sizes they have on a 64 bit machine. -/
def sampleBufs : BufSetup where
  body id := 0x10000 * (id.bufSize / kibi)
  entrySize := 24
  heapBufferSize := 16
  granularity := 2 * mebi
  pages id := 64 * mebi * (id.bufSize / kibi)

theorem sampleBufs_sane : sampleBufs.Sane where
  entrySize := by decide
  heapBufferSize := by decide
  aligned id := by
    cases id
    · exact ⟨2 * 1024, by decide⟩
    · exact ⟨8 * 1024, by decide⟩
    · exact ⟨32 * 1024, by decide⟩
  apart id id' other := by
    have before : ∀ {id id' : PoolId}, (sampleBufs.memory id).data + (sampleBufs.memory id).size ≤
        (sampleBufs.memory id').data →
          Disjoint (sampleBufs.memory id).bytes (sampleBufs.memory id').bytes :=
      Span.bytes_disjoint
    cases id <;> cases id'
    case sPool.sPool => exact absurd rfl other
    case mPool.mPool => exact absurd rfl other
    case bPool.bPool => exact absurd rfl other
    case sPool.mPool => exact before (by decide)
    case sPool.bPool => exact before (by decide)
    case mPool.bPool => exact before (by decide)
    case mPool.sPool => exact (before (by decide)).symm
    case bPool.sPool => exact (before (by decide)).symm
    case bPool.mPool => exact (before (by decide)).symm

theorem sampleBufs_made : ∃ manager,
    fixedBufManagerFactory (boundedQueue ℕ) sampleBufs = .ok manager := by
  have constructed : ∀ id, ∃ pool,
      SmallBufferPool.construct (boundedQueue ℕ) sampleBufs id = .ok pool := by
    intro id
    have counted : wrap32 ((sampleBufs.memory id).size / id.bufSize) = numBufs := by
      cases id <;> decide
    simp only [SmallBufferPool.construct, auditAssert, if_pos counted]
    exact ⟨_, rfl⟩
  rcases constructed .sPool with ⟨sPool, small⟩
  rcases constructed .mPool with ⟨mPool, middle⟩
  rcases constructed .bPool with ⟨bPool, big⟩
  refine ⟨{ pools := fixedPools sPool mPool bPool, heap := fun _ => none }, ?_⟩
  simp only [fixedBufManagerFactory, small, middle, big]
  rfl

theorem sampleBufs_mallocs (alignment : ℕ) {size : ℕ} (aligned : alignment ∣ 0x10000)
    (small : size < mebi) : Mallocs sampleBufs [] alignment ⟨0x10000, size⟩ where
  aligned := aligned
  pages id := by
    apply Span.bytes_disjoint
    simp only [BufSetup.memory, sampleBufs]
    cases id <;> simp only [PoolId.bufSize, mebi, kibi] at * <;> omega
  blocks lease member := by cases member

/-- Buffers of the heap and of two pools are live, and another one has been disposed of. -/
theorem fixedBufManager_sound_three :
    ∃ (state next : FixedBufManager (boundedQueue ℕ) × List Lease) (ptr : BufPtr),
      (next.2.map fun lease => (lease.size, lease.alignment)) =
        [(100000, 64), (5000, 16), (20000, 32)] ∧
      BufsSound sampleBufs next.1 next.2 ∧
      (bufMachine (boundedQueue ℕ) sampleBufs).step state (.dispose ptr) = .ok next ∧
      ∀ id entry, ptr = .small id entry →
        (bufMachine (boundedQueue ℕ) sampleBufs).step next (.dispose ptr) =
          .error (.assert "Double buffer release detected!") := by
  rcases sampleBufs_made with ⟨manager, made⟩
  have started : (bufMachine (boundedQueue ℕ) sampleBufs).Reachable
      (fun state => BufAction.Allowed sampleBufs state.2) (manager, []) := .of_start ⟨made, rfl⟩
  have pooled : ∀ {size alignment : ℕ} {id : PoolId} {live : List Lease},
      FixedBufManager.choose size alignment = some id →
      FixedBufManager.choose size alignment = none →
        Mallocs sampleBufs live alignment ⟨0x1000, size + sampleBufs.heapBufferSize⟩ := by
    intro size alignment id live chosen none
    rw [chosen] at none
    cases none
  rcases reachable_allocate sampleBufs_sane started (by simp [numBufs])
    (show 0 < 100000 by decide) ⟨6, rfl⟩
    (fun _ => sampleBufs_mallocs _ (by decide) (by decide)) (by decide) with ⟨heap, _, reached⟩
  rcases reachable_allocate sampleBufs_sane reached (by simp [numBufs])
    (show 0 < 100 by decide) ⟨3, rfl⟩ (pooled rfl) (by decide) with ⟨first, _, reached⟩
  rcases reachable_allocate sampleBufs_sane reached (by simp [numBufs])
    (show 0 < 5000 by decide) ⟨4, rfl⟩ (pooled rfl) (by decide) with ⟨second, _, reached⟩
  rcases reachable_allocate sampleBufs_sane reached (by simp [numBufs])
    (show 0 < 20000 by decide) ⟨5, rfl⟩ (pooled rfl) (by decide) with ⟨third, before, reached⟩
  let live : List Lease :=
    [⟨heap, 100000, 64⟩, ⟨first, 100, 8⟩, ⟨second, 5000, 16⟩, ⟨third, 20000, 32⟩]
  have held : (bufMachine (boundedQueue ℕ) sampleBufs).Reachable
      (fun state => BufAction.Allowed sampleBufs state.2) (before, live) := reached
  have member : ⟨first, 100, 8⟩ ∈ live := by simp [live]
  rcases reachable_dispose sampleBufs_sane held member with ⟨after, disposed, kept⟩
  have apart : (live.map Lease.ptr).Nodup := (reachable_bufsOk sampleBufs_sane held).ptrs
  have rest : (live.filter fun other => other.ptr ≠ first) =
      [⟨heap, 100000, 64⟩, ⟨second, 5000, 16⟩, ⟨third, 20000, 32⟩] := by
    simp only [live, List.map_cons, List.map_nil, List.nodup_cons, List.mem_cons, not_or] at apart
    simp [live, apart.1.1, Ne.symm apart.2.1.1, Ne.symm apart.2.1.2.1]
  refine ⟨(before, live), (after, live.filter fun other => other.ptr ≠ first), first, ?_,
    (fixedBufManager_sound sampleBufs_sane kept).1, disposed, ?_⟩
  · rw [rest]
    rfl
  · rintro id entry rfl
    exact (fixedBufManager_sound sampleBufs_sane held).2 id entry ⟨_, member, rfl⟩ _ _ disposed
      (.refl _)

end Sound

end Hermes
