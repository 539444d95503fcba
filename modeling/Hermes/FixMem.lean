import Hermes.Layout

/-!
# The buffer manager

Clients get their message buffers from `FixedBufManager`: small ones from three pools
of fixed size buffers, the others from the heap.  The pointer a client gets is that of
a descriptor, which finds its data by pointer arithmetic: the buffers of a pool from
their place in the array `m_body`, a heap buffer from its size, because it stands
right behind its data.

`bufMachine` is the manager with the buffers its clients have not disposed of yet.
Large pages and `_aligned_malloc` belong to the environment.
-/

namespace Hermes

/-- The three pools; `SmallBufferPool` is a template, so each has its own type of buffers. -/
inductive PoolId where
  | sPool
  | mPool
  | bPool
  deriving DecidableEq, Repr

/-- `BUF_SIZE`. -/
def PoolId.bufSize : PoolId → ℕ
  | sPool => 2 * kibi
  | mPool => 8 * kibi
  | bPool => 32 * kibi

/-- `NUM_BUFS`, the same for the three pools. -/
def numBufs : ℕ := 1024

/-- `SmallBuffer`.  A descriptor points to its pool once the pool is constructed. -/
structure SmallBuffer where
  pPool : Option PoolId := none
  size : ℕ := 0
  offset : ℕ := 0
  deriving DecidableEq, Repr

/-- `SmallBufferPool`: `body` is the address of the array `m_body`, whose buffers go by their
addresses, and `entrySize` is the size of one. -/
structure SmallBufferPool (queue : CircularQue ℕ) where
  this : PoolId
  body : ℕ
  entrySize : ℕ
  memory : Span
  mBody : ℕ → SmallBuffer
  mFree : queue.Que

/-- A `HeapBuffer`. -/
structure HeapBuffer where
  blobSize : ℕ
  offset : ℕ
  deriving DecidableEq, Repr

/-- A `DisposableBuffer` pointer: the address, and what is there. -/
inductive BufPtr where
  | small (id : PoolId) (ptr : ℕ)
  | heap (ptr : ℕ)
  deriving DecidableEq, Repr

/-- What the environment provides: the addresses of the arrays, the sizes the compiler gives the
descriptors, and the large pages. -/
structure BufSetup where
  body : PoolId → ℕ
  entrySize : ℕ
  heapBufferSize : ℕ
  granularity : ℕ
  pages : PoolId → ℕ

namespace BufSetup

variable (setup : BufSetup)

/-- The memory `LargePageBuffer` allocates for a pool. -/
def memory (id : PoolId) : Span :=
  ⟨setup.pages id, allocatedSize id.bufSize numBufs setup.granularity⟩

/-- `&m_body[index]`. -/
def entry (id : PoolId) (index : ℕ) : ℕ := setup.body id + index * setup.entrySize

/-- The pools' pages share no byte, and pages begin at multiples of 64 KiB. -/
structure Sane : Prop where
  entrySize : 0 < setup.entrySize
  heapBufferSize : 0 < setup.heapBufferSize
  aligned : ∀ id, 64 * kibi ∣ setup.pages id
  apart : ∀ id id', id ≠ id' → Disjoint (setup.memory id).bytes (setup.memory id').bytes

end BufSetup

namespace SmallBufferPool

variable {queue : CircularQue ℕ} (pool : SmallBufferPool queue)

/-- `pBuf - m_body`. -/
def indexOf (pBuf : ℕ) : ℤ := ((pBuf : ℤ) - pool.body) / pool.entrySize

/-- `GetData`. -/
def getData (pBuf : ℕ) : Except Abort ℕ := do
  auditAssert ((pool.mBody pBuf).size ≠ 0) "Access Released Buffer!"
  let index := pool.indexOf pBuf
  auditAssert (index < queue.getCapacity pool.mFree) "Buffer released to wrong pool!"
  if index < 0 then .error .bounds
  else pool.memory.at (index.toNat * pool.this.bufSize)

/-- `Release`: what `m_free.Add` returns is not looked at. -/
def release (pBuf : ℕ) : Except Abort (SmallBufferPool queue) := do
  auditAssert ((pool.mBody pBuf).size ≠ 0) "Double buffer release detected!"
  let mBody := Function.update pool.mBody pBuf
    { pool.mBody pBuf with size := 0, offset := 0 }
  let index := pool.indexOf pBuf
  auditAssert ((pool.body : ℤ) + index * pool.entrySize = pBuf)
    "Internal error in pointer arithmetic."
  auditAssert (index < queue.getCapacity pool.mFree) "Buffer released to wrong pool!"
  match queue.add pool.mFree (index % 2 ^ 32).toNat with
  | some mFree => return { pool with mBody, mFree }
  | none => return { pool with mBody }

/-- `SmallBufferPool::Allocate`. -/
def allocate (dataBlobSize alignment offset : ℕ) : Except Abort (ℕ × SmallBufferPool queue) := do
  auditAssert (dataBlobSize > 0) "Can not allocate empty buffer."
  auditAssert (dataBlobSize ≤ pool.this.bufSize) "Allocation buffer size too big."
  auditAssert (alignment ≤ pool.this.bufSize ∧ alignment &&& (alignment - 1) = 0)
    "Buffer aligenment requirement can not be met!"
  match queue.get pool.mFree with
  | none => .error (.assert "Small Buffer Pool empty.")
  | some (index, mFree) =>
      let pBuf := pool.body + index * pool.entrySize
      let mBody := Function.update pool.mBody pBuf
        { pool.mBody pBuf with offset, size := dataBlobSize }
      return (pBuf, { pool with mBody, mFree })

/-- One round of the constructor's loop. -/
def addBuffer (index : ℕ) : SmallBufferPool queue :=
  let pBuf := pool.body + index * pool.entrySize
  { pool with
    mBody := Function.update pool.mBody pBuf { pool.mBody pBuf with pPool := some pool.this }
    mFree := (queue.add pool.mFree index).getD pool.mFree }

/-- `SmallBufferPool::SmallBufferPool`. -/
def construct (queue : CircularQue ℕ) (setup : BufSetup) (id : PoolId) :
    Except Abort (SmallBufferPool queue) := do
  let allocated := setup.memory id
  let actualCount := wrap32 (allocated.size / id.bufSize)
  auditAssert (actualCount = numBufs) "Ill formed large page size for buffer pool"
  let blank : SmallBufferPool queue :=
    { this := id
      body := setup.body id
      entrySize := setup.entrySize
      memory := allocated
      mBody := fun _ => {}
      mFree := queue.make numBufs }
  return (List.range numBufs).foldl addBuffer blank

end SmallBufferPool

/-- `FixedBufManager`, with the heap buffers by their addresses. -/
structure FixedBufManager (queue : CircularQue ℕ) where
  pools : PoolId → SmallBufferPool queue
  heap : ℕ → Option HeapBuffer

namespace FixedBufManager

variable {queue : CircularQue ℕ} (manager : FixedBufManager queue)

/-- The pool `Allocate` turns to, if not to the heap. -/
def choose (size alignment : ℕ) : Option PoolId :=
  if size ≤ PoolId.sPool.bufSize ∧ alignment ≤ PoolId.sPool.bufSize then some .sPool
  else if size ≤ PoolId.mPool.bufSize ∧ alignment ≤ PoolId.mPool.bufSize then some .mPool
  else if size ≤ PoolId.bPool.bufSize ∧ alignment ≤ PoolId.bPool.bufSize then some .bPool
  else none

/-- `HeapBuffer::Allocate`, where `_aligned_malloc` returns `buf`. -/
def heapAllocate (dataBlobSize alignment offset buf : ℕ) :
    Except Abort (BufPtr × FixedBufManager queue) := do
  auditAssert (isPower2 alignment) "Alignment must be a power of 2"
  auditAssert (buf ≠ 0) "can not allocate memory from heap!"
  let ret := buf + dataBlobSize
  return (.heap ret,
    { manager with heap := Function.update manager.heap ret (some ⟨dataBlobSize, offset⟩) })

/-- `FixedBufManager::Allocate`. -/
def allocate (size alignment offset buf : ℕ) : Except Abort (BufPtr × FixedBufManager queue) :=
  match choose size alignment with
  | some id => do
      let (ptr, pool) ← (manager.pools id).allocate size alignment offset
      return (.small id ptr, { manager with pools := Function.update manager.pools id pool })
  | none => manager.heapAllocate size alignment offset buf

/-- `Dispose`. -/
def dispose : BufPtr → Except Abort (FixedBufManager queue)
  | .small id ptr =>
      match ((manager.pools id).mBody ptr).pPool with
      | none => .error (.undefined "Dispose")
      | some pPool => do
          let pool ← (manager.pools pPool).release ptr
          return { manager with pools := Function.update manager.pools pPool pool }
  | .heap ptr =>
      match manager.heap ptr with
      | none => .error (.undefined "Dispose")
      | some _ => return { manager with heap := Function.update manager.heap ptr none }

/-- `PStart`. -/
def pStart : BufPtr → Except Abort ℕ
  | .small id ptr =>
      match ((manager.pools id).mBody ptr).pPool with
      | none => .error (.undefined "PStart")
      | some pPool => (manager.pools pPool).getData ptr
  | .heap ptr =>
      match manager.heap ptr with
      | none => .error (.undefined "PStart")
      | some buffer => return ptr - buffer.blobSize

/-- `Size`. -/
def size : BufPtr → Except Abort ℕ
  | .small id ptr => return ((manager.pools id).mBody ptr).size
  | .heap ptr =>
      match manager.heap ptr with
      | none => .error (.undefined "Size")
      | some buffer => return buffer.blobSize

end FixedBufManager

/-- The three pools of a manager. -/
def fixedPools {queue : CircularQue ℕ} (sPool mPool bPool : SmallBufferPool queue) :
    PoolId → SmallBufferPool queue
  | .sPool => sPool
  | .mPool => mPool
  | .bPool => bPool

/-- `FixedBufManagerFactory`. -/
def fixedBufManagerFactory (queue : CircularQue ℕ) (setup : BufSetup) :
    Except Abort (FixedBufManager queue) := do
  let sPool ← SmallBufferPool.construct queue setup .sPool
  let mPool ← SmallBufferPool.construct queue setup .mPool
  let bPool ← SmallBufferPool.construct queue setup .bPool
  return { pools := fixedPools sPool mPool bPool, heap := fun _ => none }

/-- A buffer a client has not disposed of, with what it asked for. -/
structure Lease where
  ptr : BufPtr
  size : ℕ
  alignment : ℕ
  deriving DecidableEq, Repr

/-- What clients do; `buf` is what `_aligned_malloc` would return. -/
inductive BufAction where
  | allocate (size alignment offset buf : ℕ)
  | dispose (ptr : BufPtr)

/-- The manager with the live buffers. -/
def bufMachine (queue : CircularQue ℕ) (setup : BufSetup) :
    Machine (FixedBufManager queue × List Lease) BufAction Abort where
  start state := fixedBufManagerFactory queue setup = .ok state.1 ∧ state.2 = []
  step state
    | .allocate size alignment offset buf => do
        let (ptr, manager) ← state.1.allocate size alignment offset buf
        return (manager, state.2 ++ [⟨ptr, size, alignment⟩])
    | .dispose ptr => do
        let manager ← state.1.dispose ptr
        return (manager, state.2.filter fun lease => lease.ptr ≠ ptr)

/-- The memory a heap buffer was allocated with: its data and the descriptor behind it. -/
def Lease.block (setup : BufSetup) (lease : Lease) : Option Span :=
  match lease.ptr with
  | .small _ _ => none
  | .heap ptr => some ⟨ptr - lease.size, lease.size + setup.heapBufferSize⟩

/-- What `_aligned_malloc` promises of the memory it returns. -/
structure Mallocs (setup : BufSetup) (live : List Lease) (alignment : ℕ) (block : Span) :
    Prop where
  aligned : alignment ∣ block.data
  pages : ∀ id, Disjoint block.bytes (setup.memory id).bytes
  blocks : ∀ lease ∈ live, ∀ other, lease.block setup = some other →
    Disjoint block.bytes other.bytes

/-- Clients ask for at least one byte, aligned to a power of two, and dispose of live buffers. -/
def BufAction.Allowed (setup : BufSetup) (live : List Lease) : BufAction → Prop
  | .allocate size alignment _ buf => 0 < size ∧ (∃ exponent, alignment = 2 ^ exponent) ∧
      (FixedBufManager.choose size alignment = none →
        Mallocs setup live alignment ⟨buf, size + setup.heapBufferSize⟩)
  | .dispose ptr => ∃ lease ∈ live, lease.ptr = ptr

end Hermes
