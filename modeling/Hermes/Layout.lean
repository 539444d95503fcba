import Hermes.HostSetup
import Mathlib.Data.Nat.Bitwise
import Mathlib.Data.Set.Disjoint

/-!
# The layout of the memory

`SliceNregister` cuts the pages into the rings, the terminal table and the socket
table.  The products of the two arguments are computed with 32 bits.  Where they fit,
the construction succeeds and the parts are disjoint; where they do not, all of them
are zero and the first pair of rings is already out of bounds.
-/

namespace Hermes

section Rounding

theorem testBit_high (exponent bits : ℕ) (small : exponent ≤ bits) (index : ℕ) :
    (2 ^ bits - 2 ^ exponent).testBit index =
    (decide (index < bits) && decide (exponent ≤ index)) := by
  have below : 2 ^ exponent - 1 < 2 ^ bits := by
    have := Nat.pow_le_pow_right (n := 2) (by decide) small
    have := Nat.two_pow_pos exponent
    omega
  have same : 2 ^ bits - 2 ^ exponent = 2 ^ bits - (2 ^ exponent - 1 + 1) := by
    have := Nat.two_pow_pos exponent
    omega
  rw [same, Nat.testBit_two_pow_sub_succ below, Nat.testBit_two_pow_sub_one]
  by_cases low : exponent ≤ index
  · simp [low]
  · simp [low]
    omega

/-- Masking off the low bits rounds down. -/
theorem and_high {value bits exponent : ℕ} (small : exponent ≤ bits) (fits : value < 2 ^ bits) :
    value &&& (2 ^ bits - 2 ^ exponent) = value / 2 ^ exponent * 2 ^ exponent := by
  apply Nat.eq_of_testBit_eq
  intro index
  rw [Nat.testBit_and, testBit_high exponent bits small, ← Nat.shiftLeft_eq, Nat.testBit_shiftLeft,
    ← Nat.shiftRight_eq_div_pow, Nat.testBit_shiftRight]
  by_cases low : exponent ≤ index
  · by_cases high : index < bits
    · simp [low, high]
    · have zero : value.testBit index = false := by
        apply Nat.testBit_lt_two_pow
        exact lt_of_lt_of_le fits (Nat.pow_le_pow_right (by decide) (by omega))
      simp [low, high, zero]
  · simp [low]

/-- The size allocated is the smallest multiple of the granularity that is enough. -/
theorem allocatedSize_eq {oneBufferSize bufferCount exponent : ℕ} (small : exponent ≤ 63)
    (fits : oneBufferSize * bufferCount + 2 ^ exponent ≤ 2 ^ 64) :
    allocatedSize oneBufferSize bufferCount (2 ^ exponent) =
      (oneBufferSize * bufferCount + 2 ^ exponent - 1) / 2 ^ exponent * 2 ^ exponent := by
  have positive := Nat.two_pow_pos exponent
  have below : oneBufferSize * bufferCount + 2 ^ exponent - 1 < 2 ^ 64 := by omega
  rw [allocatedSize, sizeLimit, Nat.mod_eq_of_lt below, and_high (by omega) below]

/-- Rounding up loses nothing. -/
theorem le_roundUp (size exponent : ℕ) :
    size ≤ (size + 2 ^ exponent - 1) / 2 ^ exponent * 2 ^ exponent := by
  have positive := Nat.two_pow_pos exponent
  have parts := Nat.div_add_mod' (size + 2 ^ exponent - 1) (2 ^ exponent)
  have low := Nat.mod_lt (size + 2 ^ exponent - 1) positive
  omega

/-- Beside a power of two, rounding leaves room for a half granule. -/
theorem roundUp_slack {power rest exponent : ℕ} (extra : 0 < rest) :
    2 ^ power + 2 ^ (exponent - 1) ≤
      (2 ^ power + rest + 2 ^ exponent - 1) / 2 ^ exponent * 2 ^ exponent := by
  have positive := Nat.two_pow_pos exponent
  have half : 2 ^ (exponent - 1) ≤ 2 ^ exponent := Nat.pow_le_pow_right (by decide) (by omega)
  rcases Nat.lt_or_ge power exponent with less | more
  · -- one granule holds the power of two twice
    have twice : 2 ^ power ≤ 2 ^ (exponent - 1) := Nat.pow_le_pow_right (by decide) (by omega)
    have double : 2 ^ (exponent - 1) + 2 ^ (exponent - 1) = 2 ^ exponent := by
      rw [← Nat.two_mul, ← Nat.pow_succ']
      congr 1
      omega
    have enough : 2 ^ exponent ≤ 2 ^ power + rest + 2 ^ exponent - 1 := by
      have := Nat.two_pow_pos power
      omega
    have one := (Nat.one_le_div_iff positive).mpr enough
    have granule := Nat.mul_le_mul_right (2 ^ exponent) one
    rw [Nat.one_mul] at granule
    exact le_trans (by omega) granule
  · -- the power of two is a number of whole granules
    have granules : 2 ^ power = 2 ^ (power - exponent) * 2 ^ exponent := by
      rw [← Nat.pow_add]
      congr 1
      omega
    have next : 2 ^ (power - exponent) + 1 ≤
        (2 ^ power + rest + 2 ^ exponent - 1) / 2 ^ exponent := by
      rw [Nat.le_div_iff_mul_le positive, Nat.add_mul, ← granules]
      omega
    have granule := Nat.mul_le_mul_right (2 ^ exponent) next
    rw [Nat.add_mul, ← granules, Nat.one_mul] at granule
    exact le_trans (by omega) granule

end Rounding

section Arguments

/-- The arguments the factory admits. -/
structure Setup.Admitted (setup : Setup) (sizes counts : ℕ) : Prop where
  conBufSize : setup.conBufSize = 2 ^ sizes
  maxConnections : setup.maxConnections = 2 ^ counts
  sizesLow : 13 ≤ sizes
  sizesHigh : sizes ≤ 23
  countsHigh : counts ≤ 16

/-- A platform: the granularity of large pages is a power of two of at least 2 MiB, and the records
of the tables are small. -/
structure Setup.Platform (setup : Setup) (exponent : ℕ) : Prop where
  granularity : setup.granularity = 2 ^ exponent
  granularityLow : 21 ≤ exponent
  granularityHigh : exponent ≤ 63
  terminalSize : 0 < setup.terminalSize
  terminalSmall : setup.terminalSize ≤ 1024
  socketSize : 0 < setup.socketSize
  socketSmall : setup.socketSize ≤ 1024

theorem factoryChecks_ok {setup : Setup}
    (checks : factoryChecks setup.conBufSize setup.maxConnections = .ok ()) :
    ∃ sizes counts, setup.Admitted sizes counts := by
  simp only [factoryChecks, bind_eq_ok, auditAssert_eq_ok, isPower2_iff, exists_const] at checks
  rcases checks with ⟨⟨high, low⟩, ⟨sizes, conBufSize⟩, few, counts, maxConnections⟩
  refine ⟨sizes, counts, conBufSize, maxConnections, ?_, ?_, ?_⟩
  · by_contra less
    have := Nat.pow_le_pow_right (n := 2) (by decide) (show sizes ≤ 12 by omega)
    simp only [kibi] at low
    omega
  · by_contra more
    have := Nat.pow_le_pow_right (n := 2) (by decide) (show 24 ≤ sizes by omega)
    simp only [mebi] at high
    omega
  · by_contra more
    have := Nat.pow_le_pow_right (n := 2) (by decide) (show 17 ≤ counts by omega)
    simp only [kibi] at few
    omega

namespace Setup.Admitted

variable {setup : Setup} {sizes counts : ℕ}

theorem bufSize (admitted : setup.Admitted sizes counts) :
    setup.config.bufSize = 2 ^ (sizes - 1) ∧ setup.config.bufSize * 2 = setup.conBufSize := by
  have low := admitted.sizesLow
  have high := admitted.sizesHigh
  have half : setup.conBufSize >>> 1 = 2 ^ (sizes - 1) := by
    rw [admitted.conBufSize, Nat.shiftRight_eq_div_pow, Nat.pow_div (by omega) (by decide)]
  have small : 2 ^ (sizes - 1) < 2 ^ 32 := Nat.pow_lt_pow_right (by decide) (by omega)
  have value : setup.config.bufSize = 2 ^ (sizes - 1) := by
    rw [Setup.config, half, wrap32, Nat.mod_eq_of_lt small]
  refine ⟨value, ?_⟩
  rw [value, admitted.conBufSize, ← Nat.pow_succ]
  congr 1
  omega

theorem product (admitted : setup.Admitted sizes counts) :
    setup.config.maxConnection * setup.config.bufSize * 2 = 2 ^ (sizes + counts) ∧
      setup.conBufSize * setup.maxConnections = 2 ^ (sizes + counts) := by
  have both : setup.conBufSize * setup.maxConnections = 2 ^ (sizes + counts) := by
    rw [admitted.conBufSize, admitted.maxConnections, Nat.pow_add]
  refine ⟨?_, both⟩
  rw [Nat.mul_assoc, admitted.bufSize.2, ← both, Nat.mul_comm]
  rfl

end Setup.Admitted

end Arguments

section Queues

variable {queue : CircularQue ℕ}

/-- Items are added in order as long as there is room. -/
theorem addAll_ok {que : queue.Que} {text : String} {items : List ℕ}
    (room : (queue.items que).length + items.length ≤ queue.getCapacity que) :
    ∃ que', addAll que text items = .ok que' ∧ queue.items que' = queue.items que ++ items ∧
      queue.getCapacity que' = queue.getCapacity que := by
  induction items generalizing que with
  | nil => exact ⟨que, rfl, by simp, rfl⟩
  | cons item items ih =>
      rw [List.length_cons] at room
      have space : (queue.items que).length < queue.getCapacity que := by omega
      rcases queue.add_room space item with ⟨next, added, held, capacity⟩
      have more : (queue.items next).length + items.length ≤ queue.getCapacity next := by
        rw [held, capacity, List.length_append, List.length_singleton]
        omega
      rcases ih more with ⟨que', rest, all, same⟩
      refine ⟨que', ?_, ?_, same.trans capacity⟩
      · rw [addAll, added]
        exact rest
      · rw [all, held, List.append_assoc, List.singleton_append]

/-- The pool of overlapped objects is full at the start. -/
theorem objectPool_ok (queue : CircularQue ℕ) :
    ∃ pool, objectPool queue kibi = .ok pool ∧ queue.items pool = List.range kibi ∧
      queue.getCapacity pool = kibi := by
  have capacity : queue.getCapacity (queue.make kibi) = kibi := queue.capacity_make 10
  have room : (queue.items (queue.make kibi)).length + (List.range kibi).length ≤
      queue.getCapacity (queue.make kibi) := by
    rw [queue.items_make, capacity, List.length_range, List.length_nil, Nat.zero_add]
  rcases addAll_ok room with ⟨pool, added, items, same⟩
  refine ⟨pool, ?_, ?_, same.trans capacity⟩
  · rw [objectPool, capacity]
    exact added
  · rw [items, queue.items_make, List.nil_append]

end Queues

namespace Host

variable {queue : CircularQue ℕ} {config : HostConfig} {host host' : Host queue}

section Rings

theorem audit_eq_ok {condition : Prop} [Decidable condition] {text : String} {done : PUnit} :
    audit condition text host = .ok (done, host') ↔ condition ∧ host' = host := by
  by_cases holds : condition
  · simp [audit, holds, eq_comm]
  · simp [audit, holds]

theorem subspan_eq_ok {span part : Span} {offset count : ℕ} :
    subspan span offset count host = .ok (part, host') ↔
      offset + count ≤ span.size ∧ part = ⟨span.data + offset, count⟩ ∧ host' = host := by
  by_cases inside : offset + count ≤ span.size
  · simp [subspan, Span.subspan, inside, eq_comm]
  · simp [subspan, Span.subspan, inside]

/-- The rings of all connections lie in the buffers, and their offsets need no more than 32 bits. -/
structure RingsFit (config : HostConfig) (host : Host queue) : Prop where
  small : config.maxConnection * config.bufSize * 2 < 2 ^ 32
  size : host.buffers.size = config.maxConnection * config.bufSize * 2

/-- The offset of a pair of rings, and its end. -/
theorem RingsFit.offset (fit : RingsFit config host) {conId : ℕ} (low : 1 ≤ conId)
    (high : conId ≤ config.maxConnection) :
    (conId - 1) * config.bufSize * 2 + config.bufSize * 2 ≤ host.buffers.size ∧
      wrap32 ((conId - 1) * config.bufSize * 2) = (conId - 1) * config.bufSize * 2 ∧
      wrap32 ((conId - 1) * config.bufSize * 2 + config.bufSize) =
        (conId - 1) * config.bufSize * 2 + config.bufSize ∧
      wrap32 (config.bufSize * 2) = config.bufSize * 2 := by
  have small := fit.small
  have next : (conId - 1) * config.bufSize * 2 + config.bufSize * 2 =
      (conId - 1 + 1) * config.bufSize * 2 := by ring
  have inside : (conId - 1 + 1) * config.bufSize * 2 ≤
      config.maxConnection * config.bufSize * 2 :=
    Nat.mul_le_mul_right _ (Nat.mul_le_mul_right _ (by omega))
  rw [← next] at inside
  refine ⟨?_, ?_, ?_, ?_⟩
  · rw [fit.size]
    exact inside
  all_goals
    apply Nat.mod_eq_of_lt
    omega

theorem checkConId_eq {conId : ℕ} (low : 1 ≤ conId) (high : conId ≤ config.maxConnection) :
    checkConId config conId host = .ok (⟨⟩, host) :=
  audit_eq_ok.mpr ⟨⟨low, high⟩, rfl⟩

theorem getBufPair_eq (fit : RingsFit config host) {conId : ℕ} (low : 1 ≤ conId)
    (high : conId ≤ config.maxConnection) :
    getBufPair config conId host = .ok
      (⟨host.buffers.data + (conId - 1) * config.bufSize * 2, config.bufSize * 2⟩, host) := by
  rcases fit.offset low high with ⟨inside, offset, _, size⟩
  rw [getBufPair, Program.apply_bind (checkConId_eq low high),
    Program.apply_bind Program.apply_get, offset, size]
  exact subspan_eq_ok.mpr ⟨inside, rfl, rfl⟩

theorem getRcvBuf_eq (fit : RingsFit config host) {conId : ℕ} (low : 1 ≤ conId)
    (high : conId ≤ config.maxConnection) :
    getRcvBuf config conId host = .ok
      (⟨host.buffers.data + (conId - 1) * config.bufSize * 2, config.bufSize⟩, host) := by
  rcases fit.offset low high with ⟨inside, offset, _, _⟩
  rw [getRcvBuf, Program.apply_bind (checkConId_eq low high),
    Program.apply_bind Program.apply_get, offset]
  exact subspan_eq_ok.mpr ⟨by omega, rfl, rfl⟩

theorem getSndBuf_eq (fit : RingsFit config host) {conId : ℕ} (low : 1 ≤ conId)
    (high : conId ≤ config.maxConnection) :
    getSndBuf config conId host = .ok
      (⟨host.buffers.data + ((conId - 1) * config.bufSize * 2 + config.bufSize),
        config.bufSize⟩, host) := by
  rcases fit.offset low high with ⟨inside, _, offset, _⟩
  rw [getSndBuf, Program.apply_bind (checkConId_eq low high),
    Program.apply_bind Program.apply_get, offset]
  exact subspan_eq_ok.mpr ⟨by omega, rfl, rfl⟩

theorem getTerminal_eq {conId : ℕ} (low : 1 ≤ conId) (high : conId ≤ config.maxConnection) :
    getTerminal config conId host = .ok (host.connections conId, host) := by
  rw [getTerminal, Program.apply_bind (checkConId_eq low high)]
  rfl

end Rings

section Slicing

/-- The handle a slot has at the start. -/
def firstHandle (id : ℕ) : UInt64 := UInt64.ofNat (2 ^ 32 ||| id)

/-- What `AddConnection` and the two `AddSocket` of a round change. -/
structure Enrolled (host host' : Host queue) (conIds sockIds : List ℕ) : Prop where
  rest : host' = { host with
    sockTbl := host'.sockTbl, connPool := host'.connPool, sockPool := host'.sockPool }
  connItems : queue.items host'.connPool = queue.items host.connPool ++ conIds
  connCapacity : queue.getCapacity host'.connPool = queue.getCapacity host.connPool
  sockItems : queue.items host'.sockPool = queue.items host.sockPool ++ sockIds
  sockCapacity : queue.getCapacity host'.sockPool = queue.getCapacity host.sockPool
  sockTbl : ∀ id, host'.sockTbl id =
    if id ∈ sockIds then { host.sockTbl id with handle := firstHandle id } else host.sockTbl id

theorem Enrolled.trans {first second third : Host queue} {conIds conIds' sockIds sockIds' : List ℕ}
    (before : Enrolled first second conIds sockIds)
    (after : Enrolled second third conIds' sockIds') :
    Enrolled first third (conIds ++ conIds') (sockIds ++ sockIds') where
  rest := by
    have middle := before.rest
    have last := after.rest
    rw [middle] at last
    exact last
  connItems := by rw [after.connItems, before.connItems, List.append_assoc]
  connCapacity := after.connCapacity.trans before.connCapacity
  sockItems := by rw [after.sockItems, before.sockItems, List.append_assoc]
  sockCapacity := after.sockCapacity.trans before.sockCapacity
  sockTbl := by
    intro id
    rw [after.sockTbl, before.sockTbl]
    by_cases first : id ∈ sockIds <;> by_cases second : id ∈ sockIds' <;> simp [first, second]

theorem addConnection_ok (conId : ℕ)
    (room : (queue.items host.connPool).length < queue.getCapacity host.connPool) :
    ∃ host', addConnection conId host = .ok (⟨⟩, host') ∧ Enrolled host host' [conId] [] := by
  rcases queue.add_room room conId with ⟨connPool, added, items, capacity⟩
  refine ⟨{ host with connPool }, ?_, rfl, items, capacity, (List.append_nil _).symm, rfl, ?_⟩
  · rw [addConnection, Program.apply_bind Program.apply_get]
    simp only [added, Program.apply_set]
  · intro id
    rw [if_neg List.not_mem_nil]

theorem addSocket_ok {id : ℕ} (low : 1 ≤ id) (high : id ≤ queue.getCapacity host.sockPool)
    (room : (queue.items host.sockPool).length < queue.getCapacity host.sockPool) :
    ∃ host', addSocket id host = .ok (⟨⟩, host') ∧ Enrolled host host' [] [id] := by
  rcases queue.add_room room id with ⟨sockPool, added, items, capacity⟩
  have found : host.getSocket id = some id := if_pos ⟨low, high⟩
  refine ⟨{ host with
      sockPool
      sockTbl := Function.update host.sockTbl id
        { host.sockTbl id with handle := firstHandle id } }, ?_, rfl,
    (List.append_nil _).symm, rfl, items, capacity, ?_⟩
  · rw [addSocket, Program.apply_bind Program.apply_get]
    simp only [added]
    rw [Program.apply_bind (Program.apply_set _), found]
    rfl
  · intro other
    by_cases same : other = id
    · subst same
      simp
    · simp [same]

/-- One round of the loop. -/
theorem sliceLoop_round {done : ℕ} (rounds : ℕ) (fit : RingsFit config host)
    (few : 2 * config.maxConnection < 2 ^ 32) (blank : host.connections = fun _ => {})
    (connCapacity : queue.getCapacity host.connPool = config.maxConnection)
    (sockCapacity : queue.getCapacity host.sockPool = 2 * config.maxConnection)
    (connLength : (queue.items host.connPool).length = done)
    (sockLength : (queue.items host.sockPool).length = 2 * done)
    (more : done < config.maxConnection) :
    ∃ host', sliceLoop config (rounds + 1) (done + 1) host =
        sliceLoop config rounds (done + 1 + 1) host' ∧
      Enrolled host host' [done + 1] [done + 1, done + 1 + config.maxConnection] := by
  have low : 1 ≤ done + 1 := by omega
  have high : done + 1 ≤ config.maxConnection := by omega
  have second : wrap32 (done + 1 + config.maxConnection) = done + 1 + config.maxConnection :=
    Nat.mod_eq_of_lt (by omega)
  have unchanged : modifyTerminal (done + 1) (fun _ => {}) host = .ok (⟨⟩, host) := by
    have same : Function.update host.connections (done + 1) {} = host.connections := by
      rw [blank]
      exact Function.update_eq_self (f := fun _ => ({} : Terminal)) (done + 1)
    rw [modifyTerminal, Program.apply_modify, same]
  have connRoom : (queue.items host.connPool).length < queue.getCapacity host.connPool := by omega
  rcases addConnection_ok (done + 1) connRoom with ⟨host₁, added₁, conn⟩
  have capacity₁ := conn.sockCapacity
  have length₁ := congrArg List.length conn.sockItems
  rw [List.append_nil] at length₁
  have high₁ : done + 1 ≤ queue.getCapacity host₁.sockPool := by omega
  have room₁ : (queue.items host₁.sockPool).length < queue.getCapacity host₁.sockPool := by omega
  rcases addSocket_ok low high₁ room₁ with ⟨host₂, added₂, sock₂⟩
  have capacity₂ := sock₂.sockCapacity
  have length₂ := congrArg List.length sock₂.sockItems
  rw [List.length_append, List.length_singleton] at length₂
  have low₂ : 1 ≤ done + 1 + config.maxConnection := by omega
  have high₂ : done + 1 + config.maxConnection ≤ queue.getCapacity host₂.sockPool := by omega
  have room₂ : (queue.items host₂.sockPool).length < queue.getCapacity host₂.sockPool := by omega
  rcases addSocket_ok low₂ high₂ room₂ with ⟨host₃, added₃, sock₃⟩
  refine ⟨host₃, ?_, ?_⟩
  · rw [sliceLoop, Program.apply_bind (getBufPair_eq fit low high),
      Program.apply_bind (getTerminal_eq low high), Program.apply_bind unchanged,
      Program.apply_bind added₁, Program.apply_bind added₂, second,
      Program.apply_bind added₃]
  · exact (conn.trans sock₂).trans sock₃

/-- The loop, from any round on. -/
theorem sliceLoop_ok {done rounds : ℕ} (fit : RingsFit config host)
    (few : 2 * config.maxConnection < 2 ^ 32) (blank : host.connections = fun _ => {})
    (connCapacity : queue.getCapacity host.connPool = config.maxConnection)
    (sockCapacity : queue.getCapacity host.sockPool = 2 * config.maxConnection)
    (connLength : (queue.items host.connPool).length = done)
    (sockLength : (queue.items host.sockPool).length = 2 * done)
    (all : done + rounds = config.maxConnection) :
    ∃ host', sliceLoop config rounds (done + 1) host = .ok (⟨⟩, host') ∧
      Enrolled host host' ((List.range' (done + 1) rounds))
        ((List.range' (done + 1) rounds).flatMap fun conId =>
          [conId, conId + config.maxConnection]) := by
  induction rounds generalizing done host with
  | zero =>
      refine ⟨host, rfl, rfl, ?_, rfl, ?_, rfl, ?_⟩
      · rw [List.range'_zero, List.append_nil]
      · rw [List.range'_zero, List.flatMap_nil, List.append_nil]
      · intro id
        rw [List.range'_zero, List.flatMap_nil, if_neg List.not_mem_nil]
  | succ rounds ih =>
      rcases sliceLoop_round rounds fit few blank connCapacity sockCapacity connLength sockLength
        (by omega) with ⟨middle, round, enrolled⟩
      have conns := congrArg List.length enrolled.connItems
      have socks := congrArg List.length enrolled.sockItems
      simp only [List.length_append, List.length_cons, List.length_nil] at conns socks
      have rest := enrolled.rest
      have fit' : RingsFit config middle := by
        rw [rest]
        exact ⟨fit.small, fit.size⟩
      have blank' : middle.connections = fun _ => {} := by
        rw [rest]
        exact blank
      have connLength' : (queue.items middle.connPool).length = done + 1 := by omega
      have sockLength' : (queue.items middle.sockPool).length = 2 * (done + 1) := by omega
      rcases ih fit' blank' (enrolled.connCapacity.trans connCapacity)
        (enrolled.sockCapacity.trans sockCapacity) connLength' sockLength' (by omega) with
        ⟨host', loop, later⟩
      refine ⟨host', round.trans loop, ?_⟩
      have both := enrolled.trans later
      rw [List.range'_succ]
      exact both

/-- The library object after the spans are cut. -/
def cut (config : HostConfig) (host : Host queue) : Host queue :=
  let total := wrap32 (config.maxConnection * config.bufSize * 2)
  { host with
    buffers := ⟨config.memory.data, total⟩
    connectionSpan := ⟨config.memory.data + total, config.maxConnection * config.terminalSize⟩
    sockSpan := ⟨config.memory.data + total + config.maxConnection * config.terminalSize,
      queue.getCapacity host.sockPool * config.socketSize⟩ }

/-- The memory has space for what `SliceNregister` cuts from it. -/
structure Roomy (config : HostConfig) (host : Host queue) : Prop where
  rings : wrap32 (config.maxConnection * config.bufSize * 2) ≤ config.memory.size
  terminals : config.maxConnection <
    (config.memory.size - wrap32 (config.maxConnection * config.bufSize * 2)) / config.terminalSize
  numSockets : queue.getCapacity host.sockPool = wrap32 (config.maxConnection <<< 1)
  table : config.maxConnection * config.terminalSize ≤
    config.memory.size - wrap32 (config.maxConnection * config.bufSize * 2)
  sockets : queue.getCapacity host.sockPool ≤
    (config.memory.size - wrap32 (config.maxConnection * config.bufSize * 2) -
      config.maxConnection * config.terminalSize) / config.socketSize

theorem tailSpan_eq_ok {span part : Span} {offset : ℕ} :
    tailSpan span offset host = .ok (part, host') ↔
      offset ≤ span.size ∧ part = ⟨span.data + offset, span.size - offset⟩ ∧ host' = host := by
  rw [tailSpan, subspan_eq_ok]
  constructor
  · rintro ⟨inside, rfl, rfl⟩
    exact ⟨by omega, rfl, rfl⟩
  · rintro ⟨inside, rfl, rfl⟩
    exact ⟨by omega, rfl, rfl⟩

theorem sliceNregister_eq_ok {done : PUnit} :
    sliceNregister config host = .ok (done, host') ↔
      Roomy config host ∧
        sliceLoop config config.maxConnection 1 (cut config host) = .ok (done, host') := by
  simp only [sliceNregister, Program.bind_eq_ok, subspan_eq_ok, tailSpan_eq_ok, audit_eq_ok,
    Program.apply_get, Program.apply_set, Except.ok.injEq, Prod.mk.injEq]
  constructor
  · rintro ⟨_, _, ⟨rings, rfl, rfl⟩, _, _, ⟨_, rfl, rfl⟩, _, _, ⟨terminals, rfl⟩, _, _,
      ⟨table, rfl, rfl⟩, _, _, ⟨rfl, rfl⟩, _, _, ⟨numSockets, rfl⟩, _, _, ⟨sockets, rfl⟩, _, _,
      ⟨_, rfl⟩, loop⟩
    exact ⟨⟨by omega, terminals, numSockets, table, sockets⟩, loop⟩
  · rintro ⟨roomy, loop⟩
    have rings := roomy.rings
    exact ⟨_, _, ⟨by omega, rfl, rfl⟩, _, _, ⟨rings, rfl, rfl⟩, ⟨⟩, _, ⟨roomy.terminals, rfl⟩, _, _,
      ⟨roomy.table, rfl, rfl⟩, _, _, ⟨rfl, rfl⟩, ⟨⟩, _, ⟨roomy.numSockets, rfl⟩, ⟨⟩, _,
      ⟨roomy.sockets, rfl⟩, ⟨⟩, _, ⟨trivial, rfl⟩, loop⟩

/-- The library object the factory makes. -/
structure Started (config : HostConfig) (host : Host queue) : Prop where
  rest : ∃ overlapPool, queue.items overlapPool = List.range kibi ∧
    queue.getCapacity overlapPool = kibi ∧
    host = { cut config (blank queue config overlapPool) with
      sockTbl := host.sockTbl, connPool := host.connPool, sockPool := host.sockPool }
  fit : RingsFit config host
  connItems : queue.items host.connPool = List.range' 1 config.maxConnection
  connCapacity : queue.getCapacity host.connPool = config.maxConnection
  sockItems : queue.items host.sockPool = (List.range' 1 config.maxConnection).flatMap
    fun conId => [conId, conId + config.maxConnection]
  sockCapacity : queue.getCapacity host.sockPool = 2 * config.maxConnection
  sockTbl : ∀ id, 1 ≤ id → id ≤ 2 * config.maxConnection →
    host.sockTbl id = { handle := firstHandle id }

end Slicing

section Construction

variable {setup : Setup} {sizes counts : ℕ}

theorem construct_eq_ok :
    construct queue config = .ok host ↔ ∃ overlapPool, objectPool queue kibi = .ok overlapPool ∧
      Roomy config (blank queue config overlapPool) ∧
      sliceLoop config config.maxConnection 1 (cut config (blank queue config overlapPool)) =
        .ok (⟨⟩, host) := by
  simp only [construct, bind_eq_ok, runCode_ok]
  constructor
  · rintro ⟨overlapPool, pool, ⟨_, last⟩, sliced, same⟩
    cases same
    exact ⟨overlapPool, pool, sliceNregister_eq_ok.mp sliced⟩
  · rintro ⟨overlapPool, pool, sliced⟩
    exact ⟨overlapPool, pool, ⟨⟨⟩, host⟩, sliceNregister_eq_ok.mpr sliced, rfl⟩

/-- The capacities of the pools of an admitted number of connections. -/
theorem capacity_blank (admitted : setup.Admitted sizes counts) (overlapPool : queue.Que) :
    queue.getCapacity (blank queue setup.config overlapPool).connPool =
        setup.config.maxConnection ∧
      wrap32 (setup.config.maxConnection <<< 1) = 2 * setup.config.maxConnection ∧
      queue.getCapacity (blank queue setup.config overlapPool).sockPool =
        2 * setup.config.maxConnection ∧
      2 * setup.config.maxConnection < 2 ^ 32 := by
  have few := admitted.countsHigh
  have max : setup.config.maxConnection = 2 ^ counts := admitted.maxConnections
  have double : 2 * 2 ^ counts = 2 ^ (counts + 1) := (Nat.pow_succ').symm
  have small : 2 ^ (counts + 1) < 2 ^ 32 := Nat.pow_lt_pow_right (by decide) (by omega)
  have shifted : wrap32 (setup.config.maxConnection <<< 1) = 2 * setup.config.maxConnection := by
    rw [max, Nat.shiftLeft_eq, Nat.pow_one, Nat.mul_comm, wrap32, double, Nat.mod_eq_of_lt small]
  refine ⟨?_, shifted, ?_, ?_⟩
  · rw [blank, max]
    exact queue.capacity_make counts
  · rw [blank, shifted, max, double]
    exact queue.capacity_make (counts + 1)
  · rw [max, double]
    exact small

/-- Where the products fit 32 bits, the loop fills the tables and pools. -/
theorem sliceLoop_started (admitted : setup.Admitted sizes counts) (fits : sizes + counts < 32)
    {overlapPool : queue.Que} (items : queue.items overlapPool = List.range kibi)
    (capacity : queue.getCapacity overlapPool = kibi) :
    ∃ host, sliceLoop setup.config setup.config.maxConnection 1
        (cut setup.config (blank queue setup.config overlapPool)) = .ok (⟨⟩, host) ∧
      Started setup.config host := by
  rcases capacity_blank admitted overlapPool with ⟨connCapacity, _, sockCapacity, few⟩
  have product := admitted.product.1
  have small : 2 ^ (sizes + counts) < 2 ^ 32 := Nat.pow_lt_pow_right (by decide) fits
  have fit : RingsFit setup.config
      (cut setup.config (blank queue setup.config overlapPool)) := by
    refine ⟨by rw [product]; exact small, ?_⟩
    rw [cut, product, wrap32, Nat.mod_eq_of_lt small]
  have connEmpty : queue.items (blank queue setup.config overlapPool).connPool = [] :=
    queue.items_make _
  have sockEmpty : queue.items (blank queue setup.config overlapPool).sockPool = [] :=
    queue.items_make _
  have connLength : (queue.items (cut setup.config
      (blank queue setup.config overlapPool)).connPool).length = 0 := by
    exact congrArg List.length connEmpty
  have sockLength : (queue.items (cut setup.config
      (blank queue setup.config overlapPool)).sockPool).length = 2 * 0 := by
    exact congrArg List.length sockEmpty
  rcases sliceLoop_ok fit few rfl connCapacity sockCapacity connLength sockLength
    (Nat.zero_add _) with ⟨host, loop, enrolled⟩
  refine ⟨host, loop, ⟨overlapPool, items, capacity, enrolled.rest⟩, ?_, ?_,
    enrolled.connCapacity.trans connCapacity, ?_, enrolled.sockCapacity.trans sockCapacity, ?_⟩
  · rw [enrolled.rest]
    exact ⟨fit.small, fit.size⟩
  · have items := enrolled.connItems
    rw [show queue.items (cut setup.config (blank queue setup.config overlapPool)).connPool = []
      from connEmpty] at items
    exact items
  · have items := enrolled.sockItems
    rw [show queue.items (cut setup.config (blank queue setup.config overlapPool)).sockPool = []
      from sockEmpty] at items
    exact items
  · intro id low high
    rw [enrolled.sockTbl, if_pos]
    · rfl
    · rw [List.mem_flatMap]
      rcases Nat.lt_or_ge setup.config.maxConnection id with second | first
      · refine ⟨id - setup.config.maxConnection, ?_, ?_⟩
        · rw [List.mem_range'_1]
          omega
        · rw [List.mem_cons, List.mem_singleton]
          omega
      · refine ⟨id, ?_, List.mem_cons_self⟩
        rw [List.mem_range'_1]
        omega

/-- Where the products do not fit 32 bits, the rings get no space at all. -/
theorem sliceLoop_fails (admitted : setup.Admitted sizes counts) (large : 32 ≤ sizes + counts)
    (overlapPool : queue.Que) {result : PUnit × Host queue} :
    sliceLoop setup.config setup.config.maxConnection 1
      (cut setup.config (blank queue setup.config overlapPool)) ≠ .ok result := by
  intro returned
  have product := admitted.product.1
  have nothing : wrap32 (setup.config.maxConnection * setup.config.bufSize * 2) = 0 := by
    rw [product, wrap32]
    exact Nat.mod_eq_zero_of_dvd (Nat.pow_dvd_pow 2 large)
  have max : setup.config.maxConnection = 2 ^ counts := admitted.maxConnections
  have some := Nat.two_pow_pos counts
  rcases Nat.exists_eq_add_of_lt some with ⟨rounds, more⟩
  rw [Nat.zero_add] at more
  rw [max, more, sliceLoop] at returned
  rcases Program.bind_eq_ok.mp returned with ⟨pair, after, got, _⟩
  rcases Program.bind_eq_ok.mp got with ⟨_, checked, check, got⟩
  rcases Program.bind_eq_ok.mp got with ⟨_, _, here, got⟩
  cases (audit_eq_ok.mp check).2
  cases here
  have inside := (subspan_eq_ok.mp got).1
  have size : wrap32 (setup.config.bufSize * 2) = 2 ^ sizes := by
    rw [admitted.bufSize.2, admitted.conBufSize]
    exact Nat.mod_eq_of_lt
      (Nat.pow_lt_pow_right (by decide) (by have := admitted.sizesHigh; omega))
  have positive := Nat.two_pow_pos sizes
  rw [size] at inside
  simp only [cut, nothing] at inside
  omega

/-- The memory allocated has space for the rings, the sockets, and one terminal more than asked
for. -/
theorem memory_size (admitted : setup.Admitted sizes counts) {exponent : ℕ}
    (platform : setup.Platform exponent) :
    2 ^ (sizes + counts) + setup.maxConnections * setup.terminalSize +
        2 * setup.maxConnections * setup.socketSize ≤ setup.config.memory.size ∧
      2 ^ (sizes + counts) + (setup.maxConnections + 1) * setup.terminalSize ≤
        setup.config.memory.size := by
  have max := admitted.maxConnections
  have few : setup.maxConnections ≤ 2 ^ 16 := by
    rw [max]
    exact Nat.pow_le_pow_right (by decide) admitted.countsHigh
  have rings : 2 ^ (sizes + counts) ≤ 2 ^ 39 :=
    Nat.pow_le_pow_right (by decide)
      (by have := admitted.sizesHigh; have := admitted.countsHigh; omega)
  have granule : 2 ^ exponent ≤ 2 ^ 63 :=
    Nat.pow_le_pow_right (by decide) platform.granularityHigh
  have terminals : setup.maxConnections * setup.terminalSize ≤ 2 ^ 16 * 1024 :=
    Nat.mul_le_mul few platform.terminalSmall
  have sockets : setup.maxConnections * setup.socketSize ≤ 2 ^ 16 * 1024 :=
    Nat.mul_le_mul few platform.socketSmall
  have parts : setup.tSize * setup.maxConnections = 2 ^ (sizes + counts) +
      (setup.maxConnections * setup.terminalSize +
        2 * (setup.maxConnections * setup.socketSize)) := by
    rw [Setup.tSize, ← admitted.product.2]
    ring
  have size : setup.config.memory.size =
      (setup.tSize * setup.maxConnections + 2 ^ exponent - 1) / 2 ^ exponent * 2 ^ exponent := by
    rw [Setup.config, platform.granularity]
    apply allocatedSize_eq platform.granularityHigh
    rw [parts]
    omega
  have enough := le_roundUp (setup.tSize * setup.maxConnections) exponent
  rw [← size, parts] at enough
  have double : 2 * setup.maxConnections * setup.socketSize =
      2 * (setup.maxConnections * setup.socketSize) := Nat.mul_assoc _ _ _
  refine ⟨by omega, ?_⟩
  rw [Nat.add_mul, Nat.one_mul]
  rcases Nat.lt_or_ge (2 * (setup.maxConnections * setup.socketSize)) setup.terminalSize with
    less | more
  · -- few connections: rounding up gives the space of one more terminal
    have positive : 0 < setup.maxConnections := by
      rw [max]
      exact Nat.two_pow_pos counts
    have byOne : setup.maxConnections * 1 ≤ setup.maxConnections * setup.socketSize :=
      Nat.mul_le_mul_left _ platform.socketSize
    have terminalSmall := platform.terminalSmall
    have half : setup.maxConnections * setup.terminalSize ≤ 512 * 1024 :=
      Nat.mul_le_mul (by omega) terminalSmall
    have extra : 0 < setup.maxConnections * setup.terminalSize +
        2 * (setup.maxConnections * setup.socketSize) := by omega
    have slack : 2 ^ (sizes + counts) + 2 ^ (exponent - 1) ≤ setup.config.memory.size := by
      rw [size, parts]
      exact roundUp_slack extra
    have halfGranule : 2 ^ 20 ≤ 2 ^ (exponent - 1) :=
      Nat.pow_le_pow_right (by decide) (by have := platform.granularityLow; omega)
    omega
  · omega

theorem roomy (admitted : setup.Admitted sizes counts) (fits : sizes + counts < 32)
    {exponent : ℕ} (platform : setup.Platform exponent) (overlapPool : queue.Que) :
    Roomy setup.config (blank queue setup.config overlapPool) := by
  rcases capacity_blank admitted overlapPool with ⟨_, shifted, sockCapacity, _⟩
  rcases memory_size admitted platform with ⟨tables, terminals⟩
  have small : 2 ^ (sizes + counts) < 2 ^ 32 := Nat.pow_lt_pow_right (by decide) fits
  have total : wrap32 (setup.config.maxConnection * setup.config.bufSize * 2) =
      2 ^ (sizes + counts) := by
    rw [admitted.product.1]
    exact Nat.mod_eq_of_lt small
  refine ⟨?_, ?_, sockCapacity.trans shifted.symm, ?_, ?_⟩
  · rw [total]
    omega
  · rw [total]
    apply (Nat.le_div_iff_mul_le platform.terminalSize).mpr
    exact Nat.le_sub_of_add_le (by rw [Nat.add_comm]; exact terminals)
  · rw [total]
    exact Nat.le_sub_of_add_le (by rw [Nat.add_comm]; exact le_trans (Nat.le_add_right _ _) tables)
  · rw [total, sockCapacity]
    apply (Nat.le_div_iff_mul_le platform.socketSize).mpr
    apply Nat.le_sub_of_add_le
    apply Nat.le_sub_of_add_le
    rw [Nat.add_comm _ (2 ^ (sizes + counts)), Nat.add_comm (_ * _), ← Nat.add_assoc]
    exact tables

/-- The memory allocated is counted in the buffers asked for, also in 32 bits when a large page is
not absurdly large. -/
theorem allocatedBuffers (admitted : setup.Admitted sizes counts) {exponent : ℕ}
    (platform : setup.Platform exponent) (ordinary : exponent ≤ 40) :
    setup.maxConnections ≤ wrap32 (setup.config.memory.size / setup.tSize) := by
  have few : setup.maxConnections ≤ 2 ^ 16 := by
    rw [admitted.maxConnections]
    exact Nat.pow_le_pow_right (by decide) admitted.countsHigh
  have granule : 2 ^ exponent ≤ 2 ^ 40 := Nat.pow_le_pow_right (by decide) ordinary
  have buffer : 2 ^ 13 ≤ setup.conBufSize ∧ setup.conBufSize ≤ 2 ^ 23 := by
    rw [admitted.conBufSize]
    exact ⟨Nat.pow_le_pow_right (by decide) admitted.sizesLow,
      Nat.pow_le_pow_right (by decide) admitted.sizesHigh⟩
  have low : 2 ^ 13 ≤ setup.tSize := by
    rw [Setup.tSize]
    omega
  have high : setup.tSize ≤ 2 ^ 24 := by
    have := platform.terminalSmall
    have := platform.socketSmall
    rw [Setup.tSize]
    omega
  have total : setup.tSize * setup.maxConnections ≤ 2 ^ 24 * 2 ^ 16 := Nat.mul_le_mul high few
  have size : setup.config.memory.size =
      (setup.tSize * setup.maxConnections + 2 ^ exponent - 1) / 2 ^ exponent * 2 ^ exponent := by
    rw [Setup.config, platform.granularity]
    apply allocatedSize_eq platform.granularityHigh
    omega
  have enough := le_roundUp (setup.tSize * setup.maxConnections) exponent
  rw [← size] at enough
  have bound : setup.config.memory.size ≤ setup.tSize * setup.maxConnections + 2 ^ exponent := by
    rw [size]
    exact le_trans (Nat.div_mul_le_self _ _) (Nat.sub_le _ _)
  have quotient : setup.config.memory.size / setup.tSize < 2 ^ 32 := by
    apply (Nat.div_lt_iff_lt_mul (by omega)).mpr
    have := Nat.mul_le_mul_left (2 ^ 32) low
    omega
  rw [wrap32, Nat.mod_eq_of_lt quotient]
  apply (Nat.le_div_iff_mul_le (by omega)).mpr
  rw [Nat.mul_comm]
  exact enough

/-- The factory makes a library object from all arguments it admits, as long as the rings together
take less than 4 GiB. -/
theorem factory_succeeds (queue : CircularQue ℕ) {exponent : ℕ}
    (platform : setup.Platform exponent) (ordinary : exponent ≤ 40)
    (checks : factoryChecks setup.conBufSize setup.maxConnections = .ok ())
    (fits : setup.conBufSize * setup.maxConnections < 2 ^ 32) :
    ∃ host, hermesFixedRIOFactory queue setup = .ok host := by
  rcases factoryChecks_ok checks with ⟨sizes, counts, admitted⟩
  rw [admitted.product.2, Nat.pow_lt_pow_iff_right (by decide)] at fits
  rcases objectPool_ok queue with ⟨overlapPool, pool, items, capacity⟩
  rcases sliceLoop_started admitted fits items capacity with ⟨host, loop, started⟩
  have room := roomy admitted fits platform overlapPool
  have made : construct queue setup.config = .ok host :=
    construct_eq_ok.mpr ⟨overlapPool, pool, room, loop⟩
  refine ⟨host, ?_⟩
  simp only [hermesFixedRIOFactory, bind_eq_ok, runCode_ok]
  exact ⟨⟨⟩, checks, ⟨⟩, auditAssert_of (allocatedBuffers admitted platform ordinary) _, made⟩

/-- What the factory makes, when it makes a library object. -/
theorem factory_started (made : hermesFixedRIOFactory queue setup = .ok host) :
    ∃ sizes counts, setup.Admitted sizes counts ∧ sizes + counts < 32 ∧
      Started setup.config host := by
  simp only [hermesFixedRIOFactory, bind_eq_ok, runCode_ok] at made
  rcases made with ⟨_, checks, _, _, made⟩
  rcases factoryChecks_ok checks with ⟨sizes, counts, admitted⟩
  rcases construct_eq_ok.mp made with ⟨overlapPool, pool, _, loop⟩
  have fits : sizes + counts < 32 := by
    by_contra large
    exact sliceLoop_fails admitted (Nat.le_of_not_lt large) overlapPool loop
  rcases objectPool_ok queue with ⟨pool', same, items, capacity⟩
  cases pool.symm.trans same
  rcases sliceLoop_started admitted fits items capacity with ⟨host', loop', started⟩
  cases loop.symm.trans loop'
  exact ⟨sizes, counts, admitted, fits, started⟩

end Construction

end Host

/-- Addresses of a span. -/
def Span.bytes (span : Span) : Set ℕ :=
  {address | span.data ≤ address ∧ address < span.data + span.size}

theorem Span.bytes_subset {inner outer : Span} (low : outer.data ≤ inner.data)
    (high : inner.data + inner.size ≤ outer.data + outer.size) : inner.bytes ⊆ outer.bytes := by
  rintro address ⟨above, below⟩
  exact ⟨low.trans above, by omega⟩

theorem Span.bytes_disjoint {first second : Span}
    (before : first.data + first.size ≤ second.data) : Disjoint first.bytes second.bytes := by
  rw [Set.disjoint_left]
  rintro address ⟨_, below⟩ ⟨above, _⟩
  omega

/-- Slot `2 * (conId - 1)` of the buffers is the receive ring of a connection, the next slot its
send ring. -/
def ringSlot (conId : ℕ) (send : Bool) : ℕ := 2 * (conId - 1) + if send then 1 else 0

/-- The rings `GetRcvBuf` and `GetSndBuf` return have their size, lie in the memory, and share no
byte with each other or with the tables, which do not share one either. -/
structure LayoutSafe {queue : CircularQue ℕ} (config : HostConfig) (host : Host queue) : Prop where
  rings : ∃ ring : ℕ → Bool → Span,
    (∀ conId, 1 ≤ conId → conId ≤ config.maxConnection →
      Host.getRcvBuf config conId host = .ok (ring conId false, host) ∧
      Host.getSndBuf config conId host = .ok (ring conId true, host) ∧
      ∀ send, (ring conId send).size = config.bufSize ∧
        (ring conId send).bytes ⊆ config.memory.bytes ∧
        Disjoint (ring conId send).bytes host.connectionSpan.bytes ∧
        Disjoint (ring conId send).bytes host.sockSpan.bytes) ∧
    ∀ first second send send', 1 ≤ first → first ≤ config.maxConnection → 1 ≤ second →
      second ≤ config.maxConnection → (first, send) ≠ (second, send') →
      Disjoint (ring first send).bytes (ring second send').bytes
  connections : host.connectionSpan.size = config.maxConnection * config.terminalSize ∧
    host.connectionSpan.bytes ⊆ config.memory.bytes
  sockets : host.sockSpan.size = 2 * config.maxConnection * config.socketSize ∧
    host.sockSpan.bytes ⊆ config.memory.bytes
  tables : Disjoint host.connectionSpan.bytes host.sockSpan.bytes

section LayoutSafe

variable {queue : CircularQue ℕ} {config : HostConfig} {host : Host queue} {setup : Setup}
  {sizes counts : ℕ}

/-- The ring in a slot of the buffers. -/
def ringAt (config : HostConfig) (host : Host queue) (conId : ℕ) (send : Bool) : Span :=
  ⟨host.buffers.data + ringSlot conId send * config.bufSize, config.bufSize⟩

theorem ringAt_high (fit : Host.RingsFit config host) {conId : ℕ} (send : Bool) (low : 1 ≤ conId)
    (high : conId ≤ config.maxConnection) :
    ringSlot conId send * config.bufSize + config.bufSize ≤ host.buffers.size := by
  have slots : ringSlot conId send + 1 ≤ 2 * config.maxConnection := by
    rw [ringSlot]
    split <;> omega
  have bytes := Nat.mul_le_mul_right config.bufSize slots
  rw [Nat.add_mul, Nat.one_mul] at bytes
  rw [fit.size, Nat.mul_comm _ 2, ← Nat.mul_assoc]
  exact bytes

theorem ringAt_disjoint {first second : ℕ} {send send' : Bool} (low : 1 ≤ first)
    (low' : 1 ≤ second) (different : (first, send) ≠ (second, send')) :
    Disjoint (ringAt config host first send).bytes (ringAt config host second send').bytes := by
  have slots : ringSlot first send ≠ ringSlot second send' := by
    intro same
    apply different
    simp only [ringSlot] at same
    cases send <;> cases send' <;> simp at same ⊢ <;> omega
  have apart : ∀ {left right : ℕ}, left < right →
      left * config.bufSize + config.bufSize ≤ right * config.bufSize := by
    intro left right before
    rw [← Nat.succ_mul]
    exact Nat.mul_le_mul_right _ before
  rcases Nat.lt_or_gt_of_ne slots with before | after
  · apply Span.bytes_disjoint
    have := apart before
    simp only [ringAt]
    omega
  · apply Disjoint.symm
    apply Span.bytes_disjoint
    have := apart after
    simp only [ringAt]
    omega

theorem Host.Started.layoutSafe (started : Host.Started setup.config host)
    (admitted : setup.Admitted sizes counts) (fits : sizes + counts < 32) {exponent : ℕ}
    (platform : setup.Platform exponent) : LayoutSafe setup.config host := by
  rcases started.rest with ⟨overlapPool, _, _, rest⟩
  have fit := started.fit
  have small : 2 ^ (sizes + counts) < 2 ^ 32 := Nat.pow_lt_pow_right (by decide) fits
  have product := admitted.product.1
  have total : wrap32 (setup.config.maxConnection * setup.config.bufSize * 2) =
      2 ^ (sizes + counts) := by
    rw [product]
    exact Nat.mod_eq_of_lt small
  have buffers : host.buffers = ⟨setup.config.memory.data, 2 ^ (sizes + counts)⟩ := by
    rw [rest, Host.cut, total]
  have connections : host.connectionSpan = ⟨setup.config.memory.data + 2 ^ (sizes + counts),
      setup.config.maxConnection * setup.config.terminalSize⟩ := by
    rw [rest, Host.cut, total]
  have sockets : host.sockSpan = ⟨setup.config.memory.data + 2 ^ (sizes + counts) +
      setup.config.maxConnection * setup.config.terminalSize,
      2 * setup.config.maxConnection * setup.config.socketSize⟩ := by
    rw [rest, Host.cut, total, (Host.capacity_blank admitted overlapPool).2.2.1]
  have memory : 2 ^ (sizes + counts) +
      setup.config.maxConnection * setup.config.terminalSize +
      2 * setup.config.maxConnection * setup.config.socketSize ≤ setup.config.memory.size :=
    (Host.memory_size admitted platform).1
  have ringSize : host.buffers.size = 2 ^ (sizes + counts) := by rw [buffers]
  have ringData : host.buffers.data = setup.config.memory.data := by rw [buffers]
  refine
    { rings := ⟨ringAt setup.config host, ?_, fun first second send send' low _ low' _ different =>
        ringAt_disjoint low low' different⟩
      connections := ⟨by rw [connections], ?_⟩
      sockets := ⟨by rw [sockets], ?_⟩
      tables := ?_ }
  · intro conId low high
    refine ⟨?_, ?_, ?_⟩
    · rw [Host.getRcvBuf_eq fit low high, ringAt, ringSlot]
      congr 4
      simp only [Bool.false_eq_true, if_false, Nat.add_zero]
      ring
    · rw [Host.getSndBuf_eq fit low high, ringAt, ringSlot]
      congr 4
      simp only [if_true]
      ring
    · intro send
      have inside := ringAt_high fit send low high
      refine ⟨rfl, ?_, ?_, ?_⟩
      · apply Span.bytes_subset
        · simp only [ringAt]
          omega
        · simp only [ringAt]
          omega
      · apply Span.bytes_disjoint
        simp only [ringAt, connections]
        omega
      · apply Span.bytes_disjoint
        simp only [ringAt, sockets]
        omega
  · apply Span.bytes_subset
    · simp only [connections]
      omega
    · simp only [connections]
      omega
  · apply Span.bytes_subset
    · simp only [sockets]
      omega
    · simp only [sockets]
      omega
  · apply Span.bytes_disjoint
    simp only [connections, sockets]
    exact le_rfl

/-- For all arguments the factory admits, the construction succeeds with a safe layout exactly when
the rings of all connections together take less than 4 GiB. -/
theorem layout_safe_iff (queue : CircularQue ℕ) {exponent : ℕ} (platform : setup.Platform exponent)
    (admitted : factoryChecks setup.conBufSize setup.maxConnections = .ok ()) :
    (∃ host, Host.construct queue setup.config = .ok host ∧ LayoutSafe setup.config host) ↔
      setup.conBufSize * setup.maxConnections < 2 ^ 32 := by
  rcases factoryChecks_ok admitted with ⟨sizes, counts, admitted⟩
  rw [admitted.product.2, Nat.pow_lt_pow_iff_right (by decide)]
  constructor
  · rintro ⟨host, made, _⟩
    rcases Host.construct_eq_ok.mp made with ⟨overlapPool, _, _, loop⟩
    by_contra large
    exact Host.sliceLoop_fails admitted (Nat.le_of_not_lt large) overlapPool loop
  · intro fits
    rcases objectPool_ok queue with ⟨overlapPool, pool, items, capacity⟩
    rcases Host.sliceLoop_started admitted fits items capacity with ⟨host, loop, started⟩
    have room := Host.roomy admitted fits platform overlapPool
    exact ⟨host, Host.construct_eq_ok.mpr ⟨overlapPool, pool, room, loop⟩,
      started.layoutSafe admitted fits platform⟩

/-- A platform with 2 MiB pages, and the two arguments of the factory. -/
def sampleSetup (conBufSize maxConnections : ℕ) : Setup where
  conBufSize := conBufSize
  maxConnections := maxConnections
  terminalSize := 208
  socketSize := 24
  edgeOffset := 0
  granularity := 2 ^ 21
  pages := 0x200000
  homeIp := 0x0A000001
  quePairsPool := false
  remoteToken := UInt32.ofNat

theorem sampleSetup_platform (conBufSize maxConnections : ℕ) :
    (sampleSetup conBufSize maxConnections).Platform 21 := by
  refine ⟨rfl, ?_, ?_, ?_, ?_, ?_, ?_⟩ <;> simp [sampleSetup]

/-- 512 connections with buffers of 1 MiB. -/
theorem layout_safe_512_connections :
    (∃ host, Host.construct (boundedQueue ℕ) (sampleSetup (2 ^ 20) 512).config = .ok host ∧
      LayoutSafe (sampleSetup (2 ^ 20) 512).config host) ↔ 2 ^ 20 * 512 < 2 ^ 32 :=
  layout_safe_iff (boundedQueue ℕ) (sampleSetup_platform (2 ^ 20) 512) (by decide)

/-- 512 connections with buffers of 8 MiB are admitted, and the construction fails. -/
theorem layout_fails_512_connections :
    factoryChecks (2 ^ 23) 512 = .ok () ∧
      ¬∃ host, Host.construct (boundedQueue ℕ) (sampleSetup (2 ^ 23) 512).config = .ok host := by
  have checks : factoryChecks (2 ^ 23) 512 = .ok () := by decide
  refine ⟨checks, ?_⟩
  rintro ⟨host, made⟩
  have admitted : (sampleSetup (2 ^ 23) 512).Admitted 23 9 := by
    constructor <;> first | rfl | decide
  rcases Host.construct_eq_ok.mp made with ⟨overlapPool, _, _, loop⟩
  exact Host.sliceLoop_fails admitted (by decide) overlapPool loop

end LayoutSafe

end Hermes
