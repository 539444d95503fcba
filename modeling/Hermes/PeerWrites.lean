import Hermes.HostLinear

/-!
# What a peer can write

A peer that has the token of a region may write anywhere in the memory the region was
registered with, when remote writes are allowed there.  `CreateMemRegions` allows them
for both regions of a terminal: the pair of rings, of which only the first is the
peer's to write, and the whole `Terminal`, of which the peer only has to read an edge.
`peer_confined_iff` says which writes stay in the receive ring.
-/

namespace Hermes

open Program

variable {queue : CircularQue ℕ} {config : HostConfig} {host : Host queue} {job : AsyncJob}
  {conId : ℕ}

/-- An RDMA write of a peer: the registration whose token it carries, the address, the bytes. -/
structure PeerWrite where
  target : AsyncJob
  address : ℕ
  bytes : List UInt8

namespace PeerWrite

def apply (write : PeerWrite) (memory : Memory UInt8) : Memory UInt8 :=
  memory.write write.address write.bytes

def applyAll (writes : List PeerWrite) (memory : Memory UInt8) : Memory UInt8 :=
  writes.foldl (fun memory write => write.apply memory) memory

/-- All of a write but the values written. -/
def extent (write : PeerWrite) : AsyncJob × ℕ × ℕ :=
  (write.target, write.address, write.bytes.length)

/-- The write names a region of the terminal whose token has been put in a hand shake and that was
registered with remote writes allowed, and falls inside it. -/
structure Allowed (config : HostConfig) (host : Host queue) (conId : ℕ) (write : PeerWrite) :
    Prop where
  registered : Taken host.events write.target
  terminal : write.target.registers? = some conId
  disclosed : ∃ region ∈ host.disclosed, write.target.region? = some region
  inside : ∃ region registration, write.target.region? = some region ∧
    (region, registration) ∈ host.registered ∧ .allowRemoteWrite ∈ registration.flags ∧
      registration.span.data ≤ write.address ∧
        write.address + write.bytes.length ≤ registration.span.data + registration.span.size

/-- The write goes through the region of the rings and ends within the size of one ring, or it is
empty. -/
def Confined (config : HostConfig) (host : Host queue) (conId : ℕ) (write : PeerWrite) : Prop :=
  write.bytes = [] ∨ (∃ region, write.target = .onMemRegistered conId region) ∧
    write.address + write.bytes.length ≤
      (host.bufPairSpan config conId).data + config.bufSize

end PeerWrite

/-- The local `Terminal` and the local send ring. -/
def Host.privateBytes (config : HostConfig) (host : Host queue) (conId : ℕ) : Set ℕ :=
  (host.terminalSpan config conId).bytes ∪ (ringAt config host conId true).bytes

section Layout

variable (granted : host.Granted config) (inRange : config.TermId conId)
include granted inRange

theorem bufPairSpan_eq : host.bufPairSpan config conId =
    ⟨host.buffers.data + (conId - 1) * config.bufSize * 2, config.bufSize * 2⟩ := by
  rcases granted.rings.offset inRange.1 inRange.2 with ⟨_, offset, _, size⟩
  rw [Host.bufPairSpan, offset, size]

/-- The receive ring is the first half of the pair and the send ring the second. -/
theorem rings_of_pair :
    ringAt config host conId false =
      ⟨(host.bufPairSpan config conId).data, config.bufSize⟩ ∧
    ringAt config host conId true =
      ⟨(host.bufPairSpan config conId).data + config.bufSize, config.bufSize⟩ := by
  rw [bufPairSpan_eq granted inRange]
  constructor
  · simp only [ringAt, ringSlot, Span.mk.injEq, and_true]
    simp
    ring
  · simp only [ringAt, ringSlot, Span.mk.injEq, and_true]
    simp
    ring

/-- No byte of the `Terminal` or of the send ring is in the receive ring. -/
theorem receive_apart :
    Disjoint (ringAt config host conId false).bytes (host.privateBytes config conId) := by
  rw [Host.privateBytes, Set.disjoint_union_right]
  constructor
  · apply Span.bytes_disjoint
    have high := ringAt_high granted.rings false inRange.1 inRange.2
    have spans := granted.spans
    simp only [ringAt, Host.terminalSpan]
    omega
  · exact ringAt_disjoint inRange.1 inRange.1 (by simp)

end Layout

/-- The hand shake carries the address of the receive ring and the tokens of the two regions that
were registered for the terminal. -/
theorem prepareHandShakeData_discloses {due : Option (List AsyncJob)} {spare owned : List ℕ}
    {hand : List (ℕ × Phase)} {replies : Replies}
    (orderly : host.Orderly config due spare owned hand) :
    Ensures (Host.prepareHandShakeData config conId replies)
      (fun handShake after => handShake.bufAddr = (ringAt config host conId false).data ∧
        ∃ memRegion tagRegion, handShake.memToken = config.remoteToken memRegion ∧
          handShake.tagToken = config.remoteToken tagRegion ∧
          Taken after.events (.onMemRegistered conId memRegion) ∧
          Taken after.events (.onTagRegistered conId tagRegion) ∧
          memRegion ∈ after.disclosed ∧ tagRegion ∈ after.disclosed)
      Stop.PoolSound host := by
  unfold Host.prepareHandShakeData
  refine Host.ensures_getTerminal_inRange fun inRange => ?_
  refine .step (Host.getRcvBuf_eq orderly.granted.rings inRange.1 inRange.2) ?_
  refine (orderly.completeRegistrations _).bind fun _ after orderly => .step apply_get ?_
  split
  case h_1 memRegion tagRegion mem tag =>
    refine .step rfl ⟨?_, memRegion, tagRegion, rfl, rfl, orderly.granted.mem _ _ mem,
      orderly.granted.tag _ _ tag, by simp, by simp⟩
    simp only [ringAt, ringSlot]
    simp
    ring
  case h_2 => exact poolSound_of_ne (by simp)

namespace PeerWrite

variable {write : PeerWrite} {memory : Memory UInt8} {place : ℕ}

theorem Allowed.inRange (allowed : write.Allowed config host conId)
    (granted : host.Granted config) : config.TermId conId :=
  granted.inRange write.target conId allowed.registered allowed.terminal

/-- The write falls inside the memory of its region. -/
theorem Allowed.span (allowed : write.Allowed config host conId)
    (granted : host.Granted config) : ∃ span, write.target.span? config host = some span ∧
      span.data ≤ write.address ∧ write.address + write.bytes.length ≤ span.data + span.size := by
  rcases allowed.inside with ⟨region, registration, same, member, _, low, high⟩
  rcases granted.registered region registration member with ⟨job, span, taken, same', spans, rfl⟩
  refine ⟨span, ?_, low, high⟩
  rw [granted.once write.target job region allowed.registered taken same same']
  exact spans

theorem apply_outside (confined : write.Confined config host conId)
    (allowed : write.Allowed config host conId) (granted : host.Granted config)
    (outside : place ∉ (ringAt config host conId false).bytes) :
    write.apply memory place = memory place := by
  by_contra changed
  have range := Memory.write_changed changed
  rcases confined with empty | ⟨⟨region, target⟩, short⟩
  · simp only [empty, List.length_nil] at range
    omega
  · rcases allowed.span granted with ⟨span, same, low, _⟩
    have terminal := allowed.terminal
    rw [target] at same terminal
    cases terminal
    cases same
    apply outside
    rw [(rings_of_pair granted (allowed.inRange granted)).1]
    exact ⟨le_trans low range.1, lt_of_lt_of_le range.2 short⟩

/-- A write that is not confined covers a byte of the `Terminal` or of the send ring. -/
theorem escapes (allowed : write.Allowed config host conId) (granted : host.Granted config)
    (loose : ¬write.Confined config host conId) :
    ∃ offset < write.bytes.length, write.address + offset ∈ host.privateBytes config conId := by
  have filled : 0 < write.bytes.length := by
    apply List.length_pos_iff.mpr
    exact fun empty => loose (.inl empty)
  rcases allowed.span granted with ⟨span, same, low, high⟩
  have terminal := allowed.terminal
  cases target : write.target
  case onTagRegistered conId' region =>
    rw [target] at same terminal
    cases terminal
    cases same
    refine ⟨0, filled, .inl ⟨low, ?_⟩⟩
    exact lt_of_lt_of_le (Nat.add_lt_add_left filled _) high
  case onMemRegistered conId' region =>
    rw [target] at same terminal
    cases terminal
    cases same
    have past : (host.bufPairSpan config conId).data + config.bufSize <
        write.address + write.bytes.length := by
      by_contra short
      exact loose (.inr ⟨⟨region, target⟩, Nat.le_of_not_lt short⟩)
    have pair := bufPairSpan_eq granted (allowed.inRange granted)
    have size : (host.bufPairSpan config conId).size = config.bufSize * 2 := by rw [pair]
    refine ⟨write.bytes.length - 1, by omega, .inr ?_⟩
    rw [(rings_of_pair granted (allowed.inRange granted)).2]
    simp only [Span.bytes, Set.mem_ofPred_eq]
    omega
  all_goals
    rw [target] at same
    cases same

/-- The bytes a write changes are all in the receive ring exactly when it is confined. -/
theorem changes_receive_iff (allowed : write.Allowed config host conId)
    (granted : host.Granted config) :
    (∀ memory place, write.apply memory place ≠ memory place →
      place ∈ (ringAt config host conId false).bytes) ↔ write.Confined config host conId := by
  constructor
  · intro inRing
    by_contra loose
    rcases escapes allowed granted loose with ⟨offset, inside, private'⟩
    have apart := Set.disjoint_left.mp (receive_apart granted (allowed.inRange granted))
    refine apart (inRing (fun _ => write.bytes[offset] + 1) _ ?_) private'
    rw [apply, Memory.write_inside _ _ inside]
    simp
  · intro confined memory place changed
    by_contra outside
    exact changed (apply_outside confined allowed granted outside)

theorem applyAll_outside {writes : List PeerWrite} (granted : host.Granted config)
    (allowed : ∀ write ∈ writes, write.Allowed config host conId)
    (confined : ∀ write ∈ writes, write.Confined config host conId)
    (outside : place ∉ (ringAt config host conId false).bytes) :
    applyAll writes memory place = memory place := by
  induction writes generalizing memory with
  | nil => rfl
  | cons write rest ih =>
      have first :=
        @apply_outside _ config host conId write memory place (confined write List.mem_cons_self)
        (allowed write List.mem_cons_self) granted outside
      refine Eq.trans (ih ?_ ?_) first
      · exact fun other member => allowed other (List.mem_cons_of_mem _ member)
      · exact fun other member => confined other (List.mem_cons_of_mem _ member)

/-- Two writes of one extent whose bytes differ in one place only. -/
theorem apply_set {offset : ℕ} (inside : offset < write.bytes.length) (byte : UInt8) :
    ({ write with bytes := write.bytes.set offset byte } : PeerWrite).apply memory place =
      if place = write.address + offset then byte else write.apply memory place := by
  simp only [apply, Memory.write]
  by_cases low : write.address ≤ place
  · by_cases same : place = write.address + offset
    · subst same
      simp [inside]
    · have other : offset ≠ place - write.address := by omega
      simp [low, same, List.getElem?_set_ne other]
  · have other : place ≠ write.address + offset := by omega
    simp [low, other]

end PeerWrite

/-- Two histories of writes with these extents leave the same in the receive ring and not in the
local `Terminal` and send ring. -/
def Interferes (config : HostConfig) (host : Host queue) (conId : ℕ)
    (extents : Set (AsyncJob × ℕ × ℕ)) : Prop :=
  ∃ (memory : Memory UInt8) (first second : List PeerWrite),
    (∀ write ∈ first, write.extent ∈ extents) ∧ (∀ write ∈ second, write.extent ∈ extents) ∧
    (∀ place ∈ (ringAt config host conId false).bytes,
      PeerWrite.applyAll first memory place = PeerWrite.applyAll second memory place) ∧
    ∃ place ∈ host.privateBytes config conId,
      PeerWrite.applyAll first memory place ≠ PeerWrite.applyAll second memory place

theorem not_interferes_iff {extents : Set (AsyncJob × ℕ × ℕ)} (granted : host.Granted config)
    (allowed : ∀ write : PeerWrite, write.extent ∈ extents → write.Allowed config host conId) :
    ¬Interferes config host conId extents ↔
      ∀ write : PeerWrite, write.extent ∈ extents → write.Confined config host conId := by
  constructor
  · intro quiet write member
    by_contra loose
    have inRange := (allowed write member).inRange granted
    have apart := Set.disjoint_left.mp (receive_apart granted inRange)
    rcases PeerWrite.escapes (allowed write member) granted loose with ⟨offset, inside, place⟩
    -- the same write, with another byte in the place that is not the peer's
    have other := fun (memory : Memory UInt8) (place : ℕ) =>
      @PeerWrite.apply_set write memory place offset inside (write.bytes[offset] + 1)
    refine quiet ⟨fun _ => 0, [write],
      [{ write with bytes := write.bytes.set offset (write.bytes[offset] + 1) }], ?_, ?_, ?_, _,
      place, ?_⟩
    · simpa using member
    · simpa [PeerWrite.extent] using member
    · intro ringPlace inRing
      have different : ringPlace ≠ write.address + offset := fun same => apart inRing (same ▸ place)
      simp [PeerWrite.applyAll, other, different]
    · have here := Memory.write_inside (fun _ => 0) write.address inside
      simp only [PeerWrite.applyAll, List.foldl_cons, List.foldl_nil, other, if_pos]
      rw [PeerWrite.apply, here]
      simp
  · rintro confined ⟨memory, first, second, members, members', _, place, local', differ⟩
    have unchanged : ∀ {writes : List PeerWrite}, (∀ write ∈ writes, write.extent ∈ extents) →
        PeerWrite.applyAll writes memory place = memory place := by
      intro writes members
      cases writes with
      | nil => rfl
      | cons write rest =>
          have inRange := (allowed write (members write List.mem_cons_self)).inRange granted
          have apart := Set.disjoint_right.mp (receive_apart granted inRange)
          refine PeerWrite.applyAll_outside granted ?_ ?_ (apart local')
          · exact fun other member => allowed other (members other member)
          · exact fun other member => confined other (members other member)
    exact differ ((unchanged members).trans (unchanged members').symm)

/-- In every reachable state each region whose token is disclosed was registered once, for one
terminal.  A write the peer may make with it changes bytes of the receive ring only, exactly when
it is confined, and histories of such writes that agree on the receive ring agree on the local
`Terminal` and the send ring exactly when all writes are confined. -/
theorem peer_confined_iff (queue : CircularQue ℕ) (setup : Setup) {host : Host queue}
    (reachable : (hostMachine queue setup).Reachable (fun _ _ => True) host) :
    (∀ region ∈ host.disclosed, ∃ conId job, setup.config.TermId conId ∧
      (job = .onTagRegistered conId region ∨ job = .onMemRegistered conId region) ∧
      ∀ job', Taken host.events job' ∧ job'.region? = some region ↔ job' = job) ∧
    (∀ conId write, PeerWrite.Allowed setup.config host conId write →
      ((∀ memory place, write.apply memory place ≠ memory place →
          place ∈ (ringAt setup.config host conId false).bytes) ↔
        write.Confined setup.config host conId)) ∧
    ∀ conId extents,
      (∀ write : PeerWrite, write.extent ∈ extents → write.Allowed setup.config host conId) →
      (¬Interferes setup.config host conId extents ↔
        ∀ write : PeerWrite, write.extent ∈ extents →
          write.Confined setup.config host conId) := by
  have granted := (Host.orderly_of_reachable reachable).granted
  refine ⟨?_, fun conId write allowed => PeerWrite.changes_receive_iff allowed granted,
    fun conId extents allowed => not_interferes_iff granted allowed⟩
  intro region member
  rcases granted.disclosed region member with ⟨job, taken, same⟩
  have unique : ∀ job', Taken host.events job' ∧ job'.region? = some region ↔ job' = job := by
    intro job'
    constructor
    · rintro ⟨taken', same'⟩
      exact granted.once job' job region taken' taken same' same
    · rintro rfl
      exact ⟨taken, same⟩
  cases job
  case onTagRegistered conId region' =>
    cases same
    exact ⟨conId, _, granted.inRange _ conId taken rfl, .inl rfl, unique⟩
  case onMemRegistered conId region' =>
    cases same
    exact ⟨conId, _, granted.inRange _ conId taken rfl, .inr rfl, unique⟩
  all_goals cases same

section Sample

/-- A socket connects, so the tokens of its terminal's regions go to the peer. -/
def sampleConnect : List HostAction :=
  [.createSocket, .connect sampleHandle 5 6 sampleRegistered]

theorem sampleConnect_reaches :
    ∃ host, (hostMachine (boundedQueue ℕ) (sampleSetup 8192 1)).Reachable (fun _ _ => True) host ∧
      host.disclosed = [4, 3] ∧ host.buffers = ⟨0x200000, 8192⟩ ∧
      host.registered = [(3, ⟨⟨0x202000, 208⟩, Host.regionFlags⟩),
        (4, ⟨⟨0x200000, 8192⟩, Host.regionFlags⟩)] ∧
      Taken host.events (.onTagRegistered 1 3) ∧ Taken host.events (.onMemRegistered 1 4) := by
  have passes : (sampleRun sampleConnect).toOption.any (fun host =>
      (host.disclosed = [4, 3] ∧ host.buffers = ⟨0x200000, 8192⟩ ∧ host.registered =
          [(3, ⟨⟨0x202000, 208⟩, Host.regionFlags⟩), (4, ⟨⟨0x200000, 8192⟩, Host.regionFlags⟩)]) ∧
        .took 0 (.onTagRegistered 1 3) 1 ∈ host.events ∧
          .took 1 (.onMemRegistered 1 4) 1 ∈ host.events) = true := by
    decide +kernel
  rcases sampleRun_reaches (fun _ _ _ => trivial) passes with ⟨host, reachable, holds⟩
  rcases of_decide_eq_true holds with
    ⟨⟨disclosed, buffers, registered⟩, tag, mem⟩
  exact ⟨host, reachable, disclosed, buffers, registered, ⟨_, _, tag⟩, ⟨_, _, mem⟩⟩

/-- A write through the region of the rings into the receive ring stays there. -/
theorem peer_confined_ring_write :
    ∃ (host : Host (boundedQueue ℕ)) (write : PeerWrite),
      write.Allowed (sampleSetup 8192 1).config host 1 ∧ write.bytes ≠ [] ∧
      ∀ memory place, write.apply memory place ≠ memory place →
        place ∈ (ringAt (sampleSetup 8192 1).config host 1 false).bytes := by
  rcases sampleConnect_reaches with
    ⟨host, reachable, disclosed, buffers, registered, _, mem⟩
  let write : PeerWrite := ⟨.onMemRegistered 1 4, 0x200000, [1, 2, 3, 4]⟩
  have allowed : write.Allowed (sampleSetup 8192 1).config host 1 := by
    refine ⟨mem, rfl, ⟨4, by simp [disclosed], rfl⟩, 4,
      ⟨⟨0x200000, 8192⟩, Host.regionFlags⟩, rfl, ?_⟩
    simp [write, registered, Host.regionFlags]
  refine ⟨host, write, allowed, by simp [write], ?_⟩
  apply ((peer_confined_iff _ _ reachable).2.1 1 write allowed).mpr
  refine .inr ⟨⟨4, rfl⟩, ?_⟩
  simp [write, Host.bufPairSpan, buffers, sampleSetup, Setup.config, wrap32]

/-- A write through the tag region changes the callback pointers of the local `Terminal`, and
histories of such writes agree on the receive ring and not on the `Terminal`. -/
theorem peer_writes_terminal :
    ∃ (host : Host (boundedQueue ℕ)) (write : PeerWrite),
      (hostMachine (boundedQueue ℕ) (sampleSetup 8192 1)).Reachable (fun _ _ => True) host ∧
      write.Allowed (sampleSetup 8192 1).config host 1 ∧
      (¬∀ memory place, write.apply memory place ≠ memory place →
        place ∈ (ringAt (sampleSetup 8192 1).config host 1 false).bytes) ∧
      Interferes (sampleSetup 8192 1).config host 1 {write.extent} := by
  rcases sampleConnect_reaches with
    ⟨host, reachable, disclosed, _, registered, tag, _⟩
  have granted := (Host.orderly_of_reachable reachable).granted
  let write : PeerWrite := ⟨.onTagRegistered 1 3, 0x202040, List.replicate 8 255⟩
  have allowed : ∀ other : PeerWrite, other.extent = write.extent →
      other.Allowed (sampleSetup 8192 1).config host 1 := by
    intro other same
    simp only [PeerWrite.extent, Prod.mk.injEq] at same
    rcases same with ⟨target, address, length⟩
    refine ⟨target ▸ tag, by rw [target]; rfl, ⟨3, by simp [disclosed], by rw [target]; rfl⟩, ?_⟩
    rw [target, address, length]
    refine ⟨3, ⟨⟨0x202000, 208⟩, Host.regionFlags⟩, rfl, ?_⟩
    simp [write, registered, Host.regionFlags]
  have loose : ¬write.Confined (sampleSetup 8192 1).config host 1 := by
    simp [PeerWrite.Confined, write]
  refine ⟨host, write, reachable, allowed write rfl, ?_, ?_⟩
  · exact mt (PeerWrite.changes_receive_iff (allowed write rfl) granted).mp loose
  · by_contra quiet
    exact loose ((not_interferes_iff granted allowed).mp quiet write rfl)

end Sample

end Hermes
