import Hermes.SendChecks
import Hermes.Layout

/-!
# What one loop turn changes

`emitTurn` is the part of a loop turn of `ProcessSendQ(termId)` that puts a frame down and
posts it, on the tables of the library: the terminal and the send ring are those of
`termId`.  `FrameEffect` says all that such a turn changes.  Locally these are the writing
edge of the terminal and the bytes of the frame in the send ring; at the peer, once the
writes are applied, the bytes at the same positions of its receive ring.
-/

namespace Hermes

open Memory Packets

namespace Host

variable {queue : CircularQue ℕ}

/-- A loop turn of `ProcessSendQ` from the space check to the writes. -/
def emitTurn (config : HostConfig) (termId : ℕ) (memory : Memory UInt8) (next : NextPacket)
    (replies : SendReplies) : Code queue (Memory UInt8 × Posting) := do
  let pTerm ← getTerminal config termId
  let sendBuf ← getSndBuf config termId
  match pTerm.emitPacket memory sendBuf next replies with
  | .error reason => throw (.abort reason)
  | .ok (term, memory, posting) => do
      modifyTerminal termId fun _ => term
      return (memory, posting)

end Host

/-- The writes of a frame of `size` bytes at `edge`, as issued by one loop turn: where they go at
the peer and what they carry. -/
structure FrameWrites (sendBuf : Span) (rmtBufAddr edge size : ℕ) (memory : Memory UInt8)
    (writes : List (ℕ × List UInt8)) : Prop where
  count : writes.length = if sendBuf.size < edge % sendBuf.size + size then 2 else 1
  apart : writes.Pairwise fun first second => Disjoint (targets first) (targets second)
  inside : ∀ write ∈ writes, ∀ place ∈ targets write,
    rmtBufAddr ≤ place ∧ place < rmtBufAddr + sendBuf.size
  exact : ∀ place, (∃ write ∈ writes, place ∈ targets write) ↔
    ∃ position ∈ Window.positions sendBuf.size edge size, place = rmtBufAddr + position
  carried : ∀ write ∈ writes, ∀ offset (inside : offset < write.2.length),
    ∃ position, write.1 + offset = rmtBufAddr + position ∧
      write.2[offset] = memory (sendBuf.data + position)
  header : ∃ last, writes.getLast? = some last ∧
    ∀ offset < msgEndSize, rmtBufAddr + (edge + offset) % sendBuf.size ∈ targets last
  arrives : ∀ rmt : Memory UInt8, ∀ position ∈ Window.positions sendBuf.size edge size,
    writes.foldl (fun rmt write => rmt.write write.1 write.2) rmt (rmtBufAddr + position) =
      memory (sendBuf.data + position)
  elsewhere : ∀ (rmt : Memory UInt8) place,
    (∀ position ∈ Window.positions sendBuf.size edge size, place ≠ rmtBufAddr + position) →
      writes.foldl (fun rmt write => rmt.write write.1 write.2) rmt place = rmt place

section FrameWrites

variable {ring edge size : ℕ} {memory : Memory UInt8}

theorem frameWrites_splitWrites (fits : FrameFits ring edge size) (data base : ℕ) :
    FrameWrites ⟨data, ring⟩ base edge size memory
      (splitWrites base ring edge (memory.ringRead data ring edge size)) := by
  have low := fits.low
  have high := fits.high
  have headerFits := fits.header_fits
  have ringAligned := fits.ringAligned
  have positive : 0 < ring := by simp only [msgEndSize] at *; omega
  set record := memory.ringRead data ring edge size with recordDef
  have length : record.length = size := length_ringRead _ _ _ _ _
  have short : record.length ≤ ring := by omega
  have cells : ∀ skip (known : skip < record.length),
      record[skip] = memory (data + (edge + skip) % ring) :=
    fun skip known => getElem_ringRead memory data ring edge known
  have pieces : Pieces base ring edge record (splitWrites base ring edge record) :=
    pieces_splitWrites positive short
  have applied : ∀ rmt : Memory UInt8, PutsDown rmt
      ((splitWrites base ring edge record).foldl (fun rmt write => rmt.write write.1 write.2) rmt)
        base ring edge record :=
    fun rmt => PutsDown.of_pending short (pending_splitWrites rmt positive short)
  refine
    { count := ?_
      apart := pieces.apart
      inside := pieces.inside
      exact := ?_
      carried := ?_
      header := ?_
      arrives := ?_
      elsewhere := ?_ }
  · rw [pieces.count, length]
  · rw [← length]
    exact pieces.exact
  · intro write present offset inside
    rcases pieces.carried write present offset inside with ⟨skip, known, placed, same⟩
    exact ⟨_, placed, same.trans (cells skip known)⟩
  · -- the header is before the end of the ring, in the piece that reaches up to it
    have straight : ∀ offset < msgEndSize, (edge + offset) % ring = edge % ring + offset := by
      intro offset inside
      apply Window.add_mod_of_lt
      omega
    simp only [splitWrites, length]
    by_cases wraps : ring < edge % ring + size
    · refine ⟨(base + edge % ring, record.take (ring - edge % ring)), by rw [if_pos wraps]; rfl, ?_⟩
      intro offset inside
      rw [straight offset inside]
      constructor
      · simp only
        omega
      · simp only [List.length_take]
        omega
    · refine ⟨(base + edge % ring, record), by rw [if_neg wraps]; rfl, ?_⟩
      intro offset inside
      rw [straight offset inside]
      constructor
      · simp only
        omega
      · simp only
        omega
  · rintro rmt position ⟨offset, inside, rfl⟩
    have known : offset < record.length := by omega
    exact ((applied rmt).shown offset known).trans (cells offset known)
  · intro rmt place outside
    by_contra changed
    rcases (applied rmt).changed changed with ⟨offset, inside, placed⟩
    exact outside _ ⟨offset, by omega, rfl⟩ placed

end FrameWrites

/-- All that one loop turn does which puts a frame of `terminal` down and posts it. -/
structure FrameEffect {queue : CircularQue ℕ} (config : HostConfig) (conId : ℕ)
    (terminal : Terminal) (memory : Memory UInt8) (next : NextPacket) (replies : SendReplies)
    (host host' : Host queue) (memory' : Memory UInt8) (posting : Posting) : Prop where
  tables : host' = { host with
    connections := Function.update host.connections conId (terminal.pastFrame next.pktSize) }
  changed : ∀ place, memory' place ≠ memory place →
    ∃ position ∈ Window.positions config.bufSize terminal.sndEnd.writeEdge.toNat next.pktSize,
      place = (ringAt config host conId true).data + position
  others : ∀ other send, 1 ≤ other → (other, send) ≠ (conId, true) →
    ∀ place ∈ (ringAt config host other send).bytes, memory' place = memory place
  writes : ∃ issued, FrameWrites (ringAt config host conId true) terminal.rmtBufAddr
      terminal.sndEnd.writeEdge.toNat next.pktSize memory' issued ∧
    posting = .posted
      (writeRequests terminal.rmtMemToken
        (if accepted replies.firstHalf then issued else issued.dropLast))
      (if replies.firstHalf = ndPending then ndSuccess else replies.firstHalf)

section FrameEffect

variable {queue : CircularQue ℕ} {setup : Setup} {host : Host queue} {config : LinkConfig}
  {link : Link} {conId thread : ℕ} {next : NextPacket} {rest : List Activation}

theorem emitTurn_eq (replies : SendReplies) (fit : Host.RingsFit setup.config host)
    (low : 1 ≤ conId)
    (high : conId ≤ setup.config.maxConnection) (memory : Memory UInt8) :
    Host.emitTurn setup.config conId memory next replies host =
      match (host.connections conId).emitPacket memory (ringAt setup.config host conId true) next
          replies with
      | .error reason => .error (.abort reason)
      | .ok (term, memory, posting) => .ok ((memory, posting), { host with
          connections := Function.update host.connections conId term }) := by
  have sendBuf : Host.getSndBuf setup.config conId host =
      .ok (ringAt setup.config host conId true, host) := by
    rw [Host.getSndBuf_eq fit low high, ringAt, ringSlot]
    congr 4
    simp only [if_true]
    ring
  rw [Host.emitTurn, Program.apply_bind (Host.getTerminal_eq low high),
    Program.apply_bind sendBuf]
  cases (host.connections conId).emitPacket memory (ringAt setup.config host conId true) next
    replies with
  | error reason => rfl
  | ok result => rfl

theorem emitTurn_effect (replies : SendReplies) (fit : Host.RingsFit setup.config host)
    (low : 1 ≤ conId)
    (high : conId ≤ setup.config.maxConnection)
    (ring : ringAt setup.config host conId true = ⟨config.sendBuf.data, config.ring⟩)
    (reachable : (linkMachine config).Reachable AnyAction link)
    (stackEq : link.threads thread = .emitting next :: rest)
    (connected : link.term.rmtMemToken ≠ 0) (own : host.connections conId = link.term) :
    (∀ memory' posting host',
      Host.emitTurn setup.config conId link.mem next replies host =
        .ok ((memory', posting), host') →
      FrameEffect setup.config conId link.term link.mem next replies host host' memory' posting) ∧
    (msgAlign ∣ next.req.buf.data →
      accepted replies.firstHalf = true ∨ replies.firstHalf = ndCanceled →
      accepted replies.secondHalf = true →
      ∃ result, Host.emitTurn setup.config conId link.mem next replies host = .ok result) := by
  rcases equipped_invariant reachable with ⟨flow, discipline, equipped⟩
  rcases discipline.owned stackEq rfl with ⟨_, _, serves, _⟩
  rcases serves.emitReady with ⟨index, working, _, ready⟩
  have size : setup.config.bufSize = config.ring := congrArg Span.size ring
  have fits := config.fits_toNat (ready.fits flow)
  rw [← flow.writeEdge] at fits
  rw [emitTurn_eq replies fit low high, own, ring]
  constructor
  · intro memory' posting host' emitted
    cases outcome :
      link.term.emitPacket link.mem ⟨config.sendBuf.data, config.ring⟩ next replies with
    | error reason => simp [outcome] at emitted
    | ok result =>
        rcases result with ⟨term, mem, posted⟩
        simp only [outcome, Except.ok.injEq, Prod.mk.injEq] at emitted
        rcases emitted with ⟨⟨rfl, rfl⟩, rfl⟩
        rcases Terminal.emitPacket_ok ready.atPacket fits ready.pktSize config.aligned outcome with
          ⟨rfl, record, after⟩
        have length := after.length
        have shown : mem.ringRead config.sendBuf.data config.ring
            link.term.sndEnd.writeEdge.toNat next.pktSize = record := by
          rw [← length]
          exact shows_iff_ringRead.mp after.putDown.shown
        have changed : ∀ place, mem place ≠ link.mem place →
            ∃ position ∈ Window.positions config.ring link.term.sndEnd.writeEdge.toNat next.pktSize,
              place = config.sendBuf.data + position := by
          intro place differs
          rcases after.putDown.changed differs with ⟨offset, inside, placed⟩
          exact ⟨_, ⟨offset, by omega, rfl⟩, placed⟩
        refine
          { tables := rfl
            changed := ?_
            others := ?_
            writes := ?_ }
        · rw [ring, size]
          exact changed
        · intro other send otherLow different place inside
          by_contra differs
          rcases changed place differs with ⟨position, ⟨offset, _, rfl⟩, rfl⟩
          have apart : Disjoint (ringAt setup.config host other send).bytes
              (ringAt setup.config host conId true).bytes := ringAt_disjoint otherLow low different
          rw [ring, Set.disjoint_left] at apart
          apply apart inside
          have := Nat.mod_lt (link.term.sndEnd.writeEdge.toNat + offset) config.ring_pos
          exact ⟨Nat.le_add_right _ _, Nat.add_lt_add_left this _⟩
        · rcases after.outcome with ⟨closing, _⟩ | ⟨_, _, rfl⟩
          · exact absurd closing connected
          · rw [ring]
            refine ⟨_, frameWrites_splitWrites fits config.sendBuf.data link.term.rmtBufAddr, ?_⟩
            rw [shown]
            rfl
  · intro aligned first second
    rcases emitPacket_total reachable stackEq aligned first second with
      ⟨⟨term, mem, posting⟩, outcome⟩
    have outcome' : link.term.emitPacket link.mem ⟨config.sendBuf.data, config.ring⟩ next replies =
        .ok (term, mem, posting) := outcome
    rw [outcome']
    exact ⟨_, rfl⟩

/-- One loop turn on a connected terminal changes what `FrameEffect` says, in the library object
the factory made, from any reachable state of the connection and for any state of the other
terminals; and it does not abort on an aligned buffer whose writes the provider takes. -/
theorem frame_effect (replies : SendReplies) (made : hermesFixedRIOFactory queue setup = .ok host)
    (low : 1 ≤ conId) (high : conId ≤ setup.config.maxConnection)
    (ring : config.sendBuf = ringAt setup.config host conId true)
    (reachable : (linkMachine config).Reachable AnyAction link)
    (stackEq : link.threads thread = .emitting next :: rest)
    (connected : link.term.rmtMemToken ≠ 0) (connections : ℕ → Terminal)
    (own : connections conId = link.term) :
    (∀ memory' posting host',
      Host.emitTurn setup.config conId link.mem next replies { host with connections } =
        .ok ((memory', posting), host') →
      FrameEffect setup.config conId link.term link.mem next replies { host with connections }
        host' memory' posting) ∧
    (msgAlign ∣ next.req.buf.data →
      accepted replies.firstHalf = true ∨ replies.firstHalf = ndCanceled →
      accepted replies.secondHalf = true →
      ∃ result, Host.emitTurn setup.config conId link.mem next replies { host with connections } =
        .ok result) := by
  rcases Host.factory_started made with ⟨_, _, _, _, started⟩
  have fit : Host.RingsFit setup.config { host with connections } :=
    ⟨started.fit.small, started.fit.size⟩
  exact emitTurn_effect replies fit low high ring.symm reachable stackEq connected own

/-- A frame with a payload that passes the end of the ring, on a library with one connection. -/
theorem frame_effect_wrapped :
    ∃ (host host' : Host (boundedQueue ℕ)) (terminal : Terminal) (memory memory' : Memory UInt8)
      (posting : Posting),
      hermesFixedRIOFactory (boundedQueue ℕ) (sampleSetup 8192 1) = .ok host ∧
      terminal.sndEnd.writeEdge = 4032 ∧
      FrameEffect (sampleSetup 8192 1).config 1 terminal memory wrappedPacket {}
        { host with connections := fun _ => terminal } host' memory' posting := by
  rcases Host.factory_succeeds (boundedQueue ℕ) (sampleSetup_platform 8192 1) (by decide)
    (by decide) (by decide) with ⟨host, made⟩
  rcases Host.factory_started made with ⟨_, _, _, _, started⟩
  have data : host.buffers.data = 0x200000 := by
    rcases started.rest with ⟨overlapPool, _, _, same⟩
    rw [same]
    rfl
  have ring : pageRing.sendBuf = ringAt (sampleSetup 8192 1).config host 1 true := by
    rw [ringAt, data]
    rfl
  rcases wrappedPacket_emitting with ⟨link, reachable, stackEq, writeEdge, connected⟩
  rcases frame_effect {} made le_rfl le_rfl ring (reachable.mono fun _ => trivial) stackEq
    connected (fun _ => link.term) rfl with ⟨effect, succeeds⟩
  rcases succeeds (filledReq_aligned 64 0x42) (.inl rfl) rfl with
    ⟨⟨⟨memory', posting⟩, host'⟩, outcome⟩
  exact ⟨host, host', link.term, link.mem, memory', posting, made, writeEdge,
    effect memory' posting host' outcome⟩

end FrameEffect

end Hermes
