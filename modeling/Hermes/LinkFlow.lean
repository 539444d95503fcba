import Hermes.LinkStep

/-!
# Flow control

`Flow` relates the 64-bit edges of the terminal to their unbounded counterparts,
cuts the history of frames where the peer's consumption and the deliveries stand,
and says what the two rings and the wire hold of each part.  Every frame the peer
has not consumed lies in one window of the ring, so putting down the next frame
and applying a posted write touch none of the others.
-/

namespace Hermes

open Memory Packets

/-- A frame in the history: aligned, not larger than the ring, and with the size its own header
tells a reader. -/
structure Emission.WellFormed (config : LinkConfig) (emission : Emission) : Prop where
  edgeAligned : msgEndSize ∣ emission.edge
  sizeAligned : msgEndSize ∣ emission.size
  high : emission.size ≤ config.ring
  framed : ∃ header body, emission.record = frameRecord header body ∧
    body.length = min header.size.toNat packetSize ∧ emission.size = body.length + 2 * msgEndSize

namespace Emission.WellFormed

variable {config : LinkConfig} {emission : Emission}

theorem low (wellFormed : emission.WellFormed config) : 2 * msgEndSize ≤ emission.size := by
  obtain ⟨header, body, _, _, size⟩ := wellFormed.framed
  omega

theorem length (wellFormed : emission.WellFormed config) :
    emission.record.length = emission.size := by
  obtain ⟨header, body, record, _, size⟩ := wellFormed.framed
  rw [record, size, frameRecord]
  simp only [List.length_append, MsgEnd.length_bytes]
  omega

theorem fits (wellFormed : emission.WellFormed config) :
    FrameFits config.ring emission.edge emission.size where
  power := ⟨config.exponent, by have := config.small; omega, config.power⟩
  edgeAligned := wellFormed.edgeAligned
  sizeAligned := wellFormed.sizeAligned
  low := wellFormed.low
  high := wellFormed.high

end Emission.WellFormed

/-- The packet of a frame is that of its header and payload. -/
theorem Emission.packet_eq (emission : Emission) {header : MsgEnd} {body : List UInt8}
    (record : emission.record = frameRecord header body)
    (size : emission.size = body.length + 2 * msgEndSize) :
    emission.packet = packetOf header body := by
  have front : (frameRecord header body).take msgEndSize = header.bytes := by
    rw [frameRecord, List.append_assoc, ← header.length_bytes, List.take_left]
  have rest : (frameRecord header body).drop msgEndSize = body ++ header.bytes := by
    rw [frameRecord, List.append_assoc, ← header.length_bytes, List.drop_left]
  have payload : body.length + 2 * msgEndSize - 2 * msgEndSize = body.length := by omega
  rw [Emission.packet, record, size, front, rest, payload, List.take_left, MsgEnd.ofList_bytes]

namespace LinkConfig

variable (config : LinkConfig)

theorem ring_pos : 0 < config.ring := by
  rw [ring, config.power]
  exact Nat.two_pow_pos _

theorem ring_lt : config.ring < 2 ^ 32 := by
  rw [ring, config.power]
  exact Nat.pow_lt_pow_right (by decide) config.small

/-- The position of an edge in the ring is the same modulo 2⁶⁴. -/
theorem toNat_mod (edge : ℕ) : (UInt64.ofNat edge).toNat % config.ring = edge % config.ring := by
  have divides : config.ring ∣ 2 ^ 64 := by
    rw [ring, config.power]
    exact pow_dvd_pow 2 (by have := config.small; omega)
  rw [UInt64.toNat_ofNat', Nat.mod_mod_of_dvd _ divides]

/-- A frame that fits at an unbounded edge fits at its 64-bit value. -/
theorem fits_toNat {edge size : ℕ} (fits : FrameFits config.ring edge size) :
    FrameFits config.ring (UInt64.ofNat edge).toNat size := by
  refine { fits with edgeAligned := ?_ }
  have aligned := fits.edgeAligned
  rw [UInt64.toNat_ofNat']
  simp only [msgEndSize] at *
  omega

end LinkConfig

/-- A peer that reads a frame its ring shows takes exactly the packet and the size of this
frame. -/
theorem takeFrame_eq {config : LinkConfig} {emission : Emission} {memory : Memory UInt8}
    (wellFormed : emission.WellFormed config)
    (shown : memory.Shows config.rcvData config.ring emission.edge emission.record) :
    takeFrame memory config.rcvBuf (UInt64.ofNat emission.edge) =
      .ok (emission.packet, emission.size) := by
  obtain ⟨header, body, record, bodyLength, size⟩ := wellFormed.framed
  have fits := config.fits_toNat wellFormed.fits
  have low := wellFormed.low
  have same := config.toNat_mod emission.edge
  have isRecord : IsRecord emission.size header.bytes body header.bytes :=
    isRecord_frameRecord header (by omega)
  rw [record] at shown
  replace shown := shown.congr_edge same
  have headerRead := shown.read_segment (fits.header_segment config.rcvData isRecord)
  have view0Read := shown.read_segment (fits.views0_segment config.rcvData isRecord)
  have view1Read := shown.read_segment (fits.views1_segment config.rcvData isRecord)
  have first : firstViewSize config.ring (UInt64.ofNat emission.edge).toNat emission.size ≤
      emission.size - 2 * msgEndSize := Nat.min_le_left _ _
  have length0 : (body.take (firstViewSize config.ring (UInt64.ofNat emission.edge).toNat
      emission.size)).length = (frameAt config.rcvData config.ring
        (UInt64.ofNat emission.edge).toNat emission.size).views0.size := by
    simp only [List.length_take, frameAt]
    omega
  have length1 : (body.drop (firstViewSize config.ring (UInt64.ofNat emission.edge).toNat
      emission.size)).length = (frameAt config.rcvData config.ring
        (UInt64.ofNat emission.edge).toNat emission.size).views1.size := by
    simp only [List.length_drop, frameAt]
    omega
  rw [MsgEnd.length_bytes] at headerRead
  rw [length0] at view0Read
  rw [length1] at view1Read
  have start : config.rcvBuf.at
      (UInt64.ofNat emission.edge &&& UInt64.ofNat (config.rcvBuf.size - 1)).toNat =
        .ok (frameAt config.rcvData config.ring (UInt64.ofNat emission.edge).toNat
          emission.size).pStart := by
    have offset : (UInt64.ofNat emission.edge &&& UInt64.ofNat (config.rcvBuf.size - 1)).toNat =
        (UInt64.ofNat emission.edge).toNat % config.ring := fits.offset_eq
    rw [offset]
    exact if_pos (Nat.mod_lt _ config.ring_pos)
  have pktSize : min header.size.toNat packetSize + 2 * msgEndSize = emission.size := by omega
  have located : locateInRingBuf config.rcvBuf (UInt64.ofNat emission.edge) emission.size =
      .ok (frameAt config.rcvData config.ring (UInt64.ofNat emission.edge).toNat emission.size) :=
    locateInRingBuf_eq fits
  simp only [takeFrame, start, bind, Except.bind, headerRead, MsgEnd.ofList_bytes, pktSize,
    located, view0Read, view1Read, List.take_append_drop, pure, Except.pure]
  rw [emission.packet_eq record size]

/-- The history of frames, cut where the peer's consumption and the deliveries stand, with what
the rings and the wire hold of each part. -/
structure History (config : LinkConfig) (link : Link) (old resident fresh : List Emission) :
    Prop where
  emissions : link.emissions = old ++ resident ++ fresh
  oldChain : Chained Emission.edge Emission.size 0 old link.consumed
  residentChain : Chained Emission.edge Emission.size link.consumed resident link.delivered
  freshChain : Chained Emission.edge Emission.size link.delivered fresh link.written
  wellFormed : ∀ emission ∈ link.emissions, emission.WellFormed config
  posted : ∀ emission ∈ old ++ resident, emission.posted = true
  taken : link.taken = old.map Emission.packet
  localShown : ∀ emission ∈ resident ++ fresh,
    link.mem.Shows config.sendBuf.data config.ring emission.edge emission.record
  remoteShown : ∀ emission ∈ resident,
    link.rmt.Shows config.rcvData config.ring emission.edge emission.record
  wirePosted : ∀ transfer ∈ link.wire, transfer.emission ∈ fresh ∧ transfer.emission.posted = true
  wireSegments : ∀ transfer ∈ link.wire, ∀ write ∈ transfer.writes,
    ∃ skip, Segment config.rcvData config.ring transfer.emission.edge transfer.emission.record skip
      write.1 write.2
  wirePending : ∀ transfer ∈ link.wire, transfer.complete = true →
    Pending link.rmt config.rcvData config.ring transfer.emission.edge transfer.emission.record
      transfer.writes
  wireOrder : link.wire.Pairwise fun first second => first.emission.last ≤ second.emission.edge

/-- The flow control invariant. -/
structure Flow (config : LinkConfig) (link : Link) : Prop where
  writeEdge : link.term.sndEnd.writeEdge = UInt64.ofNat link.written
  trailingEdge : link.term.sndEnd.trailingEdge = UInt64.ofNat link.landed
  rmtBufAddr : link.term.rmtBufAddr = config.rcvData
  aligned : msgEndSize ∣ link.written
  written_le : link.written ≤ link.landed
  landed_le : link.landed ≤ config.ring + link.consumed
  published_le : link.published ≤ link.consumed
  history : ∃ old resident fresh, History config link old resident fresh

namespace Flow

variable {config : LinkConfig} {link : Link}

theorem consumed_le (flow : Flow config link) :
    link.consumed ≤ link.delivered ∧ link.delivered ≤ link.written := by
  obtain ⟨_, _, _, history⟩ := flow.history
  exact ⟨history.residentChain.le, history.freshChain.le⟩

/-- The space the sender computes is the distance of the unbounded edges: it never underflows. -/
theorem available (flow : Flow config link) :
    (link.term.sndEnd.trailingEdge - link.term.sndEnd.writeEdge).toNat =
      link.landed - link.written := by
  have := flow.written_le
  have := flow.landed_le
  have := flow.consumed_le
  have := config.ring_lt
  rw [flow.writeEdge, flow.trailingEdge, UInt64.toNat_sub, UInt64.toNat_ofNat', UInt64.toNat_ofNat']
  omega

end Flow

/-- What a thread knows that is about to put down a packet: where in which message it stands, and
that the frame has space. -/
structure EmitReady (link : Link) (next : NextPacket) (message : List UInt8) (index : ℕ) :
    Prop where
  atPacket : AtPacket link.term message index next.srcBuf
  aligned : msgAlign ∣ message.length
  pktSize : next.pktSize = min next.srcBuf.size packetSize + 2 * msgEndSize
  space : link.written + next.pktSize ≤ link.landed

section Emits

variable {config : LinkConfig} {link : Link} {next : NextPacket} {message : List UInt8}
  {index : ℕ}

theorem EmitReady.fits (ready : EmitReady link next message index) (flow : Flow config link) :
    FrameFits config.ring link.written next.pktSize where
  power := ⟨config.exponent, by have := config.small; omega, config.power⟩
  edgeAligned := flow.aligned
  sizeAligned := by
    have aligned := ready.aligned
    have srcSize := ready.atPacket.size_eq
    rw [ready.pktSize]
    simp only [msgAlign, msgEndSize, packetSize] at *
    omega
  low := by
    rw [ready.pktSize]
    omega
  high := by
    have := ready.space
    have := flow.landed_le
    have := flow.consumed_le
    omega

/-- What the history gains when a thread puts its frame down. -/
structure Emits (config : LinkConfig) (link : Link) (next : NextPacket) (message : List UInt8)
    (index : ℕ) (replies : SendReplies) (term : Terminal) (mem : Memory UInt8) (posting : Posting)
    (emission : Emission) : Prop where
  term : term = link.term.pastFrame next.pktSize
  edge : emission.edge = link.written
  size : emission.size = next.pktSize
  wellFormed : emission.WellFormed config
  packet : emission.packet = packet packetSize message index
  putDown : PutsDown link.mem mem config.sendBuf.data config.ring link.written emission.record
  outcome : (link.term.rmtMemToken = 0 ∧ posting = .closing) ∨
    (link.term.rmtMemToken ≠ 0 ∧
      WritesAnswered replies (config.ring < link.written % config.ring + next.pktSize) ∧
      posting = .posted
        (writeRequests link.term.rmtMemToken (acceptedWrites config.rcvData config.ring
          link.written emission.record replies))
        (if replies.firstHalf = ndPending then ndSuccess else replies.firstHalf))

theorem EmitReady.emits {replies : SendReplies} {term : Terminal} {mem : Memory UInt8}
    {posting : Posting} (ready : EmitReady link next message index) (flow : Flow config link)
    (emitted : link.term.emitPacket link.mem config.sendBuf next replies =
      .ok (term, mem, posting)) (posted : Bool) :
    Emits config link next message index replies term mem posting
      ({ link with term, mem }.recordFrame config next.pktSize posted) := by
  have fits := ready.fits flow
  have fits64 := config.fits_toNat fits
  have same := config.toNat_mod link.written
  rw [← flow.writeEdge] at fits64 same
  obtain ⟨termEq, record, after⟩ :=
    Terminal.emitPacket_ok ready.atPacket fits64 ready.pktSize config.aligned emitted
  obtain ⟨header, framed, isPacket, _⟩ := after.framed
  have putDown : PutsDown link.mem mem config.sendBuf.data config.ring link.written record :=
    after.putDown.congr_edge same.symm
  have recordEq : mem.ringRead config.sendBuf.data config.ring link.written next.pktSize =
      record := by
    rw [← after.length]
    exact shows_iff_ringRead.mp putDown.shown
  have recordFrame : (({ link with term, mem } : Link).recordFrame config next.pktSize
      posted).record = record := recordEq
  have bodyLength : (packet packetSize message index).body.length =
      min next.srcBuf.size packetSize := by
    rw [← ready.atPacket.body_eq, List.length_take, Nat.min_comm]
    rfl
  have headerSize : header.size.toNat = next.srcBuf.size := by
    rw [ready.atPacket.size_eq]
    exact congrArg Packet.size isPacket
  have pktSize := ready.pktSize
  refine ⟨termEq, rfl, rfl, ?_, ?_, ?_, ?_⟩
  · refine ⟨fits.edgeAligned, fits.sizeAligned, fits.high, header, _, recordEq.trans framed, ?_, ?_⟩
    · rw [bodyLength, headerSize]
    · rw [bodyLength]
      exact pktSize
  · rw [Emission.packet_eq _ (recordEq.trans framed) (by rw [bodyLength]; exact pktSize)]
    exact isPacket
  · rw [recordFrame]
    exact putDown
  · rw [recordFrame, ← acceptedWrites_congr same, ← flow.rmtBufAddr, ← same]
    exact after.outcome

/-- Putting the frame of an aligned buffer down does not abort when the provider takes the
writes. -/
theorem EmitReady.succeeds (ready : EmitReady link next message index)
    (flow : Flow config link) (replies : SendReplies) (srcAligned : 16 ∣ next.srcBuf.data)
    (region : link.term.pMemRegion.isSome) (queuePair : link.term.pQuePair.isSome)
    (second : accepted replies.secondHalf = true) (first : accepted replies.firstHalf = true) :
    ∃ result, link.term.emitPacket link.mem config.sendBuf next replies = .ok result := by
  have fits64 := config.fits_toNat (ready.fits flow)
  rw [← flow.writeEdge] at fits64
  exact Terminal.emitPacket_succeeds link.mem ready.atPacket fits64 ready.pktSize config.aligned
    srcAligned region queuePair ⟨fun _ => second, Or.inl first⟩

end Emits

theorem filterMap_writeRequests (token : UInt32) (writes : List (ℕ × List UInt8)) :
    (writeRequests token writes).filterMap Request.write? = writes := by
  simp [writeRequests, List.filterMap_map, Function.comp_def, Request.write?]

namespace History

variable {config : LinkConfig} {link : Link} {old resident fresh : List Emission}

theorem mem_emissions (history : History config link old resident fresh) {emission : Emission}
    (present : emission ∈ resident ++ fresh) : emission ∈ link.emissions := by
  rw [history.emissions, List.append_assoc]
  exact List.mem_append_right _ present

/-- The frames the peer has not consumed lie between its edge and the writing edge. -/
theorem window (history : History config link old resident fresh) {emission : Emission}
    (present : emission ∈ resident ++ fresh) :
    link.consumed ≤ emission.edge ∧ emission.edge + emission.size ≤ link.written :=
  (history.residentChain.append history.freshChain).mem_bounds present

theorem positive (history : History config link old resident fresh) :
    ∀ emission ∈ link.emissions, 0 < emission.size := by
  intro emission present
  have := (history.wellFormed emission present).low
  simp only [msgEndSize] at this
  omega

/-- Putting a frame down behind the writing edge keeps what the local ring shows. -/
theorem emitted (history : History config link old resident fresh) (flow : Flow config link)
    {next : NextPacket} {message : List UInt8} {index : ℕ} {replies : SendReplies}
    {term : Terminal} {mem : Memory UInt8} {posting : Posting} {posted : Bool}
    (ready : EmitReady link next message index)
    (emits : Emits config link next message index replies term mem posting
      ({ link with term, mem }.recordFrame config next.pktSize posted)) :
    History config ({ link with term, mem }.emitted config next.pktSize posted) old resident
      (fresh ++ [{ link with term, mem }.recordFrame config next.pktSize posted]) := by
  have landedLe := flow.landed_le
  have space := ready.space
  refine
    { emissions := by simp [Link.emitted, history.emissions]
      oldChain := history.oldChain
      residentChain := history.residentChain
      freshChain := history.freshChain.concat rfl
      wellFormed := ?_
      posted := history.posted
      taken := history.taken
      localShown := ?_
      remoteShown := history.remoteShown
      wirePosted := ?_
      wireSegments := history.wireSegments
      wirePending := history.wirePending
      wireOrder := history.wireOrder }
  · intro emission present
    rcases List.mem_append.mp present with before | new
    · exact history.wellFormed emission before
    · obtain rfl := List.mem_singleton.mp new
      exact emits.wellFormed
  · intro emission present
    rw [← List.append_assoc] at present
    rcases List.mem_append.mp present with before | new
    · have bounds := history.window before
      have wellFormed := history.wellFormed emission (history.mem_emissions before)
      have length := wellFormed.length
      have newLength := emits.wellFormed.length
      have newSize := emits.size
      exact emits.putDown.keeps link.consumed (by omega) bounds.1 (by omega)
        (history.localShown emission before)
    · obtain rfl := List.mem_singleton.mp new
      exact emits.putDown.shown
  · intro transfer present
    have := history.wirePosted transfer present
    exact ⟨List.mem_append_left _ this.1, this.2⟩

/-- The writes of a posted frame join the wire. -/
theorem posted_frame (history : History config link old resident fresh) (flow : Flow config link)
    {next : NextPacket} {message : List UInt8} {index : ℕ} {replies : SendReplies}
    {term : Terminal} {mem : Memory UInt8} {writes : List Request} {hr : HRESULT}
    (ready : EmitReady link next message index)
    (emits : Emits config link next message index replies term mem (.posted writes hr)
      ({ link with term, mem }.recordFrame config next.pktSize true)) :
    History config ({ link with term, mem }.postedFrame config next.pktSize writes
        (accepted replies.firstHalf)) old resident
      (fresh ++ [{ link with term, mem }.recordFrame config next.pktSize true]) := by
  have before := history.emitted flow ready emits
  set emission := ({ link with term, mem } : Link).recordFrame config next.pktSize true
  rcases emits.outcome with ⟨_, impossible⟩ | ⟨_, _, posting⟩
  · cases impossible
  obtain ⟨rfl, rfl⟩ := Posting.posted.inj posting
  have short : emission.record.length ≤ config.ring := by
    rw [emits.wellFormed.length]
    exact emits.wellFormed.high
  have pending : Pending link.rmt config.rcvData config.ring emission.edge emission.record
      (splitWrites config.rcvData config.ring emission.edge emission.record) :=
    pending_splitWrites link.rmt config.ring_pos short
  have subset : ∀ write ∈ acceptedWrites config.rcvData config.ring emission.edge emission.record
      replies, write ∈ splitWrites config.rcvData config.ring emission.edge emission.record := by
    intro write present
    rw [acceptedWrites] at present
    split at present
    · exact present
    · exact List.mem_of_mem_dropLast present
  refine
    { before with
      wirePosted := ?_
      wireSegments := ?_
      wirePending := ?_
      wireOrder := ?_ }
  · intro transfer present
    rcases List.mem_append.mp present with earlier | new
    · exact before.wirePosted transfer earlier
    · obtain rfl := List.mem_singleton.mp new
      exact ⟨List.mem_append_right _ List.mem_cons_self, rfl⟩
  · intro transfer present
    rcases List.mem_append.mp present with earlier | new
    · exact before.wireSegments transfer earlier
    · obtain rfl := List.mem_singleton.mp new
      rw [filterMap_writeRequests]
      exact fun write member => pending.segments write (subset write member)
  · intro transfer present complete
    rcases List.mem_append.mp present with earlier | new
    · exact before.wirePending transfer earlier complete
    · obtain rfl := List.mem_singleton.mp new
      rw [filterMap_writeRequests, acceptedWrites, if_pos complete]
      exact pending
  · refine List.pairwise_append.mpr ⟨history.wireOrder, List.pairwise_singleton _ _, ?_⟩
    intro transfer present new member
    obtain rfl := List.mem_singleton.mp member
    have inFresh := (history.wirePosted transfer present).1
    exact (history.window (List.mem_append_right _ inFresh)).2

/-- Applying a posted write keeps what the remote ring shows of the other frames. -/
theorem applied (history : History config link old resident fresh) (flow : Flow config link)
    {emission : Emission} {write : ℕ × List UInt8} {writes : List (ℕ × List UInt8)}
    {complete : Bool} {wire : List Transfer}
    (head : link.wire = ⟨emission, write :: writes, complete⟩ :: wire) :
    History config
      { link with
        rmt := link.rmt.write write.1 write.2
        wire := ⟨emission, writes, complete⟩ :: wire } old resident fresh := by
  have landedLe := flow.landed_le
  have writtenLe := flow.written_le
  have here : (⟨emission, write :: writes, complete⟩ : Transfer) ∈ link.wire := by simp [head]
  have there : ∀ transfer ∈ wire, transfer ∈ link.wire := by simp +contextual [head]
  have inFresh : emission ∈ fresh := (history.wirePosted _ here).1
  have bounds := history.window (List.mem_append_right _ inFresh)
  have wellFormed :=
    history.wellFormed emission (history.mem_emissions (List.mem_append_right _ inFresh))
  have length := wellFormed.length
  obtain ⟨skip, segment⟩ : ∃ skip, Segment config.rcvData config.ring emission.edge emission.record
      skip write.1 write.2 := history.wireSegments _ here write List.mem_cons_self
  have order := history.wireOrder
  rw [head, List.pairwise_cons] at order
  refine
    { history with
      remoteShown := ?_
      wirePosted := ?_
      wireSegments := ?_
      wirePending := ?_
      wireOrder := List.pairwise_cons.mpr ⟨order.1, order.2⟩ }
  · intro other present
    have otherBounds := history.residentChain.mem_bounds present
    have freshBounds := history.freshChain.mem_bounds inFresh
    have otherLength := (history.wellFormed other
      (history.mem_emissions (List.mem_append_left _ present))).length
    exact segment.write_shows link.consumed (by omega) (by omega) (by omega) (by omega)
      (by omega) (history.remoteShown other present)
  · intro transfer present
    rcases List.mem_cons.mp present with rfl | later
    · exact history.wirePosted ⟨emission, write :: writes, complete⟩ here
    · exact history.wirePosted _ (there _ later)
  · intro transfer present
    rcases List.mem_cons.mp present with rfl | later
    · exact fun other member => history.wireSegments _ here other (List.mem_cons_of_mem _ member)
    · exact history.wireSegments _ (there _ later)
  · intro transfer present whole
    rcases List.mem_cons.mp present with rfl | later
    · exact (history.wirePending _ here whole).write (by rw [length]; exact wellFormed.high)
    · have apart : emission.last ≤ transfer.emission.edge := order.1 transfer later
      have otherFresh := (history.wirePosted _ (there _ later)).1
      have otherBounds := history.window (List.mem_append_right _ otherFresh)
      have otherLength := (history.wellFormed transfer.emission
        (history.mem_emissions (List.mem_append_right _ otherFresh))).length
      simp only [Emission.last] at apart
      exact Pending.write_other segment link.consumed (by omega) (by omega) (by omega)
        (by omega) (by omega) (history.wirePending _ (there _ later) whole)

/-- A transfer with nothing left leaves the wire. -/
theorem lost (history : History config link old resident fresh) {transfer : Transfer}
    {wire : List Transfer} (head : link.wire = transfer :: wire) :
    History config { link with wire } old resident fresh := by
  have there : ∀ transfer ∈ wire, transfer ∈ link.wire := by simp +contextual [head]
  have order := history.wireOrder
  rw [head, List.pairwise_cons] at order
  exact
    { history with
      wirePosted := fun transfer present => history.wirePosted _ (there _ present)
      wireSegments := fun transfer present => history.wireSegments _ (there _ present)
      wirePending := fun transfer present => history.wirePending _ (there _ present)
      wireOrder := order.2 }

/-- A transfer that is complete and next in order delivers its frame. -/
theorem arrived (history : History config link old resident fresh) {emission : Emission}
    {wire : List Transfer} (head : link.wire = ⟨emission, [], true⟩ :: wire)
    (inOrder : emission.edge = link.delivered) :
    ∃ rest, fresh = emission :: rest ∧
      History config { link with wire, delivered := emission.last } old (resident ++ [emission])
        rest := by
  have here : (⟨emission, [], true⟩ : Transfer) ∈ link.wire := by simp [head]
  have there : ∀ transfer ∈ wire, transfer ∈ link.wire := by simp +contextual [head]
  have inFresh : emission ∈ fresh := (history.wirePosted _ here).1
  have order := history.wireOrder
  rw [head, List.pairwise_cons] at order
  obtain ⟨rest, rfl⟩ := history.freshChain.eq_cons
    (fun other present => history.positive other
      (history.mem_emissions (List.mem_append_right _ present))) inFresh inOrder
  have positive := history.positive emission
    (history.mem_emissions (List.mem_append_right _ List.mem_cons_self))
  have regroup : resident ++ [emission] ++ rest = resident ++ emission :: rest := by simp
  refine ⟨rest, rfl, ?_⟩
  refine
    { emissions := by
        rw [← List.append_assoc old]
        simpa using history.emissions
      oldChain := history.oldChain
      residentChain := by
        rw [Emission.last, inOrder]
        exact history.residentChain.concat inOrder
      freshChain := by
        rw [Emission.last, inOrder]
        exact history.freshChain.2
      wellFormed := history.wellFormed
      posted := ?_
      taken := history.taken
      localShown := by
        rw [regroup]
        exact history.localShown
      remoteShown := ?_
      wirePosted := ?_
      wireSegments := fun transfer present => history.wireSegments _ (there _ present)
      wirePending := fun transfer present => history.wirePending _ (there _ present)
      wireOrder := order.2 }
  · intro other present
    rw [← List.append_assoc] at present
    rcases List.mem_append.mp present with before | new
    · exact history.posted other before
    · obtain rfl := List.mem_singleton.mp new
      exact (history.wirePosted _ here).2
  · intro other present
    rcases List.mem_append.mp present with before | new
    · exact history.remoteShown other before
    · obtain rfl := List.mem_singleton.mp new
      exact (history.wirePending _ here rfl).shows
  · intro transfer present
    have posted := history.wirePosted _ (there _ present)
    refine ⟨?_, posted.2⟩
    rcases List.mem_cons.mp posted.1 with same | later
    · have apart : emission.last ≤ transfer.emission.edge := order.1 transfer present
      rw [same, Emission.last] at apart
      omega
    · exact later

/-- The peer takes the next frame it has received. -/
theorem took (history : History config link old resident fresh)
    (available : link.consumed < link.delivered) {packet : Packet UInt8} {pktSize : ℕ}
    (read : takeFrame link.rmt config.rcvBuf (UInt64.ofNat link.consumed) =
      .ok (packet, pktSize)) :
    ∃ emission rest, resident = emission :: rest ∧ packet = emission.packet ∧
      pktSize = emission.size ∧
      History config
        { link with taken := link.taken ++ [packet], consumed := link.consumed + pktSize }
        (old ++ [emission]) rest fresh := by
  cases resident with
  | nil =>
      have : link.consumed = link.delivered := history.residentChain
      omega
  | cons emission rest =>
      have first : emission.edge = link.consumed := history.residentChain.1
      have wellFormed := history.wellFormed emission
        (history.mem_emissions (List.mem_append_left _ List.mem_cons_self))
      have expected := takeFrame_eq wellFormed (history.remoteShown emission List.mem_cons_self)
      rw [← first, expected] at read
      obtain ⟨rfl, rfl⟩ := Prod.mk.inj (Except.ok.inj read)
      refine ⟨emission, rest, rfl, rfl, rfl, ?_⟩
      exact
        { emissions := by simpa using history.emissions
          oldChain := history.oldChain.concat first
          residentChain := history.residentChain.2
          freshChain := history.freshChain
          wellFormed := history.wellFormed
          posted := fun other present => history.posted other (by simpa using present)
          taken := by simp [history.taken]
          localShown := fun other present =>
            history.localShown other (List.mem_cons_of_mem _ present)
          remoteShown := fun other present =>
            history.remoteShown other (List.mem_cons_of_mem _ present)
          wirePosted := history.wirePosted
          wireSegments := history.wireSegments
          wirePending := history.wirePending
          wireOrder := history.wireOrder }

/-- The history does not depend on the threads, the terminal and the ledgers of requests. -/
theorem frame (history : History config link old resident fresh) {link' : Link}
    (mem : link'.mem = link.mem) (rmt : link'.rmt = link.rmt) (wire : link'.wire = link.wire)
    (taken : link'.taken = link.taken) (delivered : link'.delivered = link.delivered)
    (consumed : link'.consumed = link.consumed) (written : link'.written = link.written)
    (emissions : link'.emissions = link.emissions) :
    History config link' old resident fresh := by
  exact
    { emissions := by rw [emissions]; exact history.emissions
      oldChain := by rw [consumed]; exact history.oldChain
      residentChain := by rw [consumed, delivered]; exact history.residentChain
      freshChain := by rw [delivered, written]; exact history.freshChain
      wellFormed := by rw [emissions]; exact history.wellFormed
      posted := history.posted
      taken := by rw [taken]; exact history.taken
      localShown := by rw [mem]; exact history.localShown
      remoteShown := by rw [rmt]; exact history.remoteShown
      wirePosted := by rw [wire]; exact history.wirePosted
      wireSegments := by rw [wire]; exact history.wireSegments
      wirePending := by rw [wire, rmt]; exact history.wirePending
      wireOrder := by rw [wire]; exact history.wireOrder }

end History

namespace Flow

variable {config : LinkConfig} {link link' : Link}

/-- Flow control does not depend on the threads and the ledgers of requests. -/
theorem frame (flow : Flow config link) (sndEnd : link'.term.sndEnd = link.term.sndEnd)
    (rmtBufAddr : link'.term.rmtBufAddr = link.term.rmtBufAddr)
    (landed : link'.landed = link.landed) (published : link'.published = link.published)
    (mem : link'.mem = link.mem) (rmt : link'.rmt = link.rmt) (wire : link'.wire = link.wire)
    (taken : link'.taken = link.taken) (delivered : link'.delivered = link.delivered)
    (consumed : link'.consumed = link.consumed) (written : link'.written = link.written)
    (emissions : link'.emissions = link.emissions) : Flow config link' := by
  obtain ⟨old, resident, fresh, history⟩ := flow.history
  exact
    { writeEdge := by rw [sndEnd, written]; exact flow.writeEdge
      trailingEdge := by rw [sndEnd, landed]; exact flow.trailingEdge
      rmtBufAddr := by rw [rmtBufAddr]; exact flow.rmtBufAddr
      aligned := by rw [written]; exact flow.aligned
      written_le := by rw [written, landed]; exact flow.written_le
      landed_le := by rw [landed, consumed]; exact flow.landed_le
      published_le := by rw [published, consumed]; exact flow.published_le
      history := ⟨old, resident, fresh,
        history.frame mem rmt wire taken delivered consumed written emissions⟩ }

theorem start (started : (linkMachine config).start link) : Flow config link := by
  obtain ⟨terminal, mem, rmt, prepared, rfl⟩ := started
  refine
    { writeEdge := by simp [prepared.sndEnd]
      trailingEdge := by simp [prepared.sndEnd]
      rmtBufAddr := prepared.rmtBufAddr
      aligned := by simp
      written_le := Nat.zero_le _
      landed_le := le_rfl
      published_le := le_rfl
      history := ⟨[], [], [], ?_⟩ }
  constructor <;> simp [Chained]

/-- A thread that puts a frame down stays inside the space the peer has granted. -/
theorem emitted (flow : Flow config link) {next : NextPacket} {message : List UInt8}
    {index : ℕ} {replies : SendReplies} {term : Terminal} {mem : Memory UInt8} {posting : Posting}
    {emission : Emission} (ready : EmitReady link next message index)
    (emits : Emits config link next message index replies term mem posting emission)
    (sndEnd : link'.term.sndEnd = term.sndEnd)
    (rmtBufAddr : link'.term.rmtBufAddr = term.rmtBufAddr)
    (written : link'.written = link.written + next.pktSize) (landed : link'.landed = link.landed)
    (consumed : link'.consumed = link.consumed) (published : link'.published = link.published)
    (history : ∃ old resident fresh, History config link' old resident fresh) :
    Flow config link' where
  writeEdge := by
    rw [sndEnd, emits.term, written, UInt64.ofNat_add, ← flow.writeEdge]
    rfl
  trailingEdge := by
    rw [sndEnd, emits.term, landed]
    exact flow.trailingEdge
  rmtBufAddr := by
    rw [rmtBufAddr, emits.term]
    exact flow.rmtBufAddr
  aligned := by
    rw [written]
    exact (Nat.dvd_add_right flow.aligned).mpr (ready.fits flow).sizeAligned
  written_le := by
    rw [written, landed]
    exact ready.space
  landed_le := by
    rw [landed, consumed]
    exact flow.landed_le
  published_le := by
    rw [published, consumed]
    exact flow.published_le
  history := history

/-- A thread's step keeps flow control, given what it knows when it puts a packet down. -/
theorem run (flow : Flow config link) {thread : ℕ} {replies : SendReplies}
    (ready : ∀ {next rest}, link.threads thread = .emitting next :: rest →
      ∃ message index, EmitReady link next message index)
    (ran : RunStep config link thread replies link') : Flow config link' := by
  obtain ⟨old, resident, fresh, history⟩ := flow.history
  cases ran with
  | dropped stack emitted =>
      obtain ⟨message, index, ready⟩ := ready stack
      have emits := ready.emits flow emitted false
      exact flow.emitted ready emits rfl rfl rfl rfl rfl rfl
        ⟨old, resident, _, (history.emitted flow ready emits).frame rfl rfl rfl rfl rfl rfl rfl rfl⟩
  | posted stack emitted =>
      obtain ⟨message, index, ready⟩ := ready stack
      have emits := ready.emits flow emitted true
      exact flow.emitted ready emits rfl rfl rfl rfl rfl rfl
        ⟨old, resident, _,
          (history.posted_frame flow ready emits).frame rfl rfl rfl rfl rfl rfl rfl rfl⟩
  | _ => exact flow.frame rfl rfl rfl rfl rfl rfl rfl rfl rfl rfl rfl rfl

/-- Every step keeps flow control. -/
theorem step (flow : Flow config link) {action : LinkAction}
    (ready : ∀ {thread next rest}, link.threads thread = .emitting next :: rest →
      ∃ message index, EmitReady link next message index)
    (stepped : LinkStep config link action link') : Flow config link' := by
  obtain ⟨old, resident, fresh, history⟩ := flow.history
  cases stepped with
  | run ran => exact flow.run ready ran
  | applied head =>
      exact { flow with history := ⟨old, resident, fresh, history.applied flow head⟩ }
  | arrived head inOrder =>
      obtain ⟨rest, _, after⟩ := history.arrived head inOrder
      exact { flow with history := ⟨old, _, rest, after⟩ }
  | lost head _ => exact { flow with history := ⟨old, resident, fresh, history.lost head⟩ }
  | took available read =>
      obtain ⟨emission, rest, _, _, _, after⟩ := history.took available read
      have landedLe := flow.landed_le
      have publishedLe := flow.published_le
      exact
        { flow with
          landed_le := by simp only; omega
          published_le := by simp only; omega
          history := ⟨_, rest, fresh, after⟩ }
  | published =>
      exact
        { flow with
          published_le := le_rfl
          history := ⟨old, resident, fresh, history.frame rfl rfl rfl rfl rfl rfl rfl rfl⟩ }
  | landed forward bound =>
      have writtenLe := flow.written_le
      exact
        { flow with
          trailingEdge := rfl
          written_le := by simp only; omega
          landed_le := bound
          history := ⟨old, resident, fresh, history.frame rfl rfl rfl rfl rfl rfl rfl rfl⟩ }
  | _ => exact flow.frame rfl rfl rfl rfl rfl rfl rfl rfl rfl rfl rfl rfl

end Flow

end Hermes
