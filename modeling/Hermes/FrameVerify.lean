import Hermes.SendChecks

/-!
# Every frame verifies

The receiver of a frame compares header and footer and computes the checksum again, with
the read-only `ComputeCRC` over the two views of the payload.  `CopyAgrees` says that the
copying `ComputeCRC` and the read-only one end with the same accumulators, `FrameVerifies`
that a frame in a ring passes.  `frames_verify` has the first for all aligned copies, and
the second for all frames `ProcessSendQ` puts down, in any copy of the ring.
-/

namespace Hermes

open Memory Packets

/-- `ComputeCRC` without a destination. -/
def computeCRCOf (buf : Buf) (leftcrc rightcrc : UInt32) : Except Abort (UInt32 × UInt32) := do
  let size := buf.size
  auditAssert (size &&& 15 = 0) "Need size alignment to 128b boundary for crc computation"
  auditAssert (buf.data &&& 15 = 0) "Need address alignment to 128b boundary for crc computation"
  let (l, r) := sampleLines (size / 64) buf.bytes (leftcrc.toUInt64, rightcrc.toUInt64)
  return (l.toUInt32, r.toUInt32)

/-- The bytes of a span as a buffer to read. -/
def Span.load (span : Span) (memory : Memory UInt8) : Buf :=
  ⟨span.data, memory.read span.data span.size⟩

/-- `MsgEnd::Crc` of two accumulators. -/
def crcOf (leftcrc rightcrc : UInt32) : UInt64 := leftcrc.toUInt64 <<< 32 ||| rightcrc.toUInt64

/-- The copy has the source's bytes, changes no others, and ends with the accumulators of the
source and of the copy. -/
structure CopyAgrees (dst : Span) (src : Buf) (memory : Memory UInt8) (leftcrc rightcrc : UInt32)
    (after : Memory UInt8) (left right : UInt32) : Prop where
  copied : computeCRC dst src memory leftcrc rightcrc = .ok (after, left, right)
  bytes : after.read dst.data src.size = src.bytes
  beyond : ∀ place, place < dst.data ∨ dst.data + src.size ≤ place → after place = memory place
  source : computeCRCOf src leftcrc rightcrc = .ok (left, right)
  destination : computeCRCOf (Span.load ⟨dst.data, src.size⟩ after) leftcrc rightcrc =
    .ok (left, right)

/-- The frame at an edge of a ring, of the size its header tells, has equal header and footer and
the checksum of its payload. -/
structure FrameVerifies (memory : Memory UInt8) (ring : Span) (edge : UInt64) (header : MsgEnd)
    (frame : DFrame) : Prop where
  located : locateInRingBuf ring edge
    (min header.size.toNat packetSize + 2 * msgEndSize) = .ok frame
  atStart : memory.read frame.pStart msgEndSize = header.bytes
  atEnd : memory.read frame.pEnd msgEndSize = header.bytes
  crc : ∃ left right left' right',
    computeCRCOf (frame.views0.load memory) 0 0 = .ok (left, right) ∧
      computeCRCOf (frame.views1.load memory) left right = .ok (left', right') ∧
        header.crc = crcOf left' right'

/-- Another memory has the same ring at another place. -/
def SameRing (memory other : Memory UInt8) (data base ring : ℕ) : Prop :=
  ∀ position < ring, other (base + position) = memory (data + position)

section Copy

theorem aligned_iff (value : ℕ) : value &&& 15 = 0 ↔ 16 ∣ value := by
  have mask : value &&& 15 = value % 16 := Nat.and_two_pow_sub_one_eq_mod value 4
  rw [mask, Nat.dvd_iff_mod_eq_zero]

/-- The read-only checksum of an aligned buffer. -/
theorem computeCRCOf_eq {buf : Buf} (leftcrc rightcrc : UInt32) (size : 16 ∣ buf.size)
    (data : 16 ∣ buf.data) :
    computeCRCOf buf leftcrc rightcrc =
      .ok ((sampleLines (buf.size / 64) buf.bytes (leftcrc.toUInt64, rightcrc.toUInt64)).1.toUInt32,
        (sampleLines (buf.size / 64) buf.bytes
          (leftcrc.toUInt64, rightcrc.toUInt64)).2.toUInt32) := by
  simp only [computeCRCOf]
  rw [auditAssert_of ((aligned_iff _).mpr size), auditAssert_of ((aligned_iff _).mpr data)]
  rfl

/-- The address only matters for the alignment. -/
theorem computeCRCOf_congr {buf : Buf} (data : ℕ) (leftcrc rightcrc : UInt32)
    (size : 16 ∣ buf.size) (aligned : 16 ∣ buf.data) (aligned' : 16 ∣ data) :
    computeCRCOf ⟨data, buf.bytes⟩ leftcrc rightcrc = computeCRCOf buf leftcrc rightcrc := by
  rw [computeCRCOf_eq leftcrc rightcrc size aligned]
  exact computeCRCOf_eq leftcrc rightcrc size aligned'

/-- A copy of an aligned buffer agrees with the read-only checksums. -/
theorem copy_agrees (dst : Span) (src : Buf) (memory : Memory UInt8) (leftcrc rightcrc : UInt32)
    (sizeAligned : 16 ∣ src.size) (room : src.size ≤ dst.size) (srcAligned : 16 ∣ src.data)
    (dstAligned : 16 ∣ dst.data) :
    ∃ after left right, CopyAgrees dst src memory leftcrc rightcrc after left right := by
  have bytes : (memory.write dst.data src.bytes).read dst.data src.size = src.bytes :=
    read_write_same memory dst.data src.bytes
  have source := computeCRCOf_eq leftcrc rightcrc sizeAligned srcAligned
  refine ⟨memory.write dst.data src.bytes, _, _,
    computeCRC_eq dst src memory leftcrc rightcrc sizeAligned room srcAligned dstAligned, bytes,
    fun _ => write_outside memory, source, ?_⟩
  simp only [Span.load, bytes]
  exact (computeCRCOf_congr dst.data leftcrc rightcrc sizeAligned srcAligned dstAligned).trans
    source

/-- What a copy that fails no assertion does. -/
theorem CopyAgrees.of_ok {dst : Span} {src : Buf} {memory after : Memory UInt8}
    {leftcrc rightcrc left right : UInt32}
    (copied : computeCRC dst src memory leftcrc rightcrc = .ok (after, left, right)) :
    CopyAgrees dst src memory leftcrc rightcrc after left right := by
  rcases computeCRC_ok copied with ⟨sizeAligned, room, srcAligned, dstAligned⟩
  rcases copy_agrees dst src memory leftcrc rightcrc sizeAligned room srcAligned dstAligned with
    ⟨after', left', right', agrees⟩
  rcases Except.ok.inj (copied.symm.trans agrees.copied) with ⟨rfl, rfl, rfl⟩
  exact agrees

/-- The accumulators of the source do not depend on its address. -/
theorem CopyAgrees.anywhere {dst : Span} {src : Buf} {memory after : Memory UInt8}
    {leftcrc rightcrc left right : UInt32}
    (agrees : CopyAgrees dst src memory leftcrc rightcrc after left right) (address : ℕ)
    (aligned : 16 ∣ address) :
    computeCRCOf ⟨address, src.bytes⟩ leftcrc rightcrc = .ok (left, right) := by
  rcases computeCRC_ok agrees.copied with ⟨sizeAligned, _, srcAligned, _⟩
  rw [← agrees.source]
  exact computeCRCOf_congr address leftcrc rightcrc sizeAligned srcAligned aligned

theorem computeCRC_writes {dst : Span} {src : Buf} {memory after : Memory UInt8}
    {leftcrc rightcrc left right : UInt32}
    (copied : computeCRC dst src memory leftcrc rightcrc = .ok (after, left, right)) :
    after = memory.write dst.data src.bytes := by
  rcases computeCRC_ok copied with ⟨sizeAligned, room, srcAligned, dstAligned⟩
  have written :=
    computeCRC_eq dst src memory leftcrc rightcrc sizeAligned room srcAligned dstAligned
  rcases Except.ok.inj (copied.symm.trans written) with ⟨rfl, rfl, rfl⟩
  rfl

end Copy

section Frames

variable {data ring pktSize : ℕ} {terminal terminal' : Terminal} {memory after : Memory UInt8}
  {srcBuf : Buf} {frame : DFrame}

/-- What a frame that is put down shows in its ring: header, payload and footer, with the checksum
of the payload. -/
structure Checked (memory : Memory UInt8) (data ring edge pktSize : ℕ) (srcBuf : Buf)
    (header : MsgEnd) (body : List UInt8) : Prop where
  length : body.length = pktSize - 2 * msgEndSize
  shown : memory.Shows data ring edge (frameRecord header body)
  size : header.size = UInt32.ofNat srcBuf.size
  crc : ∃ left right left' right',
    (∀ address, 16 ∣ address →
      computeCRCOf ⟨address, body.take (firstViewSize ring edge pktSize)⟩ 0 0 = .ok (left, right)) ∧
    (∀ address, 16 ∣ address →
      computeCRCOf ⟨address, body.drop (firstViewSize ring edge pktSize)⟩ left right =
        .ok (left', right')) ∧ header.crc = crcOf left' right'

/-- Putting a frame down. -/
theorem Terminal.putDown_checked (fits : FrameFits ring terminal.sndEnd.writeEdge.toNat pktSize)
    (size : pktSize = min srcBuf.size packetSize + 2 * msgEndSize)
    (put : terminal.putDown memory ⟨data, ring⟩ srcBuf pktSize = .ok (terminal', after, frame)) :
    ∃ header body, Checked after data ring terminal.sndEnd.writeEdge.toNat pktSize srcBuf header
      body := by
  have viewLe : firstViewSize ring terminal.sndEnd.writeEdge.toNat pktSize ≤
      pktSize - 2 * msgEndSize := Nat.min_le_left _ _
  have sourceLength : srcBuf.bytes.length = srcBuf.size := rfl
  have bodyLe : pktSize - 2 * msgEndSize ≤ srcBuf.size := by omega
  simp only [Terminal.putDown, bind_eq_ok, locateInRingBuf_eq fits, pure, Except.pure,
    Except.ok.injEq] at put
  rcases put with ⟨sequence, _, located, rfl, source0, taken0, ⟨memory0, left, right⟩, copied0,
    source1, taken1, ⟨memory1, left', right'⟩, copied1, final⟩
  simp only [Prod.mk.injEq] at final
  rcases final with ⟨_, rfl, _⟩
  set first := firstViewSize ring terminal.sndEnd.writeEdge.toNat pktSize with firstDef
  set body := srcBuf.bytes.take (pktSize - 2 * msgEndSize) with bodyDef
  have length : body.length = pktSize - 2 * msgEndSize := by
    simp only [bodyDef, List.length_take]
    omega
  have views0 : (frameAt data ring terminal.sndEnd.writeEdge.toNat pktSize).views0.size = first :=
    rfl
  have views1 : (frameAt data ring terminal.sndEnd.writeEdge.toNat pktSize).views1.size =
      pktSize - 2 * msgEndSize - first := rfl
  have sourceEq0 : source0 = ⟨srcBuf.data, body.take first⟩ := by
    rw [views0, Buf.subspan, if_pos (by omega)] at taken0
    rw [← Except.ok.inj taken0, bodyDef, List.take_take, Nat.min_eq_left viewLe]
    rfl
  have sourceEq1 : source1 = ⟨srcBuf.data + first, body.drop first⟩ := by
    rw [views0, views1, Buf.subspan, if_pos (by omega)] at taken1
    rw [← Except.ok.inj taken1, bodyDef, List.drop_take]
  subst sourceEq0 sourceEq1
  have written0 := computeCRC_writes copied0
  have written1 := computeCRC_writes copied1
  let header : MsgEnd :=
    { crc := crcOf left' right'
      size := UInt32.ofNat srcBuf.size
      seq := sequence
      type := if sequence = 0 then .single else .multi }
  have isRecord := isRecord_frameRecord header length
  have putsDown := PutsDown.of_pending (by rw [isRecord.length fits.low]; exact fits.high)
    (fits.pending data isRecord memory)
  have source0 := (CopyAgrees.of_ok copied0).anywhere
  have source1 := (CopyAgrees.of_ok copied1).anywhere
  refine ⟨header, body, length, ?_, rfl, left, right, left', right', source0, source1, rfl⟩
  have shown := putsDown.shown
  simp only [List.foldl_cons, List.foldl_nil] at shown
  rw [← written0, ← written1] at shown
  rw [read_write_header]
  exact shown

/-- A frame that is put down verifies in every copy of its ring. -/
theorem Checked.verifies {edge : UInt64} {header : MsgEnd} {body : List UInt8}
    (checked : Checked memory data ring edge.toNat pktSize srcBuf header body)
    (fits : FrameFits ring edge.toNat pktSize)
    (size : pktSize = min srcBuf.size packetSize + 2 * msgEndSize)
    (small : srcBuf.size ≤ maxMsgSize) {base : ℕ} (baseAligned : 16 ∣ base)
    {other : Memory UInt8} (same : SameRing memory other data base ring) :
    FrameVerifies other ⟨base, ring⟩ edge header (frameAt base ring edge.toNat pktSize) := by
  have low := fits.low
  have high := fits.high
  have length := checked.length
  have positive : 0 < ring := by
    simp only [msgEndSize] at low
    omega
  have viewLe : firstViewSize ring edge.toNat pktSize ≤ pktSize - 2 * msgEndSize :=
    Nat.min_le_left _ _
  have sizeAligned := fits.sizeAligned
  have offsetAligned := fits.offsetAligned
  have ringAligned := fits.ringAligned
  have shown : other.Shows base ring edge.toNat (frameRecord header body) := by
    intro offset inside
    rw [← checked.shown offset inside]
    exact same _ (Nat.mod_lt _ positive)
  have isRecord := isRecord_frameRecord header length
  have told : header.size.toNat = srcBuf.size := by
    rw [checked.size, UInt32.toNat_ofNat_of_lt']
    simp only [maxMsgSize, UInt32.size] at *
    omega
  have atStart := shown.read_segment (fits.header_segment base isRecord)
  have atEnd := shown.read_segment (fits.footer_segment base isRecord)
  have views0 := shown.read_segment (fits.views0_segment base isRecord)
  have views1 := shown.read_segment (fits.views1_segment base isRecord)
  rw [header.length_bytes] at atStart atEnd
  have size0 : (body.take (firstViewSize ring edge.toNat pktSize)).length =
      (frameAt base ring edge.toNat pktSize).views0.size := by
    simp only [List.length_take, length, frameAt]
    omega
  have size1 : (body.drop (firstViewSize ring edge.toNat pktSize)).length =
      (frameAt base ring edge.toNat pktSize).views1.size := by
    simp only [List.length_drop, length, frameAt]
  rw [size0] at views0
  rw [size1] at views1
  rcases checked.crc with ⟨left, right, left', right', first, second, crc⟩
  refine ⟨?_, atStart, atEnd, left, right, left', right', ?_, ?_, crc⟩
  · rw [told, ← size]
    exact locateInRingBuf_eq fits
  · rw [Span.load, views0]
    apply first
    simp only [frameAt, msgEndSize] at *
    omega
  · rw [Span.load, views1]
    exact second base baseAligned

/-- The frame at the edge verifies in every copy of the ring. -/
def VerifiesInCopies (memory : Memory UInt8) (data ring : ℕ) (edge : UInt64) : Prop :=
  ∀ (base : ℕ) (other : Memory UInt8), 16 ∣ base → SameRing memory other data base ring →
    ∃ header frame, FrameVerifies other ⟨base, ring⟩ edge header frame

/-- The frame a loop turn puts down, for any ring and any edge where it fits. -/
theorem Terminal.emitPacket_verifies {next : NextPacket} {replies : SendReplies}
    {posting : Posting} (fits : FrameFits ring terminal.sndEnd.writeEdge.toNat next.pktSize)
    (size : next.pktSize = min next.srcBuf.size packetSize + 2 * msgEndSize)
    (small : next.srcBuf.size ≤ maxMsgSize)
    (emitted : terminal.emitPacket memory ⟨data, ring⟩ next replies =
      .ok (terminal', after, posting)) :
    VerifiesInCopies after data ring terminal.sndEnd.writeEdge := by
  simp only [Terminal.emitPacket, bind_eq_ok] at emitted
  rcases emitted with ⟨⟨middle, memory', frame⟩, put, posted⟩
  have unchanged : memory' = after := by
    split at posted
    · simp only [pure, Except.pure, Except.ok.injEq, Prod.mk.injEq] at posted
      exact posted.2.1
    · simp only [bind_eq_ok, pure, Except.pure, Except.ok.injEq, Prod.mk.injEq] at posted
      rcases posted with ⟨_, _, _, same, _⟩
      exact same
  subst unchanged
  rcases Terminal.putDown_checked fits size put with ⟨header, body, checked⟩
  intro base other baseAligned same
  exact ⟨header, _, checked.verifies fits size small baseAligned same⟩

end Frames

section Reachable

variable {config : LinkConfig} {link : Link} {thread : ℕ} {next : NextPacket}
  {rest : List Activation} {replies : SendReplies} {term : Terminal} {after : Memory UInt8}
  {posting : Posting}

/-- The frame a connection puts down verifies in every copy of its ring. -/
theorem Link.emitPacket_verifies (reachable : (linkMachine config).Reachable AnyAction link)
    (stackEq : link.threads thread = .emitting next :: rest)
    (emitted : link.term.emitPacket link.mem config.sendBuf next replies =
      .ok (term, after, posting)) :
    VerifiesInCopies after config.sendBuf.data config.ring link.term.sndEnd.writeEdge := by
  rcases equipped_invariant reachable with ⟨flow, discipline, _⟩
  rcases discipline.owned stackEq rfl with ⟨_, _, serves, _⟩
  rcases serves.emitReady with ⟨index, _, _, ready⟩
  have fits := config.fits_toNat (ready.fits flow)
  rw [← flow.writeEdge] at fits
  have small : next.srcBuf.size ≤ maxMsgSize := by
    have size := ready.atPacket.size_eq
    have message := ready.atPacket.small
    omega
  exact Terminal.emitPacket_verifies fits ready.pktSize small emitted

/-- The copying and the read-only checksum agree on every aligned payload; every frame that fits
its ring verifies in every copy of the ring; and the frames a connection puts down do fit. -/
theorem frames_verify (config : LinkConfig) :
    (∀ (dst : Span) (src : Buf) (memory : Memory UInt8) (leftcrc rightcrc : UInt32),
      16 ∣ src.size → src.size ≤ dst.size → 16 ∣ src.data → 16 ∣ dst.data →
        ∃ after left right, CopyAgrees dst src memory leftcrc rightcrc after left right) ∧
    (∀ (terminal terminal' : Terminal) (memory after : Memory UInt8) (data ring : ℕ)
      (next : NextPacket) (replies : SendReplies) (posting : Posting),
      FrameFits ring terminal.sndEnd.writeEdge.toNat next.pktSize →
      next.pktSize = min next.srcBuf.size packetSize + 2 * msgEndSize →
      next.srcBuf.size ≤ maxMsgSize →
      terminal.emitPacket memory ⟨data, ring⟩ next replies = .ok (terminal', after, posting) →
        VerifiesInCopies after data ring terminal.sndEnd.writeEdge) ∧
    (∀ (link : Link) (thread : ℕ) (next : NextPacket) (rest : List Activation)
      (replies : SendReplies) (term : Terminal) (after : Memory UInt8) (posting : Posting),
      (linkMachine config).Reachable AnyAction link →
      link.threads thread = .emitting next :: rest →
      link.term.emitPacket link.mem config.sendBuf next replies = .ok (term, after, posting) →
        VerifiesInCopies after config.sendBuf.data config.ring link.term.sndEnd.writeEdge) := by
  refine ⟨copy_agrees, ?_, ?_⟩
  · intro terminal terminal' memory after data ring next replies posting fits size small emitted
    exact Terminal.emitPacket_verifies fits size small emitted
  · intro link thread next rest replies term after posting reachable stackEq emitted
    exact Link.emitPacket_verifies reachable stackEq emitted

/-- The frame of a message of 64 bytes whose payload passes the end of the ring. -/
theorem frames_verify_wrapped :
    ∃ after : Memory UInt8, VerifiesInCopies after 0x201000 4096 4032 := by
  rcases wrappedPacket_emitting with ⟨link, reachable, stackEq, writeEdge, _⟩
  have reached : (linkMachine pageRing).Reachable AnyAction link := reachable.mono fun _ => trivial
  have answered : ∃ result,
      link.term.emitPacket link.mem pageRing.sendBuf wrappedPacket {} = .ok result :=
    emitPacket_total reached stackEq (filledReq_aligned 64 0x42) (.inl rfl) rfl
  rcases answered with ⟨⟨term, after, posting⟩, emitted⟩
  have verifies :=
    (frames_verify pageRing).2.2 link 0 wrappedPacket [] {} term after posting reached
    stackEq emitted
  rw [writeEdge] at verifies
  exact ⟨after, verifies⟩

end Reachable

end Hermes
