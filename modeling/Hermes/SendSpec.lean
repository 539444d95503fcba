import Hermes.SendQueue
import Hermes.Base.Packets

/-!
# What one loop turn of `ProcessSendQ` does

Each function of `Hermes.SendQueue` gets one statement that says everything it can
do on a terminal whose edges are aligned.  `emitPacket_ok` is the one the rest uses:
a turn that does not abort shows, in the local ring at the old writing edge, the
frame of the packet the canonical encoding has at the current index, changes no
other byte, and posts writes that are segments of this frame.
-/

namespace Hermes

open Memory Packets

/-- The frame record of a header and a payload. -/
def frameRecord (header : MsgEnd) (body : List UInt8) : List UInt8 :=
  header.bytes ++ body ++ header.bytes

/-- The packet a header and a payload stand for. -/
def packetOf (header : MsgEnd) (body : List UInt8) : Packet UInt8 where
  seq := header.seq.toInt
  size := header.size.toNat
  body := body

theorem packetSize_pos : 0 < packetSize := by decide

@[simp]
theorem MsgEnd.length_bytes (msgEnd : MsgEnd) : msgEnd.bytes.length = msgEndSize := by
  simp [MsgEnd.bytes, msgEndSize]

/-- A header read back from its bytes. -/
@[simp]
theorem MsgEnd.ofList_bytes (msgEnd : MsgEnd) : MsgEnd.ofList msgEnd.bytes = msgEnd := by
  have crc : msgEnd.bytes.take 8 = toBytes 8 msgEnd.crc.toNat := by
    simp [MsgEnd.bytes, List.append_assoc]
  have size : (msgEnd.bytes.drop 8).take 4 = toBytes 4 msgEnd.size.toNat := by
    simp [MsgEnd.bytes, List.append_assoc]
  have seq : (msgEnd.bytes.drop 12).take 2 = toBytes 2 msgEnd.seq.toUInt16.toNat := by
    simp [MsgEnd.bytes, List.append_assoc, List.take_append, List.drop_append]
  have type : (msgEnd.bytes.drop 14).take 2 = toBytes 2 msgEnd.type.code := by
    have front : (toBytes 8 msgEnd.crc.toNat ++ toBytes 4 msgEnd.size.toNat ++
        toBytes 2 msgEnd.seq.toUInt16.toNat).length = 14 := by simp
    rw [MsgEnd.bytes, List.drop_append_of_le_length (by simp), ← front, List.drop_length,
      List.nil_append, List.take_of_length_le (by simp)]
  have crcSmall := msgEnd.crc.toNat_lt
  have sizeSmall := msgEnd.size.toNat_lt
  have seqSmall := msgEnd.seq.toUInt16.toNat_lt
  have codeSmall : msgEnd.type.code < 2 := by cases msgEnd.type <;> decide
  rw [MsgEnd.ofList, crc, size, seq, type, ofBytes_toBytes_of_lt (by omega),
    ofBytes_toBytes_of_lt (by omega), ofBytes_toBytes_of_lt (by omega),
    ofBytes_toBytes_of_lt (by omega)]
  cases kind : msgEnd.type <;> simp [MsgType.code, ← kind]

theorem read_write_header (memory : Memory UInt8) (place : ℕ) (header : MsgEnd) :
    (memory.write place header.bytes).read place msgEndSize = header.bytes := by
  have := read_write_same memory place header.bytes
  rwa [MsgEnd.length_bytes] at this

theorem isRecord_frameRecord (header : MsgEnd) {size : ℕ} {body : List UInt8}
    (length : body.length = size - 2 * msgEndSize) :
    IsRecord size header.bytes body header.bytes :=
  ⟨header.length_bytes, length, header.length_bytes⟩

/-- The terminal is at packet `index` of `message`, and `srcBuf` is what is left of it. -/
structure AtPacket (terminal : Terminal) (message : List UInt8) (index : ℕ) (srcBuf : Buf) :
    Prop where
  idx : terminal.mSndIdx.toInt = index
  more : index < count packetSize message
  small : message.length ≤ maxMsgSize
  src : srcBuf.bytes = message.drop (index * packetSize)

namespace AtPacket

variable {terminal : Terminal} {message : List UInt8} {index : ℕ} {srcBuf : Buf}

theorem size_eq (atPacket : AtPacket terminal message index srcBuf) :
    srcBuf.size = message.length - index * packetSize := by
  rw [Buf.size, atPacket.src, List.length_drop]

/-- The loop goes on to another packet exactly when the encoding has one. -/
theorem size_gt_iff (atPacket : AtPacket terminal message index srcBuf) :
    packetSize < srcBuf.size ↔ index + 1 < count packetSize message := by
  rw [atPacket.size_eq, succ_lt_count_iff packetSize_pos]
  simp only [packetSize]
  omega

/-- No message the library admits has too many packets for the sequence number. -/
theorem count_lt (atPacket : AtPacket terminal message index srcBuf) :
    count packetSize message < int16Max := by
  have := atPacket.small
  simp only [count, packetSize, int16Max, maxMsgSize] at *
  omega

/-- The sequence number is that of the encoding, and its assertion holds. -/
theorem sequenceNumber_eq (atPacket : AtPacket terminal message index srcBuf) :
    ∃ sequence, terminal.sequenceNumber srcBuf = .ok sequence ∧
      sequence.toInt = (packet packetSize message index).seq := by
  have few := atPacket.count_lt
  have idx := atPacket.idx
  rcases Nat.eq_zero_or_pos index with rfl | later
  · have zero : terminal.mSndIdx = 0 := Int16.toInt_inj.mp (by simpa using idx)
    have size : srcBuf.size = message.length := by simpa using atPacket.size_eq
    by_cases long : packetSize < message.length
    · have many : count packetSize message ≠ 1 := by
        rw [Ne, count_eq_one_iff packetSize_pos]
        omega
      have number : (message.length + packetSize - 1) / packetSize = count packetSize message := by
        have := count_pos packetSize message
        simp only [count] at *
        omega
      have range : count packetSize message < int16Max ∧ count packetSize message > 1 := by
        have := count_pos packetSize message
        omega
      refine ⟨0 - Int16.ofNat (count packetSize message), ?_, ?_⟩
      · simp only [Terminal.sequenceNumber, zero, size, number, gt_iff_lt, long, and_self, if_true]
        rw [auditAssert_of range]
        rfl
      · simp only [int16Max] at few
        rw [Int16.toInt_sub, Int16.toInt_ofNat_of_lt (by omega)]
        simp only [packet, if_true, many, if_false, Int16.toInt_zero, Int.bmod]
        omega
    · refine ⟨0, ?_, ?_⟩
      · simp only [Terminal.sequenceNumber, zero, size, gt_iff_lt, long, and_false, if_false]
        rfl
      · have single : count packetSize message = 1 :=
          (count_eq_one_iff packetSize_pos message).mpr (by omega)
        simp [packet, single]
  · have nonzero : terminal.mSndIdx ≠ 0 := by
      rintro zero
      rw [zero, Int16.toInt_zero] at idx
      omega
    refine ⟨terminal.mSndIdx, ?_, ?_⟩
    · simp only [Terminal.sequenceNumber, nonzero, false_and, if_false]
      rfl
    · have notFirst : index ≠ 0 := by omega
      simp [packet, notFirst, idx]

/-- The payload of the next frame is the body of the packet. -/
theorem body_eq (atPacket : AtPacket terminal message index srcBuf) :
    srcBuf.bytes.take packetSize = (packet packetSize message index).body := by
  rw [atPacket.src]
  rfl

end AtPacket

/-- The head of a loop turn at packet `index` of the request at the back. -/
theorem Terminal.nextPacket_eq {terminal : Terminal} {req : SndReq} {index : ℕ}
    (back : terminal.sndQue.getLast? = some req) (idx : terminal.mSndIdx.toInt = index)
    (more : index < count packetSize req.buf.bytes) (small : req.buf.size ≤ maxMsgSize) :
    ∃ srcBuf, AtPacket terminal req.buf.bytes index srcBuf ∧
      srcBuf.data = req.buf.data + index * packetSize ∧
      terminal.nextPacket =
        .ok (if min srcBuf.size packetSize + 2 * msgEndSize >
            (terminal.sndEnd.trailingEdge - terminal.sndEnd.writeEdge).toNat then none
          else some ⟨req, srcBuf, min srcBuf.size packetSize + 2 * msgEndSize⟩) := by
  have atPacket : AtPacket terminal req.buf.bytes index
      ⟨req.buf.data + index * packetSize, req.buf.bytes.drop (index * packetSize)⟩ :=
    ⟨idx, more, small, rfl⟩
  have few := atPacket.count_lt
  have index16 : sizeOfInt16 terminal.mSndIdx * packetSize % sizeLimit = index * packetSize := by
    simp only [sizeOfInt16, sizeLimit, packetSize, int16Max, idx] at *
    omega
  have inside : index * packetSize ≤ req.buf.size := by
    cases index with
    | zero => simp
    | succ index => exact Nat.le_of_lt ((succ_lt_count_iff packetSize_pos _ index).mp more)
  refine ⟨_, atPacket, rfl, ?_⟩
  simp only [Terminal.nextPacket, back, deref, index16, Buf.tail, if_pos inside, bind, Except.bind,
    pure, Except.pure]
  split <;> rfl

/-- The new memory shows the record from `edge` on, and no other cell has changed. -/
structure PutsDown (memory after : Memory UInt8) (data ring edge : ℕ) (record : List UInt8) :
    Prop where
  shown : after.Shows data ring edge record
  changed : ∀ {place}, after place ≠ memory place →
    ∃ offset < record.length, place = data + (edge + offset) % ring

/-- Writes that cover a record put it down. -/
theorem PutsDown.of_pending {data ring edge : ℕ} {record : List UInt8}
    (short : record.length ≤ ring) :
    ∀ {writes : List (ℕ × List UInt8)} {memory : Memory UInt8},
      Pending memory data ring edge record writes →
      PutsDown memory (writes.foldl (fun memory write => memory.write write.1 write.2) memory)
        data ring edge record := by
  intro writes
  induction writes with
  | nil =>
      intro memory pending
      exact ⟨pending.shows, fun changed => absurd rfl changed⟩
  | cons write writes ih =>
      intro memory pending
      obtain ⟨skip, segment⟩ := pending.segments write List.mem_cons_self
      have rest := ih (pending.write short)
      refine ⟨rest.shown, ?_⟩
      intro place changed
      by_cases first : memory.write write.1 write.2 place = memory place
      · exact rest.changed (by rw [first]; exact changed)
      · obtain ⟨offset, _, inside, placed⟩ := segment.changed first
        exact ⟨offset, inside, placed⟩

/-- Another record in the same window of the ring stays. -/
theorem PutsDown.keeps {memory after : Memory UInt8} {data ring edge otherEdge : ℕ}
    {record other : List UInt8} (putsDown : PutsDown memory after data ring edge record) (low : ℕ)
    (apart : otherEdge + other.length ≤ edge) (otherLow : low ≤ otherEdge)
    (high : edge + record.length ≤ low + ring) (shown : memory.Shows data ring otherEdge other) :
    after.Shows data ring otherEdge other := by
  intro offset inside
  rw [← shown offset inside]
  by_contra changed
  obtain ⟨own, ownInside, same⟩ := putsDown.changed changed
  have : otherEdge + offset = edge + own :=
    Window.mod_injOn low (by omega) (by omega) (by omega) (by omega) (Nat.add_left_cancel same)
  omega

theorem PutsDown.congr_edge {memory after : Memory UInt8} {data ring edge other : ℕ}
    {record : List UInt8} (putsDown : PutsDown memory after data ring edge record)
    (same : other % ring = edge % ring) : PutsDown memory after data ring other record := by
  refine ⟨putsDown.shown.congr_edge same, ?_⟩
  intro place changed
  obtain ⟨offset, inside, rfl⟩ := putsDown.changed changed
  refine ⟨offset, inside, ?_⟩
  rw [Nat.add_mod, ← same, ← Nat.add_mod]

/-- The terminal with its writing edge behind a frame. -/
def Terminal.pastFrame (terminal : Terminal) (pktSize : ℕ) : Terminal :=
  { terminal with
    sndEnd := { terminal.sndEnd with
      writeEdge := terminal.sndEnd.writeEdge + UInt64.ofNat pktSize } }

@[simp]
theorem Terminal.pastFrame_rmtMemToken (terminal : Terminal) (pktSize : ℕ) :
    (terminal.pastFrame pktSize).rmtMemToken = terminal.rmtMemToken := rfl

/-- Putting a frame down on an aligned terminal fails no check, and shows the frame of the packet
at the old writing edge of the local ring. -/
theorem Terminal.putDown_eq {terminal : Terminal} {data ring pktSize index : ℕ} {srcBuf : Buf}
    {message : List UInt8} (memory : Memory UInt8)
    (atPacket : AtPacket terminal message index srcBuf)
    (fits : FrameFits ring terminal.sndEnd.writeEdge.toNat pktSize)
    (size : pktSize = min srcBuf.size packetSize + 2 * msgEndSize)
    (dataAligned : 16 ∣ data) (srcAligned : 16 ∣ srcBuf.data) :
    ∃ header after,
      terminal.putDown memory ⟨data, ring⟩ srcBuf pktSize =
        .ok (terminal.pastFrame pktSize, after,
          frameAt data ring terminal.sndEnd.writeEdge.toNat pktSize) ∧
      packetOf header (packet packetSize message index).body = packet packetSize message index ∧
      (header.type = .single ↔ header.seq = 0) ∧
      PutsDown memory after data ring terminal.sndEnd.writeEdge.toNat
        (frameRecord header (packet packetSize message index).body) := by
  obtain ⟨sequence, sequenceEq, seq⟩ := atPacket.sequenceNumber_eq
  have body := atPacket.body_eq
  have small := atPacket.small
  have srcSize := atPacket.size_eq
  have low := fits.low
  have high := fits.high
  have view := fits.firstView_le
  have sizeAligned := fits.sizeAligned
  have offsetAligned := fits.offsetAligned
  have ringAligned := fits.ringAligned
  have srcLength : srcBuf.bytes.length = srcBuf.size := rfl
  set edge := terminal.sndEnd.writeEdge.toNat with edgeDef
  set first := firstViewSize ring edge pktSize with firstDef
  have firstLe : first ≤ pktSize - 2 * msgEndSize := Nat.min_le_left _ _
  have bodyLength : (packet packetSize message index).body.length = pktSize - 2 * msgEndSize := by
    rw [← body, List.length_take, size, srcLength]
    omega
  have source0 : srcBuf.subspan 0 first =
      .ok ⟨srcBuf.data, (packet packetSize message index).body.take first⟩ := by
    rw [Buf.subspan, if_pos (by omega), ← body, List.take_take, Nat.min_eq_left (by omega)]
    simp
  have source1 : srcBuf.subspan first (pktSize - 2 * msgEndSize - first) =
      .ok ⟨srcBuf.data + first, (packet packetSize message index).body.drop first⟩ := by
    rw [Buf.subspan, if_pos (by omega), ← body, List.drop_take]
    congr 2
    rw [List.take_eq_take_iff, List.length_drop]
    omega
  have firstAligned : 16 ∣ first := by
    simp only [firstDef, firstViewSize, msgEndSize] at *
    omega
  have crc0 := computeCRC_eq (frameAt data ring edge pktSize).views0
    ⟨srcBuf.data, (packet packetSize message index).body.take first⟩ memory 0 0
    (by simp only [Buf.size, List.length_take, bodyLength, msgEndSize] at *; omega)
    (by simp only [Buf.size, List.length_take, frameAt]; omega) srcAligned
    (by simp only [frameAt, msgEndSize] at *; omega)
  obtain ⟨left0, right0, crc0⟩ : ∃ left0 right0, computeCRC (frameAt data ring edge pktSize).views0
      ⟨srcBuf.data, (packet packetSize message index).body.take first⟩ memory 0 0 =
        .ok (memory.write (frameAt data ring edge pktSize).views0.data
          ((packet packetSize message index).body.take first), left0, right0) := ⟨_, _, crc0⟩
  set memory0 := memory.write (frameAt data ring edge pktSize).views0.data
    ((packet packetSize message index).body.take first) with memory0Def
  have crc1 := computeCRC_eq (frameAt data ring edge pktSize).views1
    ⟨srcBuf.data + first, (packet packetSize message index).body.drop first⟩
    memory0 left0 right0
    (by simp only [Buf.size, List.length_drop, bodyLength, msgEndSize] at *; omega)
    (by simp only [Buf.size, List.length_drop, bodyLength, frameAt]; omega)
    (by simp only; omega) dataAligned
  obtain ⟨left1, right1, crc1⟩ : ∃ left1 right1, computeCRC (frameAt data ring edge pktSize).views1
      ⟨srcBuf.data + first, (packet packetSize message index).body.drop first⟩
        memory0 left0 right0 =
        .ok (memory0.write (frameAt data ring edge pktSize).views1.data
          ((packet packetSize message index).body.drop first), left1, right1) := ⟨_, _, crc1⟩
  let header : MsgEnd :=
    { crc := left1.toUInt64 <<< 32 ||| right1.toUInt64
      size := UInt32.ofNat srcBuf.size
      seq := sequence
      type := if sequence = 0 then .single else .multi }
  have isRecord := isRecord_frameRecord header bodyLength
  refine ⟨header, _, ?_, ?_, ?_,
    PutsDown.of_pending (by rw [frameRecord, isRecord.length low]; omega)
    (fits.pending data isRecord memory)⟩
  · have views0Size : (frameAt data ring edge pktSize).views0.size = first := rfl
    have views1Size : (frameAt data ring edge pktSize).views1.size =
        pktSize - 2 * msgEndSize - first := rfl
    simp only [Terminal.putDown, sequenceEq, bind, Except.bind, locateInRingBuf_eq fits,
      ← edgeDef, views0Size, views1Size, source0, source1, crc0, crc1, read_write_header,
      List.foldl_cons,
      List.foldl_nil]
    rfl
  · have sizeEq : header.size.toNat = srcBuf.size :=
      UInt32.toNat_ofNat_of_lt' (by simp only [maxMsgSize, UInt32.size] at *; omega)
    have seqEq : header.seq.toInt = (packet packetSize message index).seq := seq
    simp only [packetOf, sizeEq, seqEq, srcSize]
    rfl
  · by_cases zero : sequence = 0 <;> simp [header, zero]

/-- The provider's answers to the writes of a frame do not abort the process. -/
structure WritesAnswered (replies : SendReplies) (split : Prop) : Prop where
  second : split → accepted replies.secondHalf = true
  first : accepted replies.firstHalf = true ∨ replies.firstHalf = ndCanceled

/-- The writes of a frame that the provider accepts: all, or all but the last one posted. -/
def acceptedWrites (base ring edge : ℕ) (record : List UInt8) (replies : SendReplies) :
    List (ℕ × List UInt8) :=
  if accepted replies.firstHalf then splitWrites base ring edge record
  else (splitWrites base ring edge record).dropLast

/-- The requests of accepted writes. -/
def writeRequests (token : UInt32) (writes : List (ℕ × List UInt8)) : List Request :=
  writes.map fun write => .write write.1 token write.2

theorem acceptedWrites_congr {base ring edge other : ℕ} {record : List UInt8}
    {replies : SendReplies} (same : other % ring = edge % ring) :
    acceptedWrites base ring other record replies =
      acceptedWrites base ring edge record replies := by
  simp only [acceptedWrites, splitWrites_congr same]

theorem accepted_iff (hr : HRESULT) : accepted hr = true ↔ hr = ndSuccess ∨ hr = ndPending := by
  simp [accepted]

/-- Posting a frame that the local ring shows posts its bytes for the same ring positions at the
remote address, and keeps the answer to the half with the header. -/
theorem Terminal.postFrame_ok_iff {terminal : Terminal} {memory : Memory UInt8}
    {data ring edge size : ℕ} {record : List UInt8} {token : UInt32} {replies : SendReplies}
    {requests : List Request} {hr : HRESULT} (fits : FrameFits ring edge size)
    (length : record.length = size) (small : size < 2 ^ 32)
    (shown : memory.Shows data ring edge record) :
    terminal.postFrame memory ⟨data, ring⟩ (frameAt data ring edge size) size token replies =
        .ok (requests, hr) ↔
      terminal.pMemRegion.isSome ∧ terminal.pQuePair.isSome ∧
        WritesAnswered replies (ring < edge % ring + size) ∧
        requests = writeRequests token
          (acceptedWrites terminal.rmtBufAddr ring edge record replies) ∧
        hr = if replies.firstHalf = ndPending then ndSuccess else replies.firstHalf := by
  have low := fits.low
  have high := fits.high
  have headerFits := fits.header_fits
  have ringAligned := fits.ringAligned
  have offsetAligned := fits.offsetAligned
  have sizeAligned := fits.sizeAligned
  have wrapsIff := fits.wraps_iff data
  have pieces := shown.splitWrites_eq (by simp only [msgEndSize] at *; omega) (by omega)
    terminal.rmtBufAddr
  have offset : (frameAt data ring edge size).pStart - data = edge % ring := by
    simp [frameAt]
  rw [length] at pieces
  have refusedSecond : (replies.secondHalf ≠ ndSuccess ∧ replies.secondHalf ≠ ndPending) ↔
      ¬accepted replies.secondHalf = true := by
    rw [accepted_iff]
    tauto
  have refusedFirst : (replies.firstHalf ≠ ndSuccess ∧ replies.firstHalf ≠ ndPending ∧
      replies.firstHalf ≠ ndCanceled) ↔
        ¬(accepted replies.firstHalf = true ∨ replies.firstHalf = ndCanceled) := by
    rw [accepted_iff]
    tauto
  have answered : ∀ split, WritesAnswered replies split ↔
      (split → accepted replies.secondHalf = true) ∧
        (accepted replies.firstHalf = true ∨ replies.firstHalf = ndCanceled) :=
    fun split => ⟨fun both => ⟨both.second, both.first⟩, fun both => ⟨both.1, both.2⟩⟩
  have notCanceled : accepted ndCanceled = false := by decide
  cases region : terminal.pMemRegion with
  | none => simp [Terminal.postFrame, deref, region, bind, Except.bind]
  | some _ =>
    cases queuePair : terminal.pQuePair with
    | none => simp [Terminal.postFrame, deref, region, queuePair, bind, Except.bind]
    | some _ =>
      simp only [Terminal.postFrame, deref, region, queuePair, wrapsIff, offset, bind, Except.bind,
        pure, Except.pure, throw, throwThe, MonadExceptOf.throw, Option.isSome_some, true_and]
      by_cases wraps : ring < edge % ring + size
      · have firstLength : ulong (msgEndSize + (frameAt data ring edge size).views0.size) =
            ring - edge % ring := by
          simp only [ulong, frameAt, firstViewSize, msgEndSize] at *
          omega
        have secondLength : ulong (msgEndSize + (frameAt data ring edge size).views1.size) =
            size - (ring - edge % ring) := by
          simp only [ulong, frameAt, firstViewSize, msgEndSize] at *
          omega
        have secondData : (frameAt data ring edge size).views1.data = data := rfl
        simp only [wraps, if_true, firstLength, secondLength, secondData, refusedSecond,
          refusedFirst, answered, true_imp_iff] at pieces ⊢
        by_cases second : accepted replies.secondHalf = true
        · by_cases first : accepted replies.firstHalf = true
          · simp [second, first, acceptedWrites, writeRequests, pieces, frameAt,
              @eq_comm _ requests, @eq_comm _ hr]
          · by_cases canceled : replies.firstHalf = ndCanceled <;>
              simp [second, first, canceled, acceptedWrites, writeRequests, pieces, notCanceled,
                @eq_comm _ requests, @eq_comm _ hr]
        · simp [second]
      · have wholeLength : ulong size = size := Nat.mod_eq_of_lt small
        simp only [wraps, if_false, wholeLength, refusedFirst, answered, false_imp_iff,
          true_and, List.nil_append] at pieces ⊢
        by_cases first : accepted replies.firstHalf = true
        · simp [first, acceptedWrites, writeRequests, pieces, frameAt, @eq_comm _ requests,
            @eq_comm _ hr]
        · by_cases canceled : replies.firstHalf = ndCanceled
          · simp only [canceled, notCanceled, acceptedWrites, writeRequests, pieces]
            simp [ndCanceled, ndPending, eq_comm]
          · simp [first, canceled]

/-- Copying the payload checks the address of the client buffer. -/
theorem Terminal.putDown_aligned {terminal : Terminal} {memory : Memory UInt8} {sendBuf : Span}
    {srcBuf : Buf} {pktSize : ℕ} {result : Terminal × Memory UInt8 × DFrame}
    (succeeded : terminal.putDown memory sendBuf srcBuf pktSize = .ok result) :
    16 ∣ srcBuf.data := by
  simp only [Terminal.putDown, bind_eq_ok] at succeeded
  obtain ⟨_, _, frame, _, source0, taken, _, copied, _⟩ := succeeded
  have data : source0.data = srcBuf.data := by
    simp only [Buf.subspan] at taken
    split at taken
    · obtain rfl := Except.ok.inj taken
      rfl
    · cases taken
  rw [← data]
  exact (computeCRC_ok copied).2.2.1

/-- What a turn leaves behind that has put down the frame of packet `index` of `message`. -/
structure Emitted (terminal : Terminal) (memory : Memory UInt8) (sendBuf : Span) (pktSize index : ℕ)
    (message : List UInt8) (replies : SendReplies) (after : Memory UInt8) (posting : Posting)
    (record : List UInt8) : Prop where
  framed : ∃ header : MsgEnd,
    record = frameRecord header (packet packetSize message index).body ∧
      packetOf header (packet packetSize message index).body = packet packetSize message index ∧
      (header.type = .single ↔ header.seq = 0)
  length : record.length = pktSize
  putDown : PutsDown memory after sendBuf.data sendBuf.size terminal.sndEnd.writeEdge.toNat record
  outcome : (terminal.rmtMemToken = 0 ∧ posting = .closing) ∨
    (terminal.rmtMemToken ≠ 0 ∧
      WritesAnswered replies
        (sendBuf.size < terminal.sndEnd.writeEdge.toNat % sendBuf.size + pktSize) ∧
      posting = .posted
        (writeRequests terminal.rmtMemToken (acceptedWrites terminal.rmtBufAddr sendBuf.size
          terminal.sndEnd.writeEdge.toNat record replies))
        (if replies.firstHalf = ndPending then ndSuccess else replies.firstHalf))

section EmitPacket

variable {terminal : Terminal} {memory : Memory UInt8} {data ring index : ℕ}
  {next : NextPacket} {message : List UInt8} {replies : SendReplies}

/-- Every turn that puts its frame down without an abort. -/
theorem Terminal.emitPacket_ok {terminal' : Terminal} {memory' : Memory UInt8} {posting : Posting}
    (atPacket : AtPacket terminal message index next.srcBuf)
    (fits : FrameFits ring terminal.sndEnd.writeEdge.toNat next.pktSize)
    (size : next.pktSize = min next.srcBuf.size packetSize + 2 * msgEndSize)
    (dataAligned : 16 ∣ data)
    (emitted : terminal.emitPacket memory ⟨data, ring⟩ next replies =
      .ok (terminal', memory', posting)) :
    terminal' = terminal.pastFrame next.pktSize ∧
      ∃ record, Emitted terminal memory ⟨data, ring⟩ next.pktSize index message replies
        memory' posting record := by
  have small : next.pktSize < 2 ^ 32 := by
    simp only [size, packetSize, msgEndSize]
    omega
  have bodyLength : (packet packetSize message index).body.length =
      next.pktSize - 2 * msgEndSize := by
    rw [← atPacket.body_eq, List.length_take, size]
    simp only [Buf.size]
    omega
  simp only [Terminal.emitPacket, bind_eq_ok] at emitted
  obtain ⟨⟨middle, after, frame⟩, put, posted⟩ := emitted
  obtain ⟨header, _, putEq, isPacket, single, putDown⟩ :=
    Terminal.putDown_eq memory atPacket fits size dataAligned
      (Terminal.putDown_aligned put)
  obtain ⟨rfl, rfl, rfl⟩ : _ ∧ _ ∧ _ := by simpa using put.symm.trans putEq
  have length := (isRecord_frameRecord header bodyLength).length fits.low
  split at posted
  case isTrue closing =>
    simp only [pure, Except.pure, Except.ok.injEq, Prod.mk.injEq] at posted
    obtain ⟨rfl, rfl, rfl⟩ := posted
    exact ⟨rfl, _, ⟨header, rfl, isPacket, single⟩, length, putDown, Or.inl ⟨closing, rfl⟩⟩
  case isFalse closing =>
    simp only [bind_eq_ok, pure, Except.pure, Except.ok.injEq, Prod.mk.injEq] at posted
    obtain ⟨⟨writes, hr⟩, accepted, rfl, rfl, rfl⟩ := posted
    obtain ⟨_, _, answered, rfl, rfl⟩ :=
      (Terminal.postFrame_ok_iff fits length small putDown.shown).mp accepted
    exact ⟨rfl, _, ⟨header, rfl, isPacket, single⟩, length, putDown,
      Or.inr ⟨closing, answered, rfl⟩⟩

/-- A turn on an aligned buffer does not abort when the provider takes the writes. -/
theorem Terminal.emitPacket_succeeds (memory : Memory UInt8)
    (atPacket : AtPacket terminal message index next.srcBuf)
    (fits : FrameFits ring terminal.sndEnd.writeEdge.toNat next.pktSize)
    (size : next.pktSize = min next.srcBuf.size packetSize + 2 * msgEndSize)
    (dataAligned : 16 ∣ data) (srcAligned : 16 ∣ next.srcBuf.data)
    (region : terminal.pMemRegion.isSome) (queuePair : terminal.pQuePair.isSome)
    (answered : WritesAnswered replies
      (ring < terminal.sndEnd.writeEdge.toNat % ring + next.pktSize)) :
    ∃ result, terminal.emitPacket memory ⟨data, ring⟩ next replies = .ok result := by
  have small : next.pktSize < 2 ^ 32 := by
    simp only [size, packetSize, msgEndSize]
    omega
  have bodyLength : (packet packetSize message index).body.length =
      next.pktSize - 2 * msgEndSize := by
    rw [← atPacket.body_eq, List.length_take, size]
    simp only [Buf.size]
    omega
  obtain ⟨header, after, putEq, isPacket, single, putDown⟩ :=
    Terminal.putDown_eq memory atPacket fits size dataAligned srcAligned
  have length := (isRecord_frameRecord header bodyLength).length fits.low
  simp only [Terminal.emitPacket, putEq, bind, Except.bind]
  by_cases closing : terminal.rmtMemToken = 0
  · simp [closing, pure, Except.pure]
  · have posted : (terminal.pastFrame next.pktSize).postFrame after ⟨data, ring⟩
        (frameAt data ring terminal.sndEnd.writeEdge.toNat next.pktSize) next.pktSize
        terminal.rmtMemToken replies = .ok (_, _) :=
      (Terminal.postFrame_ok_iff fits length small putDown.shown).mpr
        ⟨region, queuePair, answered, rfl, rfl⟩
    simp [closing, posted, pure, Except.pure]

end EmitPacket

/-- Everything `readRmtEdge` does without an abort. -/
theorem Terminal.readRmtEdge_ok_iff {terminal terminal' : Terminal} {rmtToken : UInt32}
    {reply : HRESULT} {requests : List Request} :
    terminal.readRmtEdge rmtToken reply = .ok (terminal', requests) ↔
      terminal.pTagRegion.isSome ∧ terminal.pQuePair.isSome ∧
        (accepted reply = true ∨ reply = ndCanceled) ∧
        terminal' = { terminal with pendingRead := terminal.pendingRead + 1 } ∧
        requests = if accepted reply then [.read terminal.rmtTagAddr rmtToken] else [] := by
  have refused : (reply ≠ ndSuccess ∧ reply ≠ ndPending ∧ reply ≠ ndCanceled) ↔
      ¬(accepted reply = true ∨ reply = ndCanceled) := by
    rw [accepted_iff]
    tauto
  cases region : terminal.pTagRegion with
  | none => simp [Terminal.readRmtEdge, deref, region, bind, Except.bind]
  | some _ =>
    cases queuePair : terminal.pQuePair with
    | none => simp [Terminal.readRmtEdge, deref, region, queuePair, bind, Except.bind]
    | some _ =>
      simp only [Terminal.readRmtEdge, deref, region, queuePair, refused, bind, Except.bind, pure,
        Except.pure, throw, throwThe, MonadExceptOf.throw]
      by_cases answered : accepted reply = true ∨ reply = ndCanceled
      · simp only [answered, not_true_eq_false, if_false, Except.ok.injEq, Prod.mk.injEq,
          Option.isSome_some, true_and]
        exact and_congr eq_comm eq_comm
      · simp [answered]

/-- Everything the critical section at the end of a turn does without an abort. -/
theorem Terminal.popLocked_ok {terminal terminal' : Terminal} {req : SndReq} {empty : Bool}
    (popped : terminal.popLocked req = .ok (terminal', empty)) :
    ∃ last, terminal.sndQue.getLast? = some last ∧ req.buf.data = last.buf.data ∧
      ((terminal.sndQue.dropLast = [] ∧ empty = true ∧
          terminal' = { terminal with sndQue := [], sndRunning := false }) ∨
        (terminal.sndQue.dropLast ≠ [] ∧ empty = false ∧
          terminal' = { terminal with sndQue := terminal.sndQue.dropLast })) := by
  cases back : terminal.sndQue.getLast? with
  | none => simp [Terminal.popLocked, deref, back, bind, Except.bind] at popped
  | some last =>
    simp only [Terminal.popLocked, deref, back, bind_eq_ok, auditAssert_eq_ok, Except.ok.injEq,
      exists_eq_left', exists_const_iff] at popped
    obtain ⟨_, same, popped⟩ := popped
    refine ⟨_, rfl, same, ?_⟩
    by_cases nothing : terminal.sndQue.dropLast = []
    · left
      simp only [nothing, if_true, pure, Except.pure, Except.ok.injEq, Prod.mk.injEq] at popped
      exact ⟨nothing, popped.2.symm, popped.1.symm⟩
    · right
      simp only [nothing, if_false, pure, Except.pure, Except.ok.injEq, Prod.mk.injEq] at popped
      exact ⟨nothing, popped.2.symm, popped.1.symm⟩

end Hermes
