import Hermes.Frame
import Hermes.Checksum

/-!
# Sending: `Send`, `ReadRmtEdge` and `ProcessSendQ`

The code of one loop turn of `ProcessSendQ`, cut where other threads can run in
between: `nextPacket` (take the request at the back, check the space),
`emitPacket` (put the frame down and post its RDMA writes), `checkRmtEdge` and
`readRmtEdge` (the edge read), `advance` (move the packet index) and `popLocked`
(the critical section at the end).  `sendLocked` is the critical section of
`Send`.  The requests the queue pair accepts are returned in the order they are
posted, writes with the bytes they carry.
-/

namespace Hermes

/-- A request accepted by the initiator queue of a queue pair. -/
inductive Request where
  | write (address : ℕ) (token : UInt32) (cells : List UInt8)
  | read (address : ℕ) (token : UInt32)
  deriving DecidableEq, Repr

/-- What the provider answers to the calls of one loop turn. -/
structure SendReplies where
  secondHalf : HRESULT := ndPending
  firstHalf : HRESULT := ndPending
  read : HRESULT := ndPending
  deriving DecidableEq, Repr

/-- The provider has taken the request. -/
def accepted (hr : HRESULT) : Bool := hr = ndSuccess ∨ hr = ndPending

/-- Use of an object through a pointer. -/
def deref {Object : Type} (pointer : Option Object) (text : String) : Except Abort Object :=
  match pointer with
  | some object => .ok object
  | none => .error (.undefined text)

/-- Conversion of an `int16_t` to `size_t`. -/
def sizeOfInt16 (value : Int16) : ℕ := (value.toInt % sizeLimit).toNat

/-- Conversion to `ULONG`. -/
def ulong (value : ℕ) : ℕ := value % 2 ^ 32

def MsgType.code : MsgType → ℕ
  | .single => 0
  | .multi => 1

/-- The 16 bytes of a header or footer. -/
def MsgEnd.bytes (msgEnd : MsgEnd) : List UInt8 :=
  toBytes 8 msgEnd.crc.toNat ++ toBytes 4 msgEnd.size.toNat ++
    toBytes 2 msgEnd.seq.toUInt16.toNat ++ toBytes 2 msgEnd.type.code

/-- The header or footer its 16 bytes spell. -/
def MsgEnd.ofList (bytes : List UInt8) : MsgEnd where
  crc := UInt64.ofNat (ofBytes (bytes.take 8))
  size := UInt32.ofNat (ofBytes ((bytes.drop 8).take 4))
  seq := (UInt16.ofNat (ofBytes ((bytes.drop 12).take 2))).toInt16
  type := if ofBytes ((bytes.drop 14).take 2) = 0 then .single else .multi

/-- `Terminal::ReadRmtEdge` up to the check of the read counter: the token to go on with, `none`
when the connection is closing or enough reads are pending. -/
def Terminal.checkRmtEdge (terminal : Terminal) : Option UInt32 :=
  let rmtToken := terminal.rmtTagToken
  if rmtToken = 0 then none
  else if terminal.pendingRead ≥ maxPendingRead then none
  else some rmtToken

/-- `Terminal::ReadRmtEdge` from the increment of the read counter on. -/
def Terminal.readRmtEdge (terminal : Terminal) (rmtToken : UInt32) (reply : HRESULT) :
    Except Abort (Terminal × List Request) := do
  let terminal := { terminal with pendingRead := terminal.pendingRead + 1 }
  let _ ← deref terminal.pTagRegion "m_pTagRegion"
  let _ ← deref terminal.pQuePair "m_pQuePair"
  if reply ≠ ndSuccess ∧ reply ≠ ndPending ∧ reply ≠ ndCanceled then
    throw (.fail reply "Read remote edge failed.")
  return (terminal, if accepted reply then [.read terminal.rmtTagAddr rmtToken] else [])

/-- The size checks of `Send`, on a buffer. -/
def sendAdmits (buf : Buf) : Bool :=
  buf.size ≤ maxMsgSize ∧ buf.size &&& (msgAlign - 1) = 0

/-- The critical section of `Send`.  The flag in the result says that the caller has taken
`m_sndRunning` and goes on to `ProcessSendQ`. -/
def Terminal.sendLocked (terminal : Terminal) (req : SndReq) : Terminal × Bool :=
  let terminal := { terminal with sndQue := req :: terminal.sndQue }
  if terminal.sndRunning then (terminal, false)
  else ({ terminal with sndRunning := true }, true)

theorem Terminal.sendLocked_running {terminal : Terminal} (running : terminal.sndRunning = true)
    (req : SndReq) :
    terminal.sendLocked req = ({ terminal with sndQue := req :: terminal.sndQue }, false) :=
  if_pos running

theorem Terminal.sendLocked_idle {terminal : Terminal} (idle : terminal.sndRunning = false)
    (req : SndReq) :
    terminal.sendLocked req =
      ({ terminal with sndQue := req :: terminal.sndQue, sndRunning := true }, true) :=
  if_neg (by simp [idle])

/-- The entry assertion of `ProcessSendQ`. -/
def Terminal.processSendQEntry (terminal : Terminal) : Except Abort Unit :=
  auditAssert (terminal.sndQue ≠ [] ∧ terminal.sndRunning = true)
    "Send q not ready or exclusive tag not set."

/-- The packet a loop turn starts on: the request at the back of the queue, what is left of its
buffer, and the frame size; `none` when the ring has no space for the frame. -/
structure NextPacket where
  req : SndReq
  srcBuf : Buf
  pktSize : ℕ
  deriving DecidableEq, Repr

/-- Head of the loop of `ProcessSendQ`, up to the space check. -/
def Terminal.nextPacket (terminal : Terminal) : Except Abort (Option NextPacket) := do
  let req ← deref terminal.sndQue.getLast? "back of an empty m_sndQue"
  let srcBuf ← req.buf.tail (sizeOfInt16 terminal.mSndIdx * packetSize % sizeLimit)
  let available := terminal.sndEnd.trailingEdge - terminal.sndEnd.writeEdge
  let pktSize := min srcBuf.size packetSize + 2 * msgEndSize
  if pktSize > available.toNat then
    return none
  return some { req, srcBuf, pktSize }

/-- The sequence number of the packet at hand. -/
def Terminal.sequenceNumber (terminal : Terminal) (srcBuf : Buf) : Except Abort Int16 := do
  let sequence := terminal.mSndIdx
  if sequence = 0 ∧ srcBuf.size > packetSize then
    let numPckts := (srcBuf.size + packetSize - 1) / packetSize
    auditAssert (numPckts < int16Max ∧ numPckts > 1) "Message size too big!"
    return 0 - Int16.ofNat numPckts
  return sequence

/-- Put a frame down in the local send ring and advance the writing edge. -/
def Terminal.putDown (terminal : Terminal) (memory : Memory UInt8) (sendBuf : Span) (srcBuf : Buf)
    (pktSize : ℕ) : Except Abort (Terminal × Memory UInt8 × DFrame) := do
  let sequence ← terminal.sequenceNumber srcBuf
  let frame ← locateInRingBuf sendBuf terminal.sndEnd.writeEdge pktSize
  let terminal := { terminal with
    sndEnd := { terminal.sndEnd with
      writeEdge := terminal.sndEnd.writeEdge + UInt64.ofNat pktSize } }
  let source0 ← srcBuf.subspan 0 frame.views0.size
  let (memory, leftcrc, rightcrc) ← computeCRC frame.views0 source0 memory 0 0
  let source1 ← srcBuf.subspan frame.views0.size frame.views1.size
  let (memory, leftcrc, rightcrc) ← computeCRC frame.views1 source1 memory leftcrc rightcrc
  let footer : MsgEnd :=
    { crc := leftcrc.toUInt64 <<< 32 ||| rightcrc.toUInt64
      size := UInt32.ofNat srcBuf.size
      seq := sequence
      type := if sequence = 0 then .single else .multi }
  let memory := memory.write frame.pEnd footer.bytes
  let memory := memory.write frame.pStart (memory.read frame.pEnd msgEndSize)
  return (terminal, memory, frame)

/-- Post the RDMA write of a frame, in two halves when the ring end splits the frame.  Returns
the accepted writes and the status kept for the notification. -/
def Terminal.postFrame (terminal : Terminal) (memory : Memory UInt8) (sendBuf : Span)
    (frame : DFrame) (pktSize : ℕ) (rmtToken : UInt32) (replies : SendReplies) :
    Except Abort (List Request × HRESULT) := do
  let _ ← deref terminal.pMemRegion "m_pMemRegion"
  let _ ← deref terminal.pQuePair "m_pQuePair"
  let split := frame.pEnd < frame.pStart
  let length := if split then ulong (msgEndSize + frame.views0.size) else ulong pktSize
  let second ←
    if split then do
      let secondLength := ulong (msgEndSize + frame.views1.size)
      if replies.secondHalf ≠ ndSuccess ∧ replies.secondHalf ≠ ndPending then
        throw (.fail replies.secondHalf "RDMA write failure, buffer length: %u")
      pure [Request.write terminal.rmtBufAddr rmtToken
        (memory.read frame.views1.data secondLength)]
    else pure []
  let offset := frame.pStart - sendBuf.data
  let hr := replies.firstHalf
  if hr ≠ ndSuccess ∧ hr ≠ ndPending ∧ hr ≠ ndCanceled then
    throw (.fail hr "RDMA write failure, buffer length: %u")
  let first := if accepted hr then
      [Request.write (terminal.rmtBufAddr + offset) rmtToken (memory.read frame.pStart length)]
    else []
  return (second ++ first, if hr = ndPending then ndSuccess else hr)

/-- What a loop turn does with a frame it has put down: nothing when the connection is closing,
otherwise it posts writes and keeps a status for the notification. -/
inductive Posting where
  | closing
  | posted (writes : List Request) (hr : HRESULT)
  deriving DecidableEq, Repr

/-- A loop turn of `ProcessSendQ` from the space check to the edge read. -/
def Terminal.emitPacket (terminal : Terminal) (memory : Memory UInt8) (sendBuf : Span)
    (next : NextPacket) (replies : SendReplies) :
    Except Abort (Terminal × Memory UInt8 × Posting) := do
  let (terminal, memory, frame) ← terminal.putDown memory sendBuf next.srcBuf next.pktSize
  let rmtToken := terminal.rmtMemToken
  if rmtToken = 0 then
    return (terminal, memory, .closing)
  let (writes, hr) ← terminal.postFrame memory sendBuf frame next.pktSize rmtToken replies
  return (terminal, memory, .posted writes hr)

/-- The packet index after a packet.  The flag in the result says that the message is finished
and its notification is next. -/
def Terminal.advance (terminal : Terminal) (next : NextPacket) : Terminal × Bool :=
  if next.srcBuf.size > packetSize then
    ({ terminal with mSndIdx := terminal.mSndIdx + 1 }, false)
  else ({ terminal with mSndIdx := 0 }, true)

/-- The critical section at the end of a loop turn.  The flag in the result says that the queue
is empty and `ProcessSendQ` returns. -/
def Terminal.popLocked (terminal : Terminal) (req : SndReq) : Except Abort (Terminal × Bool) := do
  let last ← deref terminal.sndQue.getLast? "back of an empty m_sndQue"
  auditAssert (req.buf.data = last.buf.data) "Race condition detected in process send queue."
  let terminal := { terminal with sndQue := terminal.sndQue.dropLast }
  if terminal.sndQue = [] then
    return ({ terminal with sndRunning := false }, true)
  return (terminal, false)

end Hermes
