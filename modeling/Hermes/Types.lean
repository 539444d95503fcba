import Hermes.Base.Ring
import Hermes.Base.Bytes

/-!
# Data shared by the whole library

Status codes, the ways the process can stop, byte spans, and the records of
`HermesFixedRIO.hpp`: edges, the hand shake, frame headers, send requests,
terminals and sockets.  Pointers to objects the provider or the client owns are
numbers; a null pointer is `none`.
-/

namespace Hermes

/-- Provider results; the severity is in the two top bits. -/
abbrev HRESULT := UInt32

abbrev StatusCode := UInt32

def ndSuccess : HRESULT := 0
def ndPending : HRESULT := 0x00000103
def ndBufferOverflow : HRESULT := 0x80000005
def ndCanceled : HRESULT := 0xC0000120
def ndConnectionRefused : HRESULT := 0xC0000236

def hOk : StatusCode := 0
def hUnexpected : StatusCode := 0x8000FFFF
def eHandle : StatusCode := 0x80070006
def eInvalidArg : StatusCode := 0x80070057
def eNotSufficientBuffer : StatusCode := 0x8007007A
def eNotValidState : StatusCode := 0x8007139F
def errorGracefulDisconnect : StatusCode := 1226

/-- `FAILED`: the sign bit of the result is set. -/
def failed (hr : HRESULT) : Bool := 0x80000000 ≤ hr

/-- How the process stops: a failed `Audit::Assert`, a call of `Audit::OutOfLine::Fail`, a
failed bounds check of a span, or an operation the language leaves undefined. -/
inductive Abort where
  | assert (text : String)
  | fail (status : StatusCode) (text : String)
  | bounds
  | undefined (text : String)
  deriving DecidableEq, Repr

/-- Why a step is not taken: it is not enabled, or it aborts the process. -/
inductive Stop where
  | blocked
  | abort (reason : Abort)
  deriving DecidableEq, Repr

/-- Run code of the library as part of a step. -/
def runCode {Result : Type} (code : Except Abort Result) : Except Stop Result :=
  code.mapError .abort

/-- `Audit::Assert`. -/
def auditAssert (condition : Prop) [Decidable condition] (text : String) : Except Abort Unit :=
  if condition then .ok () else .error (.assert text)

/-- Number of values of `size_t` and of `uint64_t`. -/
def sizeLimit : ℕ := 2 ^ 64

/-- Subtraction of `size_t` values. -/
def sizeSub (left right : ℕ) : ℕ := (left + sizeLimit - right) % sizeLimit

/-- `mbuf::IsPower2`, whose code is not at hand, as its name says. -/
def isPower2 (value : ℕ) : Bool := value ≠ 0 ∧ value &&& (value - 1) = 0

/-- A span of writable memory: address of the first byte and number of bytes. -/
structure Span where
  data : ℕ
  size : ℕ
  deriving DecidableEq, Repr

/-- `gsl::span::subspan(offset, count)` with its bounds check. -/
def Span.subspan (span : Span) (offset count : ℕ) : Except Abort Span :=
  if offset + count ≤ span.size then .ok ⟨span.data + offset, count⟩ else .error .bounds

/-- Address of `span[index]`, with the bounds check of the index operator. -/
def Span.at (span : Span) (index : ℕ) : Except Abort ℕ :=
  if index < span.size then .ok (span.data + index) else .error .bounds

/-- A client buffer.  It must stay available and unchanged until the send is notified, so its
bytes are part of the value. -/
structure Buf where
  data : ℕ
  bytes : List UInt8
  deriving DecidableEq, Repr

def Buf.size (buf : Buf) : ℕ := buf.bytes.length

/-- `gsl::span::subspan(offset)`: everything from `offset` on. -/
def Buf.tail (buf : Buf) (offset : ℕ) : Except Abort Buf :=
  if offset ≤ buf.size then .ok ⟨buf.data + offset, buf.bytes.drop offset⟩ else .error .bounds

/-- `gsl::span::subspan(offset, count)`. -/
def Buf.subspan (buf : Buf) (offset count : ℕ) : Except Abort Buf :=
  if offset + count ≤ buf.size then
    .ok ⟨buf.data + offset, (buf.bytes.drop offset).take count⟩
  else .error .bounds

/-- `CirTag`: the two edges of a ring. -/
structure CirTag where
  trailingEdge : UInt64
  writeEdge : UInt64
  deriving DecidableEq, Repr

/-- `HandShake`: what the two ends tell each other when they connect. -/
structure HandShake where
  tag : CirTag
  bufAddr : ℕ
  tagAddr : ℕ
  memToken : UInt32
  tagToken : UInt32
  deriving DecidableEq, Repr

inductive MsgType where
  | single
  | multi
  deriving DecidableEq, Repr

/-- `MsgEnd`: header and footer of a frame. -/
structure MsgEnd where
  crc : UInt64
  size : UInt32
  seq : Int16
  type : MsgType
  deriving DecidableEq, Repr

/-- `sizeof(MsgEnd)`, asserted equal to `MSG_ALIGN` in the source. -/
def msgEndSize : ℕ := 16

/-- `hermes::MSG_ALIGN`. -/
def msgAlign : ℕ := 16

/-- `hermes::MAX_MSG_SIZE`. -/
def maxMsgSize : ℕ := 1023 * 1024 * 1024

/-- `Terminal::PACKET_SIZE`. -/
def packetSize : ℕ := 32 * 1024

/-- `Terminal::MAX_PENDING_READ`. -/
def maxPendingRead : ℕ := 2

/-- `INT16_MAX`. -/
def int16Max : ℕ := 32767

/-- `MAX_OVERLAPPED_ENTRIES`: initiator depth of every queue pair. -/
def maxOverlappedEntries : ℕ := 256

/-- `SndReq`: a queued send, with the client's context and callback object. -/
structure SndReq where
  context : ℕ
  buf : Buf
  pCallback : ℕ
  deriving DecidableEq, Repr

/-- A connection notifier, with the number of the `Accept` or `Connect` call that passed it.
The number is for the statements only. -/
structure ConnectionNotifier where
  object : ℕ
  call : ℕ
  deriving DecidableEq, Repr

/-- `Terminal`: the bookkeeping of one connection.  The vector `sndQue` has its begin at the
head of the list, so the oldest request is the last element. -/
structure Terminal where
  rcvEnd : CirTag := ⟨0, 0⟩
  sndEnd : CirTag := ⟨0, 0⟩
  handle : UInt64 := 0xFFFFFFFFFFFFFFFF
  pMemRegion : Option ℕ := none
  pTagRegion : Option ℕ := none
  pQuePair : Option ℕ := none
  pCQ : Option ℕ := none
  pConnector : Option ℕ := none
  pConnFunc : Option ConnectionNotifier := none
  pRcvFunc : Option ℕ := none
  pRcvCont : Option ℕ := none
  pDisconnectCont : Option ℕ := none
  pVerbCompletion : Option ℕ := none
  sndQue : List SndReq := []
  pendingRead : ℕ := 0
  rmtIpAddr : UInt32 := 0
  rmtPort : UInt16 := 0
  mSndIdx : Int16 := 0
  mRcvSize : Int16 := 0
  mRcvIdx : Int16 := 0
  rcvBuf : Option ℕ := none
  sndRunning : Bool := false
  rcvProcessing : Bool := false
  rmtMemToken : UInt32 := 0
  rmtTagToken : UInt32 := 0
  rmtBufAddr : ℕ := 0
  rmtTagAddr : ℕ := 0
  deriving DecidableEq, Repr

/-- `Terminal::VoidFlds`: everything but the regions, the send queue and the read counter. -/
def Terminal.voidFlds (terminal : Terminal) : Terminal :=
  { terminal with
    rcvEnd := ⟨0, 0⟩
    sndEnd := ⟨0, 0⟩
    handle := 0xFFFFFFFFFFFFFFFF
    pConnector := none
    pQuePair := none
    pCQ := none
    pConnFunc := none
    pRcvFunc := none
    pRcvCont := none
    pDisconnectCont := none
    pVerbCompletion := none
    mSndIdx := 0
    mRcvSize := 0
    mRcvIdx := 0
    rcvBuf := none
    sndRunning := false
    rcvProcessing := false
    rmtBufAddr := 0
    rmtTagAddr := 0
    rmtMemToken := 0
    rmtTagToken := 0
    rmtIpAddr := 0
    rmtPort := 0 }

/-- `Terminal::SaveRemoteKeys`. -/
def Terminal.saveRemoteKeys (terminal : Terminal) (remote : HandShake) : Terminal :=
  { terminal with
    rmtBufAddr := remote.bufAddr
    rmtTagAddr := remote.tagAddr
    rmtMemToken := remote.memToken
    rmtTagToken := remote.tagToken }

/-- `HSocket::State`. -/
inductive SocketState where
  | inpool
  | startToListen
  | listening
  | accept1
  | connecting
  | connAgreed
  | connAck
  | connected
  | stopping
  | disconnected
  deriving DecidableEq, Repr

/-- `INVALID_TERM_ID`; user ids start at one. -/
def invalidTermId : ℕ := 0

/-- `HSocket`. -/
structure HSocket where
  pListen : Option ℕ := none
  term : ℕ := invalidTermId
  port : UInt16 := 0
  state : SocketState := .inpool
  handle : UInt64
  deriving DecidableEq, Repr

theorem isPower2_iff (value : ℕ) : isPower2 value = true ↔ ∃ exponent, value = 2 ^ exponent := by
  simp only [isPower2, decide_eq_true_eq]
  exact Nat.ne_zero_and_sub_one_eq_zero_iff_isPowerOfTwo

/-- A sequence of two fallible computations succeeds when both do. -/
theorem bind_eq_ok.{u, v} {Error : Type u} {First Second : Type v} {first : Except Error First}
    {second : First → Except Error Second} {result : Second} :
    (first >>= second) = .ok result ↔
      ∃ middle, first = .ok middle ∧ second middle = .ok result := by
  cases first <;> simp [bind, Except.bind]

@[simp]
theorem auditAssert_eq_ok {condition : Prop} [Decidable condition] {text : String} {done : Unit} :
    auditAssert condition text = .ok done ↔ condition := by
  by_cases holds : condition <;> simp [auditAssert, holds]

theorem auditAssert_of {condition : Prop} [Decidable condition] (holds : condition)
    (text : String) : auditAssert condition text = .ok () :=
  auditAssert_eq_ok.mpr holds

theorem runCode_ok {Result : Type} {code : Except Abort Result} {result : Result} :
    runCode code = .ok result ↔ code = .ok result := by
  cases code <;> simp [runCode, Except.mapError]

end Hermes
