import Hermes.SendSpec
import Hermes.Base.Machine

/-!
# One connection as a transition system

`linkMachine` is one connected terminal with everything that acts on it: any number
of threads that call `Send` or enter `ProcessSendQ`, each advancing by one atomic
step at a time; the wire, which applies posted writes to the peer's memory in order;
the peer, which takes frames at consecutive edges and publishes how far it got; and
the provider, which lands edge reads and completes requests.

The edges of the terminal are the 64-bit values of the code.  Beside them the state
keeps their unbounded counterparts (`written`, `landed`) and the histories of what
was inserted, put down, notified and popped, which serve the statements only.
-/

namespace Hermes

open Memory Packets

/-- What a thread executes next.  `checkingEdge` and `readingEdge` are the two steps of
`ReadRmtEdge`, for a packet just posted, or for no packet when the ring was full. -/
inductive Activation where
  | sending (req : SndReq)
  | entering
  | looping
  | full
  | emitting (next : NextPacket)
  | closing
  | checkingEdge (packet : Option (NextPacket × HRESULT))
  | readingEdge (rmtToken : UInt32) (packet : Option (NextPacket × HRESULT))
  | advancing (next : NextPacket) (hr : HRESULT)
  | notifying (req : SndReq) (hr : HRESULT)
  | inCallback (req : SndReq)
  | popping (req : SndReq)
  deriving DecidableEq, Repr

/-- The activation lies between setting and clearing `m_sndRunning`. -/
def Activation.owns : Activation → Bool
  | sending _ => false
  | checkingEdge none => false
  | readingEdge _ none => false
  | _ => true

/-- How a thread goes on after `ReadRmtEdge`. -/
def afterEdge : Option (NextPacket × HRESULT) → List Activation
  | none => []
  | some (next, hr) => [.advancing next hr]

/-- A frame put down in the local ring, with its unbounded edge. -/
structure Emission where
  edge : ℕ
  size : ℕ
  record : List UInt8
  posted : Bool
  deriving DecidableEq, Repr

def Emission.last (emission : Emission) : ℕ := emission.edge + emission.size

/-- The packet a frame carries. -/
def Emission.packet (emission : Emission) : Packet UInt8 :=
  packetOf (MsgEnd.ofList (emission.record.take msgEndSize))
    ((emission.record.drop msgEndSize).take (emission.size - 2 * msgEndSize))

/-- A posted frame on its way: the writes not yet applied, and whether the provider has accepted
all its writes. -/
structure Transfer where
  emission : Emission
  writes : List (ℕ × List UInt8)
  complete : Bool
  deriving DecidableEq, Repr

/-- The rings of a connection. -/
structure LinkConfig where
  sendBuf : Span
  rcvData : ℕ
  exponent : ℕ
  small : exponent < 32
  power : sendBuf.size = 2 ^ exponent
  aligned : 16 ∣ sendBuf.data

namespace LinkConfig

def ring (config : LinkConfig) : ℕ := config.sendBuf.size

def rcvBuf (config : LinkConfig) : Span := ⟨config.rcvData, config.ring⟩

end LinkConfig

/-- State of one connection. -/
structure Link where
  term : Terminal
  mem : Memory UInt8
  rmt : Memory UInt8
  threads : ℕ → List Activation := fun _ => []
  wire : List Transfer := []
  taken : List (Packet UInt8) := []
  delivered : ℕ := 0
  consumed : ℕ := 0
  published : ℕ := 0
  outWrites : List ℕ := []
  outReads : ℕ := 0
  written : ℕ := 0
  landed : ℕ
  emissions : List Emission := []
  inserted : List SndReq := []
  called : List (SndReq × StatusCode) := []
  popped : List SndReq := []

/-- What `Prepare` and `SaveRemoteKeys` leave in the fields sending uses. -/
structure LinkConfig.Prepared (config : LinkConfig) (terminal : Terminal) : Prop where
  sndEnd : terminal.sndEnd = ⟨UInt64.ofNat config.ring, 0⟩
  sndQue : terminal.sndQue = []
  sndRunning : terminal.sndRunning = false
  mSndIdx : terminal.mSndIdx = 0
  pendingRead : terminal.pendingRead = 0
  rmtBufAddr : terminal.rmtBufAddr = config.rcvData
  pMemRegion : terminal.pMemRegion.isSome
  pTagRegion : terminal.pTagRegion.isSome
  pQuePair : terminal.pQuePair.isSome

/-- What can happen on a connection.  `call` is a call of `Send` that has found the socket
connected, `enter` another entry into `ProcessSendQ`, which takes the flag as `Send` does. -/
inductive LinkAction where
  | call (thread : ℕ) (req : SndReq)
  | enter (thread : ℕ)
  | run (thread : ℕ) (replies : SendReplies)
  | deliver
  | take
  | publish
  | land (edge : ℕ)
  | completeWrite (index : ℕ)
  | completeRead
  | close

/-- A thread can call in when it runs nothing of the library but, at most, a callback. -/
def callsFrom : List Activation → Bool
  | [] => true
  | .inCallback _ :: _ => true
  | _ => false

/-- The writes among accepted requests. -/
def Request.write? : Request → Option (ℕ × List UInt8)
  | write address _ cells => some (address, cells)
  | read _ _ => none

/-- The peer's reading of the frame at `edge` of its receive ring: `min(Size, PACKET_SIZE)`
payload bytes after the header. -/
def takeFrame (memory : Memory UInt8) (rcvBuf : Span) (edge : UInt64) :
    Except Abort (Packet UInt8 × ℕ) := do
  let pStart ← rcvBuf.at (edge &&& UInt64.ofNat (rcvBuf.size - 1)).toNat
  let header := MsgEnd.ofList (memory.read pStart msgEndSize)
  let pktSize := min header.size.toNat packetSize + 2 * msgEndSize
  let frame ← locateInRingBuf rcvBuf edge pktSize
  return (packetOf header (memory.read frame.views0.data frame.views0.size ++
    memory.read frame.views1.data frame.views1.size), pktSize)

namespace Link

def setStack (link : Link) (thread : ℕ) (stack : List Activation) : Link :=
  { link with threads := Function.update link.threads thread stack }

/-- The frame at the writing edge enters the history. -/
def recordFrame (config : LinkConfig) (link : Link) (pktSize : ℕ) (posted : Bool) : Emission where
  edge := link.written
  size := pktSize
  record := link.mem.ringRead config.sendBuf.data config.ring link.written pktSize
  posted := posted

/-- A thread has put down a frame. -/
def emitted (config : LinkConfig) (link : Link) (pktSize : ℕ) (posted : Bool) : Link :=
  { link with
    written := link.written + pktSize
    emissions := link.emissions ++ [link.recordFrame config pktSize posted] }

/-- A thread has put down a frame and posted its writes. -/
def postedFrame (config : LinkConfig) (link : Link) (pktSize : ℕ) (writes : List Request)
    (complete : Bool) : Link :=
  { link.emitted config pktSize true with
    wire := link.wire ++
      [⟨link.recordFrame config pktSize true, writes.filterMap Request.write?, complete⟩]
    outWrites := link.outWrites ++ writes.map fun _ => link.written + pktSize }

/-- The next atomic step of a thread. -/
def runThread (config : LinkConfig) (link : Link) (thread : ℕ) (replies : SendReplies) :
    Except Stop Link :=
  match link.threads thread with
  | [] => .error .blocked
  | .sending req :: rest =>
      let (term, entered) := link.term.sendLocked req
      .ok ({ link with term, inserted := link.inserted ++ [req] }.setStack thread
        (if entered then .entering :: rest else rest))
  | .entering :: rest => do
      let _ ← runCode link.term.processSendQEntry
      return link.setStack thread (.looping :: rest)
  | .looping :: rest => do
      match ← runCode link.term.nextPacket with
      | none => return link.setStack thread (.full :: rest)
      | some next => return link.setStack thread (.emitting next :: rest)
  | .full :: rest =>
      .ok ({ link with term := { link.term with sndRunning := false } }.setStack thread
        (.checkingEdge none :: rest))
  | .emitting next :: rest => do
      -- a close between the load of `m_rmtMemToken` and the writes counts as after the writes:
      -- nothing in between looks at what it clears
      let (term, mem, posting) ←
        runCode (link.term.emitPacket link.mem config.sendBuf next replies)
      match posting with
      | .closing =>
          return ({ link with term, mem }.emitted config next.pktSize false).setStack thread
            (.closing :: rest)
      | .posted writes hr =>
          return ({ link with term, mem }.postedFrame config next.pktSize writes
            (accepted replies.firstHalf)).setStack thread
              (.checkingEdge (some (next, hr)) :: rest)
  | .closing :: rest =>
      .ok ({ link with term := { link.term with sndRunning := false } }.setStack thread rest)
  | .checkingEdge packet :: rest =>
      match link.term.checkRmtEdge with
      | none => .ok (link.setStack thread (afterEdge packet ++ rest))
      | some rmtToken => .ok (link.setStack thread (.readingEdge rmtToken packet :: rest))
  | .readingEdge rmtToken packet :: rest => do
      let (term, requests) ← runCode (link.term.readRmtEdge rmtToken replies.read)
      return ({ link with term, outReads := link.outReads + requests.length }).setStack thread
        (afterEdge packet ++ rest)
  | .advancing next hr :: rest =>
      let (term, finished) := link.term.advance next
      .ok ({ link with term }.setStack thread
        (if finished then .notifying next.req hr :: rest else .looping :: rest))
  | .notifying req hr :: rest =>
      .ok ({ link with called := link.called ++ [(req, hr)] }.setStack thread
        (.inCallback req :: rest))
  | .inCallback req :: rest => .ok (link.setStack thread (.popping req :: rest))
  | .popping req :: rest => do
      let (term, empty) ← runCode (link.term.popLocked req)
      return { link with term, popped := link.popped ++ [req] }.setStack thread
        (if empty then rest else .looping :: rest)

/-- One step of the connection. -/
def step (config : LinkConfig) (link : Link) : LinkAction → Except Stop Link
  | .call thread req =>
      if callsFrom (link.threads thread) then
        if sendAdmits req.buf then
          .ok (link.setStack thread (.sending req :: link.threads thread))
        else .ok link
      else .error .blocked
  | .enter thread =>
      if callsFrom (link.threads thread) then
        if link.term.sndRunning ∨ link.term.sndQue = [] then .ok link
        else .ok ({ link with term := { link.term with sndRunning := true } }.setStack thread
          (.entering :: link.threads thread))
      else .error .blocked
  | .run thread replies => link.runThread config thread replies
  | .deliver =>
      match link.wire with
      | [] => .error .blocked
      | ⟨emission, write :: writes, complete⟩ :: wire =>
          .ok { link with
            rmt := link.rmt.write write.1 write.2
            wire := ⟨emission, writes, complete⟩ :: wire }
      | ⟨emission, [], complete⟩ :: wire =>
          .ok { link with
            wire
            delivered :=
              if complete ∧ emission.edge = link.delivered then emission.last
              else link.delivered }
  | .take =>
      if link.consumed < link.delivered then do
        let (packet, pktSize) ←
          runCode (takeFrame link.rmt config.rcvBuf (UInt64.ofNat link.consumed))
        return { link with
          taken := link.taken ++ [packet], consumed := link.consumed + pktSize }
      else .error .blocked
  | .publish =>
      .ok { link with
        published := link.consumed
        outWrites := link.outWrites.filter fun last => link.consumed < last }
  | .land edge =>
      if link.landed ≤ edge ∧ edge ≤ config.ring + link.consumed then
        .ok { link with
          landed := edge
          term := { link.term with
            sndEnd := { link.term.sndEnd with trailingEdge := UInt64.ofNat edge } } }
      else .error .blocked
  | .completeWrite index => .ok { link with outWrites := link.outWrites.eraseIdx index }
  | .completeRead =>
      if 0 < link.outReads then
        .ok { link with
          outReads := link.outReads - 1
          term := { link.term with pendingRead := link.term.pendingRead - 1 } }
      else .error .blocked
  | .close =>
      .ok { link with term := { link.term with rmtMemToken := 0, rmtTagToken := 0 } }

end Link

/-- One connection, from its start on. -/
def linkMachine (config : LinkConfig) : Machine Link LinkAction Stop where
  start link := ∃ terminal mem rmt, config.Prepared terminal ∧
    link = { term := terminal, mem := mem, rmt := rmt, landed := config.ring }
  step link action := link.step config action

end Hermes
