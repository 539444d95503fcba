import Hermes.SendChecks

/-!
# A whole call of `ProcessSendQ`

`processSendQ` is the loop of `ProcessSendQ`, run by one thread while nothing else
happens to the terminal; `replies` has the provider's answers, turn by turn.  `plan`
says what such a call is for: it sends the packets that wait, in order, while there is
space, without a word about edges and memory.  `processSendQ_does` is the refinement: the
call does what the plan reports, and it aborts exactly when the plan fails.
-/

namespace Hermes

open Memory Packets

/-- What a call of `ProcessSendQ` works on.  `frames` has the edges and sizes of the frames it has
put down. -/
structure Sending where
  term : Terminal
  mem : Memory UInt8
  requests : List Request := []
  called : List (SndReq × StatusCode) := []
  frames : List (UInt64 × ℕ) := []

namespace Sending

/-- `Terminal::ReadRmtEdge`. -/
def readRmtEdge (state : Sending) (reply : HRESULT) : Except Abort Sending :=
  match state.term.checkRmtEdge with
  | none => .ok state
  | some rmtToken => do
      let (term, requests) ← state.term.readRmtEdge rmtToken reply
      return { state with term, requests := state.requests ++ requests }

def setRunning (state : Sending) (sndRunning : Bool) : Sending :=
  { state with term := { state.term with sndRunning } }

/-- A loop turn of `ProcessSendQ` from the edge read on.  The flag in the result says that it
returns. -/
def finish (state : Sending) (next : NextPacket) (hr : StatusCode) (read : HRESULT) :
    Except Abort (Sending × Bool) := do
  let state ← state.readRmtEdge read
  let (term, finished) := state.term.advance next
  let state := { state with term }
  if finished then do
    let state := { state with called := state.called ++ [(next.req, hr)] }
    let (term, empty) ← state.term.popLocked next.req
    return ({ state with term }, empty)
  else return (state, false)

/-- One loop turn of `ProcessSendQ`. -/
def turn (sendBuf : Span) (state : Sending) (replies : SendReplies) :
    Except Abort (Sending × Bool) := do
  match ← state.term.nextPacket with
  | none => do
      let state ← (state.setRunning false).readRmtEdge replies.read
      return (state, true)
  | some next => do
      let frame := (state.term.sndEnd.writeEdge, next.pktSize)
      let (term, mem, posting) ← state.term.emitPacket state.mem sendBuf next replies
      let state := { state with term, mem, frames := state.frames ++ [frame] }
      match posting with
      | .closing => return (state.setRunning false, true)
      | .posted writes hr =>
          let state := { state with requests := state.requests ++ writes }
          state.finish next hr replies.read

/-- The loop of `ProcessSendQ`, for at most `rounds` turns. -/
def loop (sendBuf : Span) (replies : ℕ → SendReplies) :
    ℕ → ℕ → Sending → Except Abort (Sending × Bool)
  | 0, _, state => .ok (state, false)
  | rounds + 1, number, state => do
      let (state, returned) ← state.turn sendBuf (replies number)
      if returned then return (state, true)
      else loop sendBuf replies rounds (number + 1) state

/-- As many turns as the loop can take: one for each packet that waits, and one more. -/
def rounds (state : Sending) : ℕ :=
  (state.term.sndQue.map fun req => count packetSize req.buf.bytes).sum + 1

/-- `ProcessSendQ`. -/
def processSendQ (sendBuf : Span) (replies : ℕ → SendReplies) (state : Sending) :
    Except Abort (Sending × Bool) := do
  let _ ← state.term.processSendQEntry
  loop sendBuf replies state.rounds 0 state

end Sending

/-- A packet that waits: the request and the number of the packet in it. -/
structure Parcel where
  req : SndReq
  index : ℕ
  deriving DecidableEq, Repr

namespace Parcel

def packet (parcel : Parcel) : Packet UInt8 :=
  Packets.packet packetSize parcel.req.buf.bytes parcel.index

/-- Size of the frame of a packet. -/
def size (parcel : Parcel) : ℕ := parcel.packet.body.length + 2 * msgEndSize

/-- The last packet of its request. -/
def last (parcel : Parcel) : Bool :=
  parcel.index + 1 = count packetSize parcel.req.buf.bytes

def aligned (parcel : Parcel) : Bool := parcel.req.buf.data % msgAlign = 0

end Parcel

def SndReq.parcels (req : SndReq) : List Parcel :=
  (List.range (count packetSize req.buf.bytes)).map fun index => ⟨req, index⟩

/-- The packets that wait when packet `index` of the request at the back is the next one. -/
def Terminal.parcels (terminal : Terminal) (index : ℕ) : List Parcel :=
  (terminal.sndQue.reverse.flatMap SndReq.parcels).drop index

/-- What a call reports: the packets it has put down, the notifications, the value of the read
counter, and the packets that still wait. -/
structure Report where
  sent : List Parcel := []
  called : List (SndReq × StatusCode) := []
  reads : ℕ
  left : List Parcel := []
  deriving DecidableEq, Repr

/-- An edge read is started when the connection is open and few are pending. -/
def planRead (tagToken : UInt32) (reads : ℕ) (reply : HRESULT) : Option ℕ :=
  if tagToken = 0 ∨ maxPendingRead ≤ reads then some reads
  else if accepted reply ∨ reply = ndCanceled then some (reads + 1)
  else none

/-- What a connection is for the plan: its two tokens. -/
structure Tokens where
  mem : UInt32
  tag : UInt32
  deriving DecidableEq, Repr

def Terminal.tokens (terminal : Terminal) : Tokens := ⟨terminal.rmtMemToken, terminal.rmtTagToken⟩

/-- The writes of a frame stop the process: one is refused. -/
def writesRefused (split : Bool) (replies : SendReplies) : Bool :=
  (split && !accepted replies.secondHalf) ||
    !(accepted replies.firstHalf || replies.firstHalf = ndCanceled)

/-- The status a turn keeps for the notification. -/
def writeStatus (replies : SendReplies) : StatusCode :=
  if replies.firstHalf = ndPending then ndSuccess else replies.firstHalf

/-- Send what waits while there is space; `none` when a check fails or the provider refuses a
request.  `split` says of the frame of a size after some bytes whether the end of the ring splits
it. -/
def plan (tokens : Tokens) (replies : ℕ → SendReplies) (split : ℕ → ℕ → Bool) :
    List Parcel → (number reads offset space : ℕ) → Option Report
  | [], _, reads, _, _ => some { reads }
  | parcel :: rest, number, reads, offset, space =>
      if space < parcel.size then do
        let reads ← planRead tokens.tag reads (replies number).read
        return { reads, left := parcel :: rest }
      else if !parcel.aligned then none
      else if tokens.mem = 0 then some { sent := [parcel], reads, left := parcel :: rest }
      else if writesRefused (split offset parcel.size) (replies number) then none
      else do
        let reads ← planRead tokens.tag reads (replies number).read
        let report ← plan tokens replies split rest (number + 1) reads (offset + parcel.size)
          (space - parcel.size)
        return { report with
          sent := parcel :: report.sent
          called := (if parcel.last then [(parcel.req, writeStatus (replies number))] else []) ++
            report.called }

/-- Free space of the ring, as `ProcessSendQ` computes it. -/
def Terminal.available (terminal : Terminal) : ℕ :=
  (terminal.sndEnd.trailingEdge - terminal.sndEnd.writeEdge).toNat

/-- A terminal between two packets: packet `index` of the request at the back is the next one. -/
structure Stands (config : LinkConfig) (terminal : Terminal) (index : ℕ) : Prop where
  edgeAligned : msgEndSize ∣ terminal.sndEnd.writeEdge.toNat
  space : terminal.available ≤ config.ring
  admitted : ∀ req ∈ terminal.sndQue, sendAdmits req.buf = true
  idx : terminal.mSndIdx.toInt = index
  idle : terminal.sndQue = [] → index = 0
  more : ∀ req, terminal.sndQue.getLast? = some req → index < count packetSize req.buf.bytes
  pMemRegion : terminal.pMemRegion.isSome
  pTagRegion : terminal.pTagRegion.isSome
  pQuePair : terminal.pQuePair.isSome

/-- A terminal no thread works on stands between two packets, in every run. -/
theorem Waiting.stands {config : LinkConfig} {link : Link} (waiting : Waiting link)
    (flow : Flow config link) (discipline : Discipline link) (equipped : Equipped link) :
    ∃ index, Stands config link.term index := by
  rcases waiting with ⟨index, idx, ledger, idle, more⟩
  refine
    ⟨index,
      { edgeAligned := ?_
        space := ?_
        admitted := ?_
        idx := idx
        idle := idle
        more := more
        pMemRegion := equipped.pMemRegion
        pTagRegion := equipped.pTagRegion
        pQuePair := equipped.pQuePair }⟩
  · have aligned := flow.aligned
    rw [flow.writeEdge, UInt64.toNat_ofNat']
    simp only [msgEndSize] at *
    omega
  · have := flow.landed_le
    have := flow.consumed_le
    rw [Terminal.available, flow.available]
    omega
  · intro req queued
    apply discipline.admitted
    rw [ledger.inserted]
    exact List.mem_append_right _ (List.mem_reverse.mpr queued)

section Parcels

variable {config : LinkConfig} {terminal : Terminal} {index : ℕ} {req : SndReq}

theorem SndReq.parcels_drop (more : index < count packetSize req.buf.bytes) :
    req.parcels.drop index = ⟨req, index⟩ :: req.parcels.drop (index + 1) := by
  have inside : index < req.parcels.length := by simpa [SndReq.parcels] using more
  rw [List.drop_eq_getElem_cons inside]
  simp [SndReq.parcels]

theorem SndReq.parcels_drop_count (last : index = count packetSize req.buf.bytes) :
    req.parcels.drop index = [] := by
  apply List.drop_of_length_le
  simp [SndReq.parcels, last]

/-- The packets that wait, when there is a request at the back. -/
theorem Terminal.parcels_of_back (back : terminal.sndQue.getLast? = some req)
    (more : index ≤ count packetSize req.buf.bytes) :
    terminal.parcels index =
      req.parcels.drop index ++ terminal.sndQue.dropLast.reverse.flatMap SndReq.parcels := by
  have split : terminal.sndQue.reverse = req :: terminal.sndQue.dropLast.reverse := by
    conv_lhs => rw [← List.dropLast_append_getLast? req back]
    simp
  have inside : index ≤ req.parcels.length := by simpa [SndReq.parcels] using more
  rw [Terminal.parcels, split, List.flatMap_cons, List.drop_append_of_le_length inside]

theorem Parcel.aligned_iff (parcel : Parcel) :
    parcel.aligned = true ↔ 16 ∣ parcel.req.buf.data := by
  rw [Parcel.aligned, decide_eq_true_iff, Nat.dvd_iff_mod_eq_zero, msgAlign]

/-- Size of a frame, from the length of its message. -/
theorem Parcel.size_eq (parcel : Parcel) :
    parcel.size =
      min packetSize (parcel.req.buf.size - parcel.index * packetSize) + 2 * msgEndSize := by
  simp [Parcel.size, Parcel.packet, Packets.packet, Buf.size]

theorem Parcel.size_le (parcel : Parcel) : parcel.size ≤ packetSize + 2 * msgEndSize := by
  have body : parcel.packet.body.length ≤ packetSize := by
    rw [Parcel.packet, Packets.packet]
    exact List.length_take_le _ _
  simp only [Parcel.size]
  omega

end Parcels

section Turn

variable {config : LinkConfig} {state : Sending} {index number : ℕ} {req : SndReq}
  {replies : SendReplies}

/-- `Terminal::ReadRmtEdge` does what the plan of an edge read says. -/
theorem Sending.readRmtEdge_planRead (state : Sending) (region : state.term.pTagRegion.isSome)
    (queuePair : state.term.pQuePair.isSome) (reply : HRESULT) :
    match planRead state.term.rmtTagToken state.term.pendingRead reply with
    | none => ∃ reason, state.readRmtEdge reply = .error reason
    | some reads => ∃ requests, state.readRmtEdge reply = .ok { state with
        term := { state.term with pendingRead := reads }, requests := requests } := by
  by_cases skip : state.term.rmtTagToken = 0 ∨ maxPendingRead ≤ state.term.pendingRead
  · have check : state.term.checkRmtEdge = none := by
      rcases skip with closed | many
      · simp [Terminal.checkRmtEdge, closed]
      · simp [Terminal.checkRmtEdge, many]
    simp only [planRead, skip, if_true, Sending.readRmtEdge, check]
    exact ⟨state.requests, rfl⟩
  · have check : state.term.checkRmtEdge = some state.term.rmtTagToken := by
      rcases not_or.mp skip with ⟨opened, few⟩
      simp [Terminal.checkRmtEdge, opened, few]
    simp only [planRead, skip, if_false, Sending.readRmtEdge, check]
    by_cases answered : accepted reply = true ∨ reply = ndCanceled
    · rw [if_pos answered]
      have read : state.term.readRmtEdge state.term.rmtTagToken reply = .ok (_, _) :=
        Terminal.readRmtEdge_ok_iff.mpr ⟨region, queuePair, answered, rfl, rfl⟩
      simp only [read, bind, Except.bind, pure, Except.pure]
      exact ⟨_, rfl⟩
    · rw [if_neg answered]
      cases read : state.term.readRmtEdge state.term.rmtTagToken reply with
      | error reason => exact ⟨reason, rfl⟩
      | ok result =>
          rcases result with ⟨term, requests⟩
          exact absurd (Terminal.readRmtEdge_ok_iff.mp read).2.2.1 answered

/-- The memory shows the frame of a packet. -/
def ShowsParcel (config : LinkConfig) (memory : Memory UInt8) (edge : ℕ) (parcel : Parcel) : Prop :=
  ∃ header : MsgEnd,
    memory.Shows config.sendBuf.data config.ring edge (frameRecord header parcel.packet.body) ∧
    packetOf header parcel.packet.body = parcel.packet ∧ (header.type = .single ↔ header.seq = 0)

/-- The loop head finds the packet, or no space for it. -/
theorem Stands.nextPacket (stands : Stands config state.term index)
    (back : state.term.sndQue.getLast? = some req) :
    ∃ srcBuf, AtPacket state.term req.buf.bytes index srcBuf ∧
      (16 ∣ srcBuf.data ↔ (⟨req, index⟩ : Parcel).aligned = true) ∧
      (⟨req, index⟩ : Parcel).size = min srcBuf.size packetSize + 2 * msgEndSize ∧
      state.term.nextPacket = .ok
        (if state.term.available < (⟨req, index⟩ : Parcel).size then none
          else some ⟨req, srcBuf, (⟨req, index⟩ : Parcel).size⟩) := by
  have admits := (sendAdmits_iff _).mp (stands.admitted req (List.mem_of_getLast? back))
  rcases Terminal.nextPacket_eq back stands.idx (stands.more req back) admits.1 with
    ⟨srcBuf, atPacket, data, nextEq⟩
  have size : (⟨req, index⟩ : Parcel).size = min srcBuf.size packetSize + 2 * msgEndSize := by
    have body := atPacket.body_eq
    simp only [Parcel.size, Parcel.packet]
    rw [← body, List.length_take, Nat.min_comm]
    rfl
  refine ⟨srcBuf, atPacket, ?_, size, ?_⟩
  · rw [data, Parcel.aligned_iff]
    simp only [packetSize]
    omega
  · rw [nextEq, size]
    rfl

theorem Stands.fits (stands : Stands config state.term index)
    (back : state.term.sndQue.getLast? = some req)
    (space : (⟨req, index⟩ : Parcel).size ≤ state.term.available) :
    FrameFits config.ring state.term.sndEnd.writeEdge.toNat (⟨req, index⟩ : Parcel).size where
  power := ⟨config.exponent, by have := config.small; omega, config.power⟩
  edgeAligned := stands.edgeAligned
  sizeAligned := by
    have admits := (sendAdmits_iff _).mp (stands.admitted req (List.mem_of_getLast? back))
    rcases stands.nextPacket back with ⟨srcBuf, atPacket, _, size, _⟩
    have srcSize := atPacket.size_eq
    have length : req.buf.bytes.length = req.buf.size := rfl
    rw [size]
    simp only [msgAlign, msgEndSize, packetSize] at *
    omega
  low := by
    simp only [Parcel.size]
    omega
  high := le_trans space stands.space

/-- What a turn leaves behind that has sent a packet, and notified its message when it is the last
one. -/
structure Turned (config : LinkConfig) (state : Sending) (parcel : Parcel) (reads : ℕ)
    (replies : SendReplies) (state' : Sending) (returned : Bool) : Prop where
  ends : returned = true ↔ parcel.last = true ∧ state.term.sndQue.dropLast = []
  term : state'.term = { state.term with
    sndEnd := { state.term.sndEnd with
      writeEdge := state.term.sndEnd.writeEdge + UInt64.ofNat parcel.size }
    sndQue := if parcel.last then state.term.sndQue.dropLast else state.term.sndQue
    mSndIdx := if parcel.last then 0 else state.term.mSndIdx + 1
    pendingRead := reads
    sndRunning := if returned then false else state.term.sndRunning }
  called : state'.called = state.called ++
    if parcel.last then [(parcel.req, writeStatus replies)] else []
  frames : state'.frames = state.frames ++ [(state.term.sndEnd.writeEdge, parcel.size)]
  shown : ShowsParcel config state'.mem state.term.sndEnd.writeEdge.toNat parcel
  changed : ∀ place, state'.mem place ≠ state.mem place → ∃ offset < parcel.size,
    place = config.sendBuf.data + (state.term.sndEnd.writeEdge.toNat + offset) % config.ring

/-- A turn without space for the packet leaves the loop. -/
theorem Stands.turn_full (replies : SendReplies) (stands : Stands config state.term index)
    (back : state.term.sndQue.getLast? = some req)
    (noSpace : state.term.available < (⟨req, index⟩ : Parcel).size) :
    match planRead state.term.rmtTagToken state.term.pendingRead replies.read with
    | none => ∃ reason, state.turn config.sendBuf replies = .error reason
    | some reads => ∃ state', state.turn config.sendBuf replies = .ok (state', true) ∧
        state'.term = { state.term with pendingRead := reads, sndRunning := false } ∧
        state'.called = state.called ∧ state'.frames = state.frames ∧ state'.mem = state.mem := by
  rcases stands.nextPacket back with ⟨srcBuf, _, _, _, next⟩
  rw [if_pos noSpace] at next
  have read : match planRead state.term.rmtTagToken state.term.pendingRead replies.read with
      | none => ∃ reason, (state.setRunning false).readRmtEdge replies.read = .error reason
      | some reads => ∃ requests, (state.setRunning false).readRmtEdge replies.read = .ok
          { state.setRunning false with
            term := { (state.setRunning false).term with pendingRead := reads }
            requests := requests } :=
    (state.setRunning false).readRmtEdge_planRead stands.pTagRegion stands.pQuePair replies.read
  cases planned : planRead state.term.rmtTagToken state.term.pendingRead replies.read with
  | none =>
      simp only [planned] at read
      rcases read with ⟨reason, read⟩
      refine ⟨reason, ?_⟩
      simp only [Sending.turn, next, read, bind, Except.bind]
  | some reads =>
      simp only [planned] at read
      rcases read with ⟨requests, read⟩
      let after : Sending := { state.setRunning false with
        term := { (state.setRunning false).term with pendingRead := reads }
        requests := requests }
      have turned : state.turn config.sendBuf replies = .ok (after, true) := by
        simp only [Sending.turn, next, read, bind, Except.bind, pure, Except.pure, after]
      exact ⟨after, turned, rfl, rfl, rfl, rfl⟩

theorem writesRefused_eq_false (split : Prop) [Decidable split] (replies : SendReplies) :
    writesRefused (decide split) replies = false ↔ WritesAnswered replies split := by
  have answered : WritesAnswered replies split ↔ (split → accepted replies.secondHalf = true) ∧
      (accepted replies.firstHalf = true ∨ replies.firstHalf = ndCanceled) :=
    ⟨fun both => ⟨both.second, both.first⟩, fun both => ⟨both.1, both.2⟩⟩
  rw [answered]
  cases second : accepted replies.secondHalf <;> cases first : accepted replies.firstHalf <;>
    simp [writesRefused, second, first]

theorem Terminal.emitPacket_aligned {terminal : Terminal} {memory : Memory UInt8} {sendBuf : Span}
    {next : NextPacket} {result : Terminal × Memory UInt8 × Posting}
    (emitted : terminal.emitPacket memory sendBuf next replies = .ok result) :
    16 ∣ next.srcBuf.data := by
  simp only [Terminal.emitPacket, bind_eq_ok] at emitted
  rcases emitted with ⟨_, put, _⟩
  exact Terminal.putDown_aligned put

/-- A turn whose edge read is refused aborts. -/
theorem Sending.finish_fails {next : NextPacket} {hr : StatusCode} {reply : HRESULT}
    (region : state.term.pTagRegion.isSome) (queuePair : state.term.pQuePair.isSome)
    (refused : planRead state.term.rmtTagToken state.term.pendingRead reply = none) :
    ∃ reason, state.finish next hr reply = .error reason := by
  have read := state.readRmtEdge_planRead region queuePair reply
  simp only [refused] at read
  rcases read with ⟨reason, read⟩
  exact ⟨reason, by simp only [Sending.finish, read, bind, Except.bind]⟩

/-- The end of a turn that has posted a packet: the packet is counted, or its message is notified
and leaves the queue. -/
theorem Sending.finish_ok {next : NextPacket} {hr : StatusCode} {reply : HRESULT} {reads : ℕ}
    (region : state.term.pTagRegion.isSome) (queuePair : state.term.pQuePair.isSome)
    (planned : planRead state.term.rmtTagToken state.term.pendingRead reply = some reads)
    (back : state.term.sndQue.getLast? = some next.req) :
    ∃ state' returned, state.finish next hr reply = .ok (state', returned) ∧
      (returned = true ↔ ¬packetSize < next.srcBuf.size ∧ state.term.sndQue.dropLast = []) ∧
      state'.term = { state.term with
        sndQue := if packetSize < next.srcBuf.size then state.term.sndQue
          else state.term.sndQue.dropLast
        mSndIdx := if packetSize < next.srcBuf.size then state.term.mSndIdx + 1 else 0
        pendingRead := reads
        sndRunning := if returned then false else state.term.sndRunning } ∧
      state'.called = state.called ++
        (if packetSize < next.srcBuf.size then [] else [(next.req, hr)]) ∧
      state'.frames = state.frames ∧ state'.mem = state.mem := by
  have read := state.readRmtEdge_planRead region queuePair reply
  simp only [planned] at read
  rcases read with ⟨requests, read⟩
  by_cases more : packetSize < next.srcBuf.size
  · let after : Sending := { state with
      term := { state.term with pendingRead := reads, mSndIdx := state.term.mSndIdx + 1 }
      requests := requests }
    have finished : state.finish next hr reply = .ok (after, false) := by
      simp [Sending.finish, read, bind, Except.bind, Terminal.advance, more, pure, Except.pure,
        after]
    exact ⟨after, false, finished, by simp [more], by simp [more, after], by simp [more, after],
      rfl, rfl⟩
  · by_cases nothing : state.term.sndQue.dropLast = []
    · let after : Sending := { state with
        term := { state.term with
          pendingRead := reads, mSndIdx := 0, sndQue := [], sndRunning := false }
        requests := requests
        called := state.called ++ [(next.req, hr)] }
      have finished : state.finish next hr reply = .ok (after, true) := by
        simp [Sending.finish, read, bind, Except.bind, Terminal.advance, more, pure, Except.pure,
          Terminal.popLocked, back, deref, auditAssert, nothing, after]
      exact ⟨after, true, finished, by simp [more, nothing], by simp [more, nothing, after],
        by simp [more, after], rfl, rfl⟩
    · let after : Sending := { state with
        term := { state.term with
          pendingRead := reads, mSndIdx := 0, sndQue := state.term.sndQue.dropLast }
        requests := requests
        called := state.called ++ [(next.req, hr)] }
      have finished : state.finish next hr reply = .ok (after, false) := by
        simp [Sending.finish, read, bind, Except.bind, Terminal.advance, more, pure, Except.pure,
          Terminal.popLocked, back, deref, auditAssert, nothing, after]
      exact ⟨after, false, finished, by simp [nothing], by simp [more, after],
        by simp [more, after], rfl, rfl⟩

/-- Whether the end of the ring splits the frame of `size` bytes that is `offset` bytes after an
edge. -/
def splitAt (ring edge offset size : ℕ) : Bool := ring < (edge + offset) % ring + size

/-- A turn with space for the packet aborts when a check fails or a request is refused. -/
theorem Stands.turn_fails (replies : SendReplies) (stands : Stands config state.term index)
    (back : state.term.sndQue.getLast? = some req)
    (space : (⟨req, index⟩ : Parcel).size ≤ state.term.available)
    (fails : (⟨req, index⟩ : Parcel).aligned = false ∨ state.term.rmtMemToken ≠ 0 ∧
      (writesRefused (splitAt config.ring state.term.sndEnd.writeEdge.toNat 0
          (⟨req, index⟩ : Parcel).size) replies = true ∨
        planRead state.term.rmtTagToken state.term.pendingRead replies.read = none)) :
    ∃ reason, state.turn config.sendBuf replies = .error reason := by
  rcases stands.nextPacket back with ⟨srcBuf, atPacket, aligned, size, next⟩
  rw [if_neg (Nat.not_lt.mpr space)] at next
  have fits := stands.fits back space
  set parcel : Parcel := ⟨req, index⟩ with parcelDef
  cases emitted : state.term.emitPacket state.mem config.sendBuf
    ⟨req, srcBuf, parcel.size⟩ replies with
  | error reason =>
      refine ⟨reason, ?_⟩
      simp only [Sending.turn, next, emitted, bind, Except.bind]
  | ok result =>
      rcases result with ⟨term, mem, posting⟩
      have srcAligned := Terminal.emitPacket_aligned emitted
      rcases fails with misaligned | ⟨opened, refused⟩
      · rw [aligned.mp srcAligned] at misaligned
        cases misaligned
      · rcases Terminal.emitPacket_ok atPacket fits size config.aligned emitted with
          ⟨rfl, record, after⟩
        rcases after.outcome with ⟨closed, _⟩ | ⟨_, answered, rfl⟩
        · exact absurd closed opened
        · have answers : writesRefused (splitAt config.ring state.term.sndEnd.writeEdge.toNat 0
              parcel.size) replies = false := (writesRefused_eq_false _ replies).mpr answered
          rw [answers] at refused
          have noRead :
              planRead state.term.rmtTagToken state.term.pendingRead replies.read = none := by
            simpa using refused
          simp only [Sending.turn, next, emitted, bind, Except.bind]
          exact Sending.finish_fails stands.pTagRegion stands.pQuePair noRead

/-- A turn that finds the connection closing drops its packet and leaves the loop. -/
theorem Stands.turn_closing (replies : SendReplies) (stands : Stands config state.term index)
    (back : state.term.sndQue.getLast? = some req)
    (space : (⟨req, index⟩ : Parcel).size ≤ state.term.available)
    (aligned : (⟨req, index⟩ : Parcel).aligned = true) (closed : state.term.rmtMemToken = 0) :
    ∃ state', state.turn config.sendBuf replies = .ok (state', true) ∧
      state'.term = { state.term with
        sndEnd := { state.term.sndEnd with
          writeEdge := state.term.sndEnd.writeEdge + UInt64.ofNat (⟨req, index⟩ : Parcel).size }
        sndRunning := false } ∧
      state'.called = state.called ∧
      state'.frames =
        state.frames ++ [(state.term.sndEnd.writeEdge, (⟨req, index⟩ : Parcel).size)] ∧
      ShowsParcel config state'.mem state.term.sndEnd.writeEdge.toNat ⟨req, index⟩ ∧
      ∀ place, state'.mem place ≠ state.mem place → ∃ offset < (⟨req, index⟩ : Parcel).size,
        place = config.sendBuf.data +
          (state.term.sndEnd.writeEdge.toNat + offset) % config.ring := by
  rcases stands.nextPacket back with ⟨srcBuf, atPacket, alignedIff, size, next⟩
  rw [if_neg (Nat.not_lt.mpr space)] at next
  have fits := stands.fits back space
  set parcel : Parcel := ⟨req, index⟩ with parcelDef
  have srcAligned := alignedIff.mpr aligned
  rcases Terminal.putDown_eq state.mem atPacket fits size config.aligned srcAligned with
    ⟨header, after, putEq, isPacket, single, putDown⟩
  have put : state.term.putDown state.mem config.sendBuf srcBuf parcel.size = .ok _ := putEq
  have emitted : state.term.emitPacket state.mem config.sendBuf ⟨req, srcBuf, parcel.size⟩ replies =
      .ok (state.term.pastFrame parcel.size, after, .closing) := by
    simp only [Terminal.emitPacket, put, bind, Except.bind]
    rw [Terminal.pastFrame_rmtMemToken, if_pos closed]
    rfl
  let dropped : Sending := { state with
    term := { state.term.pastFrame parcel.size with sndRunning := false }
    mem := after
    frames := state.frames ++ [(state.term.sndEnd.writeEdge, parcel.size)] }
  have turned : state.turn config.sendBuf replies = .ok (dropped, true) := by
    simp only [Sending.turn, next, emitted, bind, Except.bind, pure, Except.pure]
    rfl
  have bodyLength : parcel.packet.body.length = parcel.size - 2 * msgEndSize := by
    simp only [Parcel.size]
    omega
  have length := (isRecord_frameRecord header bodyLength).length fits.low
  refine ⟨dropped, turned, rfl, rfl, rfl, ⟨header, putDown.shown, isPacket, single⟩, ?_⟩
  intro place changed
  rcases putDown.changed changed with ⟨offset, inside, placed⟩
  exact ⟨offset, by rw [← length]; exact inside, placed⟩

/-- A turn that posts its packet. -/
theorem Stands.turn_posted {reads : ℕ} (stands : Stands config state.term index)
    (back : state.term.sndQue.getLast? = some req)
    (space : (⟨req, index⟩ : Parcel).size ≤ state.term.available)
    (aligned : (⟨req, index⟩ : Parcel).aligned = true) (opened : state.term.rmtMemToken ≠ 0)
    (answered : writesRefused (splitAt config.ring state.term.sndEnd.writeEdge.toNat 0
      (⟨req, index⟩ : Parcel).size) replies = false)
    (planned : planRead state.term.rmtTagToken state.term.pendingRead replies.read = some reads) :
    ∃ state' returned, state.turn config.sendBuf replies = .ok (state', returned) ∧
      Turned config state ⟨req, index⟩ reads replies state' returned := by
  rcases stands.nextPacket back with ⟨srcBuf, atPacket, alignedIff, size, next⟩
  rw [if_neg (Nat.not_lt.mpr space)] at next
  have fits := stands.fits back space
  have more := atPacket.size_gt_iff
  have inside := stands.more req back
  set parcel : Parcel := ⟨req, index⟩ with parcelDef
  have last : packetSize < srcBuf.size ↔ ¬parcel.last = true := by
    rw [more, Parcel.last, decide_eq_true_iff]
    simp only [parcelDef]
    omega
  have srcAligned := alignedIff.mpr aligned
  have answers : WritesAnswered replies
      (config.ring < state.term.sndEnd.writeEdge.toNat % config.ring + parcel.size) :=
    (writesRefused_eq_false _ replies).mp answered
  have emits : ∃ result, state.term.emitPacket state.mem config.sendBuf
      ⟨req, srcBuf, parcel.size⟩ replies = .ok result :=
    Terminal.emitPacket_succeeds state.mem atPacket fits size config.aligned srcAligned
      stands.pMemRegion stands.pQuePair answers
  rcases emits with ⟨⟨term, mem, posting⟩, emitted⟩
  rcases Terminal.emitPacket_ok atPacket fits size config.aligned emitted with ⟨rfl, record, after⟩
  rcases after.outcome with ⟨closed, _⟩ | ⟨_, _, rfl⟩
  · exact absurd closed opened
  let posted : Sending := { state with
    term := state.term.pastFrame parcel.size
    mem := mem
    requests := state.requests ++ writeRequests state.term.rmtMemToken
      (acceptedWrites state.term.rmtBufAddr config.ring state.term.sndEnd.writeEdge.toNat record
        replies)
    frames := state.frames ++ [(state.term.sndEnd.writeEdge, parcel.size)] }
  have finish : ∃ state' returned,
      posted.finish ⟨req, srcBuf, parcel.size⟩ (writeStatus replies) replies.read =
        .ok (state', returned) ∧ _ :=
    Sending.finish_ok stands.pTagRegion stands.pQuePair planned back
  rcases finish with ⟨state', returned, finished, returns, termEq, called, frames, memEq⟩
  refine ⟨state', returned, ?_, ?_⟩
  · simp only [Sending.turn, next, emitted, bind, Except.bind]
    exact finished
  · rcases after.framed with ⟨header, framed, isPacket, single⟩
    have shown := after.putDown.shown
    rw [framed] at shown
    refine
      { ends := ?_
        term := ?_
        called := ?_
        frames := frames
        shown := ?_
        changed := ?_ }
    · rw [returns, last, not_not]
      rfl
    · rw [termEq]
      by_cases isLast : parcel.last = true <;> simp [last, isLast, posted, Terminal.pastFrame]
    · rw [called]
      have same : parcel.req = req := rfl
      by_cases isLast : parcel.last = true <;> simp [last, isLast, posted, same]
    · rw [memEq]
      exact ⟨header, shown, isPacket, single⟩
    · intro place changed
      rw [memEq] at changed
      rcases after.putDown.changed changed with ⟨offset, inside, placed⟩
      have length : record.length = parcel.size := after.length
      exact ⟨offset, length ▸ inside, placed⟩

end Turn

section Reports

variable {config : LinkConfig} {state state' : Sending} {index : ℕ} {req : SndReq}

/-- Bytes of the frames of some packets. -/
def totalSize (parcels : List Parcel) : ℕ := (parcels.map Parcel.size).sum

/-- Edges and sizes of the frames of some packets, put down from an edge on. -/
def framesAt : UInt64 → List Parcel → List (UInt64 × ℕ)
  | _, [] => []
  | edge, parcel :: rest =>
      (edge, parcel.size) :: framesAt (edge + UInt64.ofNat parcel.size) rest

/-- A call has done what the report says: the terminal, the callbacks, the frames in the ring, and
what waits after it. -/
structure Reports (config : LinkConfig) (state : Sending) (report : Report) (state' : Sending) :
    Prop where
  term : state'.term = { state.term with
    sndEnd := { state.term.sndEnd with
      writeEdge := state.term.sndEnd.writeEdge + UInt64.ofNat (totalSize report.sent) }
    sndQue := state.term.sndQue.take (state.term.sndQue.length - report.called.length)
    mSndIdx := Int16.ofNat ((report.left.head?.map Parcel.index).getD 0)
    pendingRead := report.reads
    sndRunning := false }
  called : state'.called = state.called ++ report.called
  frames : state'.frames = state.frames ++ framesAt state.term.sndEnd.writeEdge report.sent
  shown : List.Forall₂ (fun frame parcel => ShowsParcel config state'.mem frame.1.toNat parcel)
    (framesAt state.term.sndEnd.writeEdge report.sent) report.sent
  changed : ∀ place, state'.mem place ≠ state.mem place → ∃ offset < totalSize report.sent,
    place = config.sendBuf.data + (state.term.sndEnd.writeEdge.toNat + offset) % config.ring
  left : ∃ next, Stands config state'.term next ∧ state'.term.parcels next = report.left

/-- The packet index of a terminal, as a natural number. -/
theorem Stands.mSndIdx_eq (stands : Stands config state.term index)
    (back : state.term.sndQue.getLast? = some req) : state.term.mSndIdx = Int16.ofNat index := by
  have admits := (sendAdmits_iff _).mp (stands.admitted req (List.mem_of_getLast? back))
  have atPacket : AtPacket state.term req.buf.bytes index
      ⟨0, req.buf.bytes.drop (index * packetSize)⟩ :=
    ⟨stands.idx, stands.more req back, admits.1, rfl⟩
  have few := atPacket.count_lt
  have more := atPacket.more
  apply Int16.toInt_inj.mp
  rw [stands.idx, Int16.toInt_ofNat_of_lt (by simp only [int16Max] at few; omega)]

/-- The edge after a frame, as a ring position. -/
theorem LinkConfig.edge_add_mod (config : LinkConfig) (edge : UInt64) (size offset : ℕ) :
    ((edge + UInt64.ofNat size).toNat + offset) % config.ring =
      (edge.toNat + (size + offset)) % config.ring := by
  have divides : config.ring ∣ 2 ^ 64 := by
    have small := config.small
    rw [LinkConfig.ring, config.power]
    exact Nat.pow_dvd_pow 2 (by omega)
  have sum :
      (edge + UInt64.ofNat size).toNat % config.ring = (edge.toNat + size) % config.ring := by
    rw [UInt64.toNat_add, UInt64.toNat_ofNat']
    rw [Nat.mod_mod_of_dvd _ divides, Nat.add_mod, Nat.mod_mod_of_dvd _ divides, ← Nat.add_mod]
  rw [Nat.add_mod, sum, ← Nat.add_mod, Nat.add_assoc]

/-- The edges after a frame that has space. -/
theorem Stands.past_frame {terminal : Terminal} (stands : Stands config terminal index)
    (back : terminal.sndQue.getLast? = some req)
    (space : (⟨req, index⟩ : Parcel).size ≤ terminal.available) :
    msgEndSize ∣ (terminal.pastFrame (⟨req, index⟩ : Parcel).size).sndEnd.writeEdge.toNat ∧
      (terminal.pastFrame (⟨req, index⟩ : Parcel).size).available =
        terminal.available - (⟨req, index⟩ : Parcel).size := by
  let state : Sending := { term := terminal, mem := fun _ => 0 }
  have fits : FrameFits config.ring state.term.sndEnd.writeEdge.toNat
      (⟨req, index⟩ : Parcel).size := Stands.fits stands back space
  have sizeLe := Parcel.size_le ⟨req, index⟩
  have sizeAligned := fits.sizeAligned
  have edgeAligned := stands.edgeAligned
  have writeEdge : (terminal.pastFrame (⟨req, index⟩ : Parcel).size).sndEnd.writeEdge.toNat =
      (terminal.sndEnd.writeEdge.toNat + (⟨req, index⟩ : Parcel).size) % 2 ^ 64 := by
    simp only [Terminal.pastFrame, UInt64.toNat_add, UInt64.toNat_ofNat']
    omega
  have trailingEdge : (terminal.pastFrame (⟨req, index⟩ : Parcel).size).sndEnd.trailingEdge =
      terminal.sndEnd.trailingEdge := rfl
  have write := terminal.sndEnd.writeEdge.toNat_lt
  have trailing := terminal.sndEnd.trailingEdge.toNat_lt
  refine ⟨?_, ?_⟩
  · rw [writeEdge]
    simp only [msgEndSize] at *
    omega
  · simp only [Terminal.available, UInt64.toNat_sub, writeEdge, trailingEdge] at space ⊢
    omega

/-- A turn that has sent a packet stands at the next one. -/
theorem Turned.stands {reads : ℕ} {replies : SendReplies} {returned : Bool}
    (turned : Turned config state ⟨req, index⟩ reads replies state' returned)
    (stands : Stands config state.term index) (back : state.term.sndQue.getLast? = some req)
    (space : (⟨req, index⟩ : Parcel).size ≤ state.term.available) :
    ∃ next, Stands config state'.term next ∧
      state.term.parcels index = ⟨req, index⟩ :: state'.term.parcels next ∧
      state'.term.available = state.term.available - (⟨req, index⟩ : Parcel).size ∧
      state'.term.tokens = state.term.tokens ∧ state'.term.pendingRead = reads := by
  have fits := stands.fits back space
  have more := stands.more req back
  have sizeLe := Parcel.size_le ⟨req, index⟩
  have admits := (sendAdmits_iff _).mp (stands.admitted req (List.mem_of_getLast? back))
  have atPacket : AtPacket state.term req.buf.bytes index
      ⟨0, req.buf.bytes.drop (index * packetSize)⟩ := ⟨stands.idx, more, admits.1, rfl⟩
  have few := atPacket.count_lt
  have waiting := Terminal.parcels_of_back back (Nat.le_of_lt more)
  set parcel : Parcel := ⟨req, index⟩ with parcelDef
  have sndEnd : state'.term.sndEnd = (state.term.pastFrame parcel.size).sndEnd := by
    rw [turned.term]
    rfl
  rcases stands.past_frame back space with ⟨pastAligned, pastAvailable⟩
  have available : state'.term.available = state.term.available - parcel.size := by
    rw [Terminal.available, sndEnd]
    exact pastAvailable
  have edgeAligned : msgEndSize ∣ state'.term.sndEnd.writeEdge.toNat := by
    rw [sndEnd]
    exact pastAligned
  have tokens : state'.term.tokens = state.term.tokens := by
    rw [turned.term]
    rfl
  have pendingRead : state'.term.pendingRead = reads := by rw [turned.term]
  have sndQue : state'.term.sndQue =
      if parcel.last then state.term.sndQue.dropLast else state.term.sndQue := by rw [turned.term]
  have mSndIdx : state'.term.mSndIdx = if parcel.last then 0 else state.term.mSndIdx + 1 := by
    rw [turned.term]
  have admitted : ∀ req ∈ state'.term.sndQue, sendAdmits req.buf = true := by
    intro other queued
    rw [sndQue] at queued
    split at queued
    · exact stands.admitted other (List.mem_of_mem_dropLast queued)
    · exact stands.admitted other queued
  have objects : state'.term.pMemRegion.isSome ∧ state'.term.pTagRegion.isSome ∧
      state'.term.pQuePair.isSome := by
    rw [turned.term]
    exact ⟨stands.pMemRegion, stands.pTagRegion, stands.pQuePair⟩
  have spaceLe := stands.space
  by_cases last : parcel.last = true
  · rw [if_pos last] at sndQue mSndIdx
    have lastIndex : index + 1 = count packetSize req.buf.bytes := by
      simpa [Parcel.last, parcelDef] using last
    refine ⟨0, ?_, ?_, available, tokens, pendingRead⟩
    · exact
        { edgeAligned := edgeAligned
          space := by omega
          admitted := admitted
          idx := by rw [mSndIdx]; rfl
          idle := fun _ => rfl
          more := fun req _ => count_pos packetSize req.buf.bytes
          pMemRegion := objects.1
          pTagRegion := objects.2.1
          pQuePair := objects.2.2 }
    · rw [waiting, SndReq.parcels_drop more, SndReq.parcels_drop_count lastIndex, Terminal.parcels,
        sndQue]
      rfl
  · rw [if_neg last] at sndQue mSndIdx
    have moreLeft : index + 1 < count packetSize req.buf.bytes := by
      have notLast : index + 1 ≠ count packetSize req.buf.bytes := by
        simpa [Parcel.last, parcelDef] using last
      omega
    have back' : state'.term.sndQue.getLast? = some req := by rw [sndQue]; exact back
    refine ⟨index + 1, ?_, ?_, available, tokens, pendingRead⟩
    · exact
        { edgeAligned := edgeAligned
          space := by omega
          admitted := admitted
          idx := by
            rw [mSndIdx]
            exact toInt_add_one stands.idx (by simp only [int16Max] at few; omega)
          idle := by
            intro empty
            rw [empty] at back'
            cases back'
          more := by
            intro other otherBack
            rw [back'] at otherBack
            cases otherBack
            exact moreLeft
          pMemRegion := objects.1
          pTagRegion := objects.2.1
          pQuePair := objects.2.2 }
    · rw [waiting, Terminal.parcels_of_back back' (Nat.le_of_lt moreLeft), SndReq.parcels_drop more,
        sndQue]
      rfl

/-- A frame stays while other bytes of the ring change. -/
theorem ShowsParcel.keeps {memory after : Memory UInt8} {edge count : ℕ} {parcel : Parcel}
    (shown : ShowsParcel config memory edge parcel) (fits : parcel.size + count ≤ config.ring)
    (changed : ∀ place, after place ≠ memory place → ∃ offset < count,
      place = config.sendBuf.data + (edge + (parcel.size + offset)) % config.ring) :
    ShowsParcel config after edge parcel := by
  rcases shown with ⟨header, shows, isPacket, single⟩
  refine ⟨header, ?_, isPacket, single⟩
  have length : (frameRecord header parcel.packet.body).length = parcel.size := by
    simp only [frameRecord, List.length_append, MsgEnd.length_bytes, Parcel.size]
    omega
  intro offset inside
  rw [← shows offset inside]
  by_contra differs
  rcases changed _ differs with ⟨own, ownInside, same⟩
  have : edge + offset = edge + (parcel.size + own) :=
    Window.mod_injOn edge (by omega) (by omega) (by omega) (by omega) (Nat.add_left_cancel same)
  omega

/-- A turn that sends a packet, and what the call does after it. -/
theorem Turned.reports {middle : Sending} {reads : ℕ} {replies : SendReplies} {returned : Bool}
    {report : Report} (turned : Turned config state ⟨req, index⟩ reads replies middle returned)
    (fits : (⟨req, index⟩ : Parcel).size + totalSize report.sent ≤ config.ring)
    (rest : Reports config middle report state') :
    Reports config state { report with
      sent := ⟨req, index⟩ :: report.sent
      called := (if (⟨req, index⟩ : Parcel).last then [(req, writeStatus replies)] else []) ++
        report.called } state' := by
  set parcel : Parcel := ⟨req, index⟩ with parcelDef
  have writeEdge : middle.term.sndEnd.writeEdge =
      state.term.sndEnd.writeEdge + UInt64.ofNat parcel.size := by rw [turned.term]
  have sndQue : middle.term.sndQue =
      if parcel.last then state.term.sndQue.dropLast else state.term.sndQue := by rw [turned.term]
  have total : totalSize (parcel :: report.sent) = parcel.size + totalSize report.sent := rfl
  have changed : ∀ place, state'.mem place ≠ middle.mem place → ∃ offset < totalSize report.sent,
      place = config.sendBuf.data +
        (state.term.sndEnd.writeEdge.toNat + (parcel.size + offset)) % config.ring := by
    intro place differs
    rcases rest.changed place differs with ⟨offset, inside, placed⟩
    exact ⟨offset, inside, by rw [placed, writeEdge, config.edge_add_mod]⟩
  exact
    { term := by
        have edge : state.term.sndEnd.writeEdge + UInt64.ofNat parcel.size +
            UInt64.ofNat (totalSize report.sent) =
              state.term.sndEnd.writeEdge + UInt64.ofNat (totalSize (parcel :: report.sent)) := by
          rw [total, UInt64.ofNat_add, UInt64.add_assoc]
        have queue : middle.term.sndQue.take (middle.term.sndQue.length - report.called.length) =
            state.term.sndQue.take (state.term.sndQue.length -
              ((if parcel.last then [(req, writeStatus replies)] else []) ++
                report.called).length) := by
          rw [sndQue]
          by_cases last : parcel.last = true
          · simp only [last, if_true, List.dropLast_eq_take, List.take_take, List.length_take,
              List.length_append, List.length_singleton]
            congr 1
            omega
          · simp [last]
        rw [rest.term]
        simp only [queue]
        rw [turned.term]
        simp only [edge]
      called := by
        rw [rest.called, turned.called, List.append_assoc]
      frames := by
        rw [rest.frames, turned.frames, writeEdge, List.append_assoc]
        rfl
      shown := by
        refine .cons (turned.shown.keeps fits changed) ?_
        rw [← writeEdge]
        exact rest.shown
      changed := by
        intro place differs
        by_cases later : state'.mem place = middle.mem place
        · rcases turned.changed place (by rw [← later]; exact differs) with ⟨offset, inside, placed⟩
          have within : offset < totalSize (parcel :: report.sent) := by omega
          exact ⟨offset, within, placed⟩
        · rcases changed place later with ⟨offset, inside, placed⟩
          have within : parcel.size + offset < totalSize (parcel :: report.sent) := by omega
          exact ⟨parcel.size + offset, within, placed⟩
      left := rest.left }

theorem Stands.parcels_ne_nil {terminal : Terminal} (stands : Stands config terminal index)
    (queue : terminal.sndQue ≠ []) : terminal.parcels index ≠ [] := by
  rcases Option.ne_none_iff_exists'.mp (mt List.getLast?_eq_none_iff.mp queue) with ⟨req, back⟩
  have more := stands.more req back
  rw [Terminal.parcels_of_back back (Nat.le_of_lt more), SndReq.parcels_drop more]
  exact List.cons_ne_nil _ _

/-- The first packet that waits is the next one of the request at the back. -/
theorem Stands.first_parcel {parcel : Parcel} {rest : List Parcel}
    (stands : Stands config state.term index)
    (waiting : state.term.parcels index = parcel :: rest) :
    ∃ req, state.term.sndQue.getLast? = some req ∧ parcel = ⟨req, index⟩ := by
  cases back : state.term.sndQue.getLast? with
  | none =>
      have empty := List.getLast?_eq_none_iff.mp back
      rw [Terminal.parcels, empty] at waiting
      cases index <;> cases waiting
  | some req =>
      have more := stands.more req back
      rw [Terminal.parcels_of_back back (Nat.le_of_lt more), SndReq.parcels_drop more] at waiting
      refine ⟨req, rfl, ?_⟩
      simp only [List.cons_append, List.cons.injEq] at waiting
      exact waiting.1.symm

/-- What is sent fits into the space. -/
theorem plan_totalSize {tokens : Tokens} {replies : ℕ → SendReplies} {split : ℕ → ℕ → Bool} :
    ∀ {parcels : List Parcel} {number reads offset space : ℕ} {report : Report},
      plan tokens replies split parcels number reads offset space = some report →
        totalSize report.sent ≤ space := by
  intro parcels
  induction parcels with
  | nil =>
      intro number reads offset space report planned
      cases planned
      exact Nat.zero_le _
  | cons parcel rest ih =>
      intro number reads offset space report planned
      simp only [plan] at planned
      split at planned
      case isTrue =>
        simp only [Option.bind_eq_bind, Option.bind_eq_some_iff, pure, Option.some.injEq] at planned
        rcases planned with ⟨_, _, rfl⟩
        exact Nat.zero_le _
      case isFalse fits =>
        split at planned
        case isTrue => cases planned
        case isFalse =>
          split at planned
          case isTrue =>
            cases planned
            simp only [totalSize, List.map_cons, List.map_nil, List.sum_cons, List.sum_nil]
            omega
          case isFalse =>
            split at planned
            case isTrue => cases planned
            case isFalse =>
              simp only [Option.bind_eq_bind, Option.bind_eq_some_iff, pure, Option.some.injEq]
                at planned
              rcases planned with ⟨_, _, report, later, rfl⟩
              have := ih later
              simp only [totalSize, List.map_cons, List.sum_cons] at *
              omega

section Loop

variable {sendBuf : Span} {replies : ℕ → SendReplies} {rounds number : ℕ}

theorem Sending.loop_fails {reason : Abort}
    (turn : state.turn sendBuf (replies number) = .error reason) :
    Sending.loop sendBuf replies (rounds + 1) number state = .error reason := by
  simp only [Sending.loop, turn, bind, Except.bind]

theorem Sending.loop_returns (turn : state.turn sendBuf (replies number) = .ok (state', true)) :
    Sending.loop sendBuf replies (rounds + 1) number state = .ok (state', true) := by
  simp only [Sending.loop, turn, bind, Except.bind]
  rfl

theorem Sending.loop_goes_on (turn : state.turn sendBuf (replies number) = .ok (state', false)) :
    Sending.loop sendBuf replies (rounds + 1) number state =
      Sending.loop sendBuf replies rounds (number + 1) state' := by
  simp only [Sending.loop, turn, bind, Except.bind]
  rfl

end Loop

/-- A call that leaves the loop before it sends anything. -/
theorem Reports.none_sent {reads : ℕ} {left : List Parcel} (stands : Stands config state.term index)
    (waiting : state.term.parcels index = left)
    (term : state'.term = { state.term with pendingRead := reads, sndRunning := false })
    (mSndIdx : state.term.mSndIdx = Int16.ofNat ((left.head?.map Parcel.index).getD 0))
    (called : state'.called = state.called) (frames : state'.frames = state.frames)
    (mem : state'.mem = state.mem) : Reports config state { reads, left } state' where
  term := by
    rw [term, ← mSndIdx]
    simp [totalSize]
  called := by simp [called]
  frames := by simp [frames, framesAt]
  shown := .nil
  changed := by
    intro place differs
    exact absurd (congrFun mem place) differs
  left := by
    refine ⟨index, ?_, ?_⟩
    · rw [term]
      exact { stands with }
    · rw [term]
      exact waiting

/-- A call that finds the connection closing with its first packet. -/
theorem Reports.one_dropped {left : List Parcel} (stands : Stands config state.term index)
    (back : state.term.sndQue.getLast? = some req)
    (space : (⟨req, index⟩ : Parcel).size ≤ state.term.available)
    (waiting : state.term.parcels index = ⟨req, index⟩ :: left)
    (term : state'.term = { state.term with
      sndEnd := { state.term.sndEnd with
        writeEdge := state.term.sndEnd.writeEdge + UInt64.ofNat (⟨req, index⟩ : Parcel).size }
      sndRunning := false })
    (called : state'.called = state.called)
    (frames : state'.frames = state.frames ++
      [(state.term.sndEnd.writeEdge, (⟨req, index⟩ : Parcel).size)])
    (shown : ShowsParcel config state'.mem state.term.sndEnd.writeEdge.toNat ⟨req, index⟩)
    (changed : ∀ place, state'.mem place ≠ state.mem place →
      ∃ offset < (⟨req, index⟩ : Parcel).size, place =
        config.sendBuf.data + (state.term.sndEnd.writeEdge.toNat + offset) % config.ring) :
    Reports config state
      { sent := [⟨req, index⟩], reads := state.term.pendingRead, left := ⟨req, index⟩ :: left }
      state' where
  term := by
    rw [term]
    simp [totalSize, ← stands.mSndIdx_eq back]
  called := by simp [called]
  frames := by simp [frames, framesAt]
  shown := .cons shown .nil
  changed := by
    intro place differs
    rcases changed place differs with ⟨offset, inside, placed⟩
    exact ⟨offset, by simpa [totalSize] using inside, placed⟩
  left := by
    rcases stands.past_frame back space with ⟨edgeAligned, available⟩
    refine ⟨index, ?_, ?_⟩
    · rw [term]
      exact { stands with
        edgeAligned := edgeAligned
        space := by
          have := stands.space
          change (state.term.pastFrame (⟨req, index⟩ : Parcel).size).available ≤ config.ring
          omega }
    · rw [term]
      exact waiting

/-- The plan of a call from packet `index` on. -/
def Terminal.plan (terminal : Terminal) (config : LinkConfig) (replies : ℕ → SendReplies)
    (index : ℕ) : Option Report :=
  Hermes.plan terminal.tokens replies (splitAt config.ring terminal.sndEnd.writeEdge.toNat)
    (terminal.parcels index) 0 terminal.pendingRead 0 terminal.available

/-- The loop does what a plan says, and aborts when the plan fails. -/
def LoopDoes (config : LinkConfig) (replies : ℕ → SendReplies) (rounds number : ℕ)
    (state : Sending) : Option Report → Prop
  | none => ∃ reason, Sending.loop config.sendBuf replies rounds number state = .error reason
  | some report => ∃ state', Sending.loop config.sendBuf replies rounds number state =
      .ok (state', true) ∧ Reports config state report state'

/-- `split` tells of the frames after the writing edge, which is `offset` bytes on, which of them
the end of the ring splits. -/
def Follows (config : LinkConfig) (terminal : Terminal) (split : ℕ → ℕ → Bool) (offset : ℕ) :
    Prop :=
  ∀ further size, split (offset + further) size =
    splitAt config.ring terminal.sndEnd.writeEdge.toNat further size

/-- The loop goes on after a packet as planned, when it does so from where the packet leaves the
terminal. -/
theorem Turned.loopDoes {replies : ℕ → SendReplies} {split : ℕ → ℕ → Bool} {rest : List Parcel}
    {middle : Sending} {reads number offset rounds : ℕ} {returned : Bool}
    (later : ∀ {next : ℕ}, Stands config middle.term next → middle.term.parcels next = rest →
      Follows config middle.term split (offset + (⟨req, index⟩ : Parcel).size) → rest ≠ [] →
      LoopDoes config replies rounds (number + 1) middle
        (plan middle.term.tokens replies split rest (number + 1) middle.term.pendingRead
          (offset + (⟨req, index⟩ : Parcel).size) middle.term.available))
    (turned : Turned config state ⟨req, index⟩ reads (replies number) middle returned)
    (stands : Stands config state.term index) (back : state.term.sndQue.getLast? = some req)
    (space : (⟨req, index⟩ : Parcel).size ≤ state.term.available)
    (waiting : state.term.parcels index = ⟨req, index⟩ :: rest)
    (follows : Follows config state.term split offset)
    (turn : state.turn config.sendBuf (replies number) = .ok (middle, returned)) :
    LoopDoes config replies (rounds + 1) number state
      ((plan state.term.tokens replies split rest (number + 1) reads
        (offset + (⟨req, index⟩ : Parcel).size)
        (state.term.available - (⟨req, index⟩ : Parcel).size)).bind fun report => some { report with
          sent := ⟨req, index⟩ :: report.sent
          called := (if (⟨req, index⟩ : Parcel).last then [(req, writeStatus (replies number))]
            else []) ++ report.called }) := by
  rcases turned.stands stands back space with
    ⟨next, standsNext, waitingNext, available, tokens, pendingRead⟩
  have rest_eq : middle.term.parcels next = rest := by
    rw [waitingNext, List.cons.injEq] at waiting
    exact waiting.2
  have fits : ∀ {report : Report}, totalSize report.sent ≤ middle.term.available →
      (⟨req, index⟩ : Parcel).size + totalSize report.sent ≤ config.ring := by
    intro report small
    have := stands.space
    omega
  cases returned with
  | true =>
      -- the queue is empty
      have last := (turned.ends.mp rfl).1
      have empty : middle.term.sndQue = [] := by
        rw [turned.term]
        simp [last, (turned.ends.mp rfl).2]
      have nothing : rest = [] := by
        rw [← rest_eq, Terminal.parcels, empty]
        simp
      have done : Reports config middle { reads } middle := by
        have term : middle.term =
            { middle.term with pendingRead := reads, sndRunning := false } := by
          rw [turned.term]
          simp
        have mSndIdx : middle.term.mSndIdx = 0 := by
          rw [turned.term]
          simp [last]
        exact .none_sent standsNext (rest_eq.trans nothing) term mSndIdx rfl rfl rfl
      rw [nothing]
      refine ⟨middle, Sending.loop_returns turn, ?_⟩
      exact turned.reports (fits (Nat.zero_le _)) done
  | false =>
      have queue : middle.term.sndQue ≠ [] := by
        have goesOn : ¬((⟨req, index⟩ : Parcel).last = true ∧ state.term.sndQue.dropLast = []) :=
          fun ends => Bool.false_ne_true (turned.ends.mpr ends)
        rw [turned.term]
        by_cases last : (⟨req, index⟩ : Parcel).last = true
        · simpa [last] using goesOn
        · simp only [last, Bool.false_eq_true, if_false]
          exact List.ne_nil_of_mem (List.mem_of_getLast? back)
      have more : rest ≠ [] := by
        rw [← rest_eq]
        exact standsNext.parcels_ne_nil queue
      have follows' : Follows config middle.term split (offset + (⟨req, index⟩ : Parcel).size) := by
        intro further size
        have edge : middle.term.sndEnd.writeEdge = state.term.sndEnd.writeEdge +
            UInt64.ofNat (⟨req, index⟩ : Parcel).size := by rw [turned.term]
        rw [Nat.add_assoc, follows, splitAt, splitAt, edge, config.edge_add_mod]
      have does := later standsNext rest_eq follows' more
      rw [tokens, pendingRead, available] at does
      cases planned : plan state.term.tokens replies split rest (number + 1) reads
          (offset + (⟨req, index⟩ : Parcel).size)
          (state.term.available - (⟨req, index⟩ : Parcel).size) with
      | none =>
          rw [planned] at does
          rcases does with ⟨reason, loop⟩
          exact ⟨reason, by rw [Sending.loop_goes_on turn, loop]⟩
      | some report =>
          rw [planned] at does
          rcases does with ⟨state', loop, reports⟩
          refine ⟨state', by rw [Sending.loop_goes_on turn, loop], ?_⟩
          apply turned.reports (fits _) reports
          rw [available]
          exact plan_totalSize planned

/-- The loop of `ProcessSendQ` does what the plan says, and aborts when the plan fails. -/
theorem loop_reports {replies : ℕ → SendReplies} {split : ℕ → ℕ → Bool} {parcels : List Parcel} :
    ∀ {state : Sending} {index number offset rounds : ℕ}, Stands config state.term index →
      state.term.parcels index = parcels → Follows config state.term split offset → parcels ≠ [] →
      parcels.length < rounds → LoopDoes config replies rounds number state
        (plan state.term.tokens replies split parcels number state.term.pendingRead offset
          state.term.available) := by
  induction parcels with
  | nil => exact fun _ _ _ nonempty => absurd rfl nonempty
  | cons parcel rest ih =>
      intro state index number offset rounds stands waiting follows _ enough
      rcases Nat.exists_eq_succ_of_ne_zero (Nat.ne_zero_of_lt enough) with ⟨rounds, rfl⟩
      rcases stands.first_parcel waiting with ⟨req, back, rfl⟩
      have split0 : split offset (⟨req, index⟩ : Parcel).size = splitAt config.ring
          state.term.sndEnd.writeEdge.toNat 0 (⟨req, index⟩ : Parcel).size :=
        follows 0 _
      have mSndIdx := stands.mSndIdx_eq back
      by_cases noSpace : state.term.available < (⟨req, index⟩ : Parcel).size
      · -- the ring is full
        have turn : match planRead state.term.rmtTagToken state.term.pendingRead
            (replies number).read with
          | none => _
          | some reads => _ := stands.turn_full (replies number) back noSpace
        simp only [plan, if_pos noSpace, Terminal.tokens]
        cases read : planRead state.term.rmtTagToken state.term.pendingRead
          (replies number).read with
        | none =>
            simp only [read] at turn
            rcases turn with ⟨reason, turn⟩
            exact ⟨reason, Sending.loop_fails turn⟩
        | some reads =>
            simp only [read] at turn
            rcases turn with ⟨state', turn, term, called, frames, mem⟩
            exact ⟨state', Sending.loop_returns turn,
              .none_sent stands waiting term mSndIdx called frames mem⟩
      · have space := Nat.le_of_not_lt noSpace
        have fails : (⟨req, index⟩ : Parcel).aligned = false ∨ state.term.rmtMemToken ≠ 0 ∧
            (writesRefused (splitAt config.ring state.term.sndEnd.writeEdge.toNat 0
                (⟨req, index⟩ : Parcel).size) (replies number) = true ∨
              planRead state.term.rmtTagToken state.term.pendingRead (replies number).read = none) →
            ∃ reason, Sending.loop config.sendBuf replies (rounds + 1) number state =
              .error reason := by
          intro cause
          rcases stands.turn_fails (replies number) back space cause with ⟨reason, turn⟩
          exact ⟨reason, Sending.loop_fails turn⟩
        simp only [plan, if_neg noSpace]
        by_cases aligned : (⟨req, index⟩ : Parcel).aligned = true
        · simp only [aligned, Bool.not_true, Bool.false_eq_true, if_false]
          by_cases closed : state.term.rmtMemToken = 0
          · -- the connection is closing
            rcases stands.turn_closing (replies number) back space aligned closed with
              ⟨state', turn, term, called, frames, shown, changed⟩
            have isClosed : state.term.tokens.mem = 0 := closed
            simp only [isClosed, if_true]
            exact ⟨state', Sending.loop_returns turn,
              .one_dropped stands back space waiting term called frames shown changed⟩
          · have opened : ¬state.term.tokens.mem = 0 := closed
            simp only [opened, if_false, split0]
            cases refused : writesRefused (splitAt config.ring state.term.sndEnd.writeEdge.toNat 0
                (⟨req, index⟩ : Parcel).size) (replies number) with
            | true =>
                simp only [if_true]
                exact fails (Or.inr ⟨closed, Or.inl refused⟩)
            | false =>
                simp only [Bool.false_eq_true, if_false]
                cases read : planRead state.term.rmtTagToken state.term.pendingRead
                    (replies number).read with
                | none =>
                    have noRead : planRead state.term.tokens.tag state.term.pendingRead
                        (replies number).read = none := read
                    simp only [noRead, Option.bind_eq_bind, Option.bind_none]
                    exact fails (Or.inr ⟨closed, Or.inr read⟩)
                | some reads =>
                    have isRead : planRead state.term.tokens.tag state.term.pendingRead
                        (replies number).read = some reads := read
                    simp only [isRead, Option.bind_eq_bind, Option.bind_some]
                    rcases stands.turn_posted back space aligned closed refused read with
                      ⟨middle, returned, turn, turned⟩
                    apply turned.loopDoes _ stands back space waiting follows turn
                    intro next stands waiting follows more
                    exact ih stands waiting follows more (Nat.lt_of_succ_lt_succ enough)
        · have misaligned : (⟨req, index⟩ : Parcel).aligned = false := by simpa using aligned
          simp only [misaligned, Bool.not_false, if_true]
          exact fails (Or.inl misaligned)

/-- `ProcessSendQ` does what the plan says, when the queue is not empty and the flag is set. -/
theorem processSendQ_does (state : Sending) (replies : ℕ → SendReplies)
    (stands : Stands config state.term index)
    (queue : state.term.sndQue ≠ []) (running : state.term.sndRunning = true) :
    match state.term.plan config replies index with
    | none => ∃ reason, Sending.processSendQ config.sendBuf replies state = .error reason
    | some report => ∃ state', Sending.processSendQ config.sendBuf replies state =
        .ok (state', true) ∧ Reports config state report state' := by
  have entry : state.term.processSendQEntry = .ok () := auditAssert_of ⟨queue, running⟩ _
  have enough : (state.term.parcels index).length < state.rounds := by
    have length : (state.term.sndQue.reverse.flatMap SndReq.parcels).length =
        (state.term.sndQue.map fun req => count packetSize req.buf.bytes).sum := by
      rw [List.length_flatMap, List.map_reverse, List.sum_reverse]
      simp [SndReq.parcels]
    simp only [Terminal.parcels, Sending.rounds, List.length_drop, length]
    omega
  have follows : Follows config state.term
      (splitAt config.ring state.term.sndEnd.writeEdge.toNat) 0 := by
    intro further size
    rw [Nat.zero_add]
  have whole : Sending.processSendQ config.sendBuf replies state =
      Sending.loop config.sendBuf replies state.rounds 0 state := by
    simp only [Sending.processSendQ, entry, bind, Except.bind]
  rw [whole]
  exact loop_reports stands rfl follows (stands.parcels_ne_nil queue) enough

/-- The packets that wait, from the current one on. -/
def Terminal.waiting (terminal : Terminal) : List Parcel :=
  terminal.parcels terminal.mSndIdx.toInt.toNat

theorem Stands.waiting_eq {terminal : Terminal} (stands : Stands config terminal index) :
    terminal.waiting = terminal.parcels index := by
  rw [Terminal.waiting, stands.idx, Int.toNat_natCast]

/-- A thread that enters `ProcessSendQ` finds the terminal between two packets. -/
theorem entering_stands {link : Link} {thread : ℕ} {rest : List Activation}
    (reachable : (linkMachine config).Reachable AnyAction link)
    (entering : link.threads thread = .entering :: rest) :
    (∃ index, Stands config link.term index) ∧ link.term.sndQue ≠ [] ∧
      link.term.sndRunning = true := by
  rcases equipped_invariant reachable with ⟨flow, discipline, equipped⟩
  rcases discipline.owned entering rfl with ⟨running, _, serves, _⟩
  exact ⟨serves.1.stands flow discipline equipped, serves.2, running⟩

/-- So does a thread at the head of the loop. -/
theorem looping_stands {link : Link} {thread : ℕ} {rest : List Activation}
    (reachable : (linkMachine config).Reachable AnyAction link)
    (looping : link.threads thread = .looping :: rest) :
    ∃ index, Stands config link.term index := by
  rcases equipped_invariant reachable with ⟨flow, discipline, equipped⟩
  rcases discipline.owned looping rfl with ⟨running, _, serves, _⟩
  exact serves.1.stands flow discipline equipped

end Reports

end Hermes
