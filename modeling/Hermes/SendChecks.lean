import Hermes.LinkSafety
import Hermes.LinkStream

/-!
# No check of `ProcessSendQ` fails on aligned buffers

`Send` checks the size of a buffer, `ProcessSendQ`, `LocateInRingBuf` and `ComputeCRC`
assert much more.  `TurnChecked` lists what the assertions, bounds checks and integer
conversions of one loop turn need.  In every run whose callers pass buffers at
multiples of 16 it holds of every turn, and a thread's step stops the process only when
the provider refuses a request.

`Send` does not look at the address of the buffer.  `misaligned_buffer_aborts` runs into
the assertion of `ComputeCRC` with a buffer `Send` has queued.
-/

namespace Hermes

open Memory Packets

/-- Callers of `Send` pass aligned buffers. -/
def AlignedCalls (_ : Link) : LinkAction → Prop
  | .call _ req => msgAlign ∣ req.buf.data
  | _ => True

/-- The process stops because the provider has refused a request. -/
def Abort.Refusal : Abort → Prop
  | .fail _ _ => True
  | _ => False

/-- What the checks and conversions of a loop turn need, for packet `index` of a request. -/
structure TurnChecked (config : LinkConfig) (terminal : Terminal) (next : NextPacket)
    (index : ℕ) : Prop where
  mSndIdx : terminal.mSndIdx.toInt = index
  noOverflow : (terminal.mSndIdx + 1).toInt = index + 1
  offset : sizeOfInt16 terminal.mSndIdx * packetSize % sizeLimit = index * packetSize
  inBuffer : index * packetSize ≤ next.req.buf.size
  numPckts : (next.srcBuf.size + packetSize - 1) / packetSize < int16Max
  sequence : ∃ sequence, terminal.sequenceNumber next.srcBuf = .ok sequence ∧
    sequence.toInt = (packet packetSize next.req.buf.bytes index).seq
  size32 : (UInt32.ofNat next.srcBuf.size).toNat = next.srcBuf.size
  length32 : ulong next.pktSize = next.pktSize
  located : locateInRingBuf config.sendBuf terminal.sndEnd.writeEdge next.pktSize =
    .ok (frameAt config.sendBuf.data config.ring terminal.sndEnd.writeEdge.toNat next.pktSize)
  headerWhole : terminal.sndEnd.writeEdge.toNat % config.ring + msgEndSize ≤ config.ring
  footerWhole :
    (terminal.sndEnd.writeEdge.toNat + next.pktSize - msgEndSize) % config.ring + msgEndSize ≤
      config.ring
  views : ∀ frame, frame = frameAt config.sendBuf.data config.ring
      terminal.sndEnd.writeEdge.toNat next.pktSize →
    frame.views0.size + frame.views1.size ≤ next.srcBuf.size ∧
      16 ∣ frame.views0.size ∧ 16 ∣ frame.views1.size ∧
      16 ∣ frame.views0.data ∧ 16 ∣ frame.views1.data ∧
      16 ∣ next.srcBuf.data ∧ 16 ∣ next.srcBuf.data + frame.views0.size

/-- The objects of a started terminal are there. -/
structure Equipped (link : Link) : Prop where
  pMemRegion : link.term.pMemRegion.isSome
  pTagRegion : link.term.pTagRegion.isSome
  pQuePair : link.term.pQuePair.isSome

/-- Every buffer that was passed is aligned. -/
structure Aligned (link : Link) : Prop where
  sending : ∀ thread req, .sending req ∈ link.threads thread → msgAlign ∣ req.buf.data
  inserted : ∀ req ∈ link.inserted, msgAlign ∣ req.buf.data

section Invariants

variable {config : LinkConfig} {link link' : Link}

theorem Equipped.frame (equipped : Equipped link)
    (pMemRegion : link'.term.pMemRegion = link.term.pMemRegion)
    (pTagRegion : link'.term.pTagRegion = link.term.pTagRegion)
    (pQuePair : link'.term.pQuePair = link.term.pQuePair) : Equipped link' where
  pMemRegion := by rw [pMemRegion]; exact equipped.pMemRegion
  pTagRegion := by rw [pTagRegion]; exact equipped.pTagRegion
  pQuePair := by rw [pQuePair]; exact equipped.pQuePair

theorem Equipped.step (equipped : Equipped link) (flow : Flow config link)
    (discipline : Discipline link) {action : LinkAction}
    (stepped : LinkStep config link action link') : Equipped link' := by
  cases stepped with
  | run ran =>
      cases ran with
      | dropped stackEq emitted | posted stackEq emitted =>
          rcases discipline.emitReady stackEq with ⟨message, index, ready⟩
          have emits := ready.emits flow emitted false
          apply equipped.frame
          all_goals
            simp only [emits.term]
            rfl
      | _ => exact equipped.frame rfl rfl rfl
  | _ => exact equipped.frame rfl rfl rfl

theorem Aligned.run (aligned : Aligned link) {thread : ℕ} {replies : SendReplies}
    (ran : RunStep config link thread replies link') : Aligned link' where
  sending := fun other req present => aligned.sending other req (ran.sending present)
  inserted := by
    intro req present
    rcases ran.inserted present with before | call
    · exact aligned.inserted req before
    · exact aligned.sending thread req call

theorem Aligned.step (aligned : Aligned link) {action : LinkAction}
    (allowed : AlignedCalls link action) (stepped : LinkStep config link action link') :
    Aligned link' := by
  -- a thread's stack changes outside `run` only when it calls in
  have pushed : ∀ {base : Link} {thread : ℕ} {activation : Activation},
      base.threads = link.threads →
      (∀ req, activation = .sending req → msgAlign ∣ req.buf.data) →
      ∀ other req,
        .sending req ∈ (base.setStack thread (activation :: link.threads thread)).threads other →
          msgAlign ∣ req.buf.data := by
    intro base thread activation threads called other req present
    by_cases same : other = thread
    · subst same
      rw [setStack_self] at present
      rcases List.mem_cons.mp present with top | below
      · exact called req top.symm
      · exact aligned.sending other req below
    · rw [setStack_other base same, threads] at present
      exact aligned.sending other req present
  cases stepped with
  | run ran => exact aligned.run ran
  | called free admitted =>
      refine ⟨pushed rfl ?_, aligned.inserted⟩
      intro req same
      cases same
      exact allowed
  | entered free idle queue =>
      refine ⟨pushed rfl ?_, aligned.inserted⟩
      intro req same
      cases same
  | _ => exact ⟨aligned.sending, aligned.inserted⟩

/-- The objects of the terminal stay there in every run. -/
theorem equipped_invariant {allowed : Link → LinkAction → Prop}
    (reachable : (linkMachine config).Reachable allowed link) :
    Flow config link ∧ Discipline link ∧ Equipped link := by
  apply reachable.invariant (fun link => Flow config link ∧ Discipline link ∧ Equipped link)
  · intro link started
    have equipped : Equipped link := by
      rcases started with ⟨terminal, mem, rmt, prepared, rfl⟩
      exact ⟨prepared.pMemRegion, prepared.pTagRegion, prepared.pQuePair⟩
    exact ⟨.start started, .start started, equipped⟩
  · rintro link action link' ⟨flow, discipline, equipped⟩ allowed stepped
    have cases := step_cases stepped
    exact ⟨flow.step discipline.emitReady cases, discipline.step flow cases,
      equipped.step flow discipline cases⟩

theorem aligned_invariant (reachable : (linkMachine config).Reachable AlignedCalls link) :
    Aligned link := by
  apply reachable.invariant Aligned
  · rintro link ⟨terminal, mem, rmt, prepared, rfl⟩
    exact ⟨by simp, by simp⟩
  · exact fun aligned allowed stepped => aligned.step allowed (step_cases stepped)

end Invariants

section Turn

variable {config : LinkConfig} {link : Link} {next : NextPacket} {index : ℕ}

theorem toInt_add_one {value : Int16} (idx : value.toInt = index) (small : index + 1 < 32768) :
    (value + 1).toInt = index + 1 := by
  rw [Int16.toInt_add, idx]
  simp only [Int16.toInt_one, Int.bmod]
  omega

/-- A thread that is about to put a packet down passes every check, when the buffer is aligned. -/
theorem Working.turnChecked (working : Working link next index)
    (ready : EmitReady link next next.req.buf.bytes index) (flow : Flow config link)
    (aligned : msgAlign ∣ next.req.buf.data) : TurnChecked config link.term next index := by
  have fits := config.fits_toNat (ready.fits flow)
  rw [← flow.writeEdge] at fits
  have few := ready.atPacket.count_lt
  have more := ready.atPacket.more
  have idx := ready.atPacket.idx
  have small := ready.atPacket.small
  have srcSize := ready.atPacket.size_eq
  have pktSize := ready.pktSize
  have data := working.data
  have inBuffer : index * packetSize ≤ next.req.buf.size := by
    cases index with
    | zero => simp
    | succ index => exact Nat.le_of_lt ((succ_lt_count_iff packetSize_pos _ index).mp more)
  have srcSmall : next.srcBuf.size ≤ maxMsgSize := by omega
  have index16 : index + 1 < 32768 := by
    simp only [int16Max] at few
    omega
  have firstLe := fits.firstView_le
  have firstSize : firstViewSize config.ring link.term.sndEnd.writeEdge.toNat next.pktSize ≤
      next.pktSize - 2 * msgEndSize := Nat.min_le_left _ _
  have ringAligned := fits.ringAligned
  have offsetAligned := fits.offsetAligned
  have sizeAligned := fits.sizeAligned
  have dataAligned := config.aligned
  have firstAligned : 16 ∣ firstViewSize config.ring link.term.sndEnd.writeEdge.toNat
      next.pktSize := by
    have header := fits.header_fits
    simp only [firstViewSize, msgEndSize] at *
    omega
  exact
    { mSndIdx := idx
      noOverflow := toInt_add_one idx index16
      offset := by
        simp only [sizeOfInt16, sizeLimit, packetSize, int16Max, idx] at *
        omega
      inBuffer := inBuffer
      numPckts := by
        simp only [packetSize, int16Max, maxMsgSize] at *
        omega
      sequence := ready.atPacket.sequenceNumber_eq
      size32 := by
        apply UInt32.toNat_ofNat_of_lt'
        simp only [maxMsgSize, UInt32.size] at *
        omega
      length32 := by
        simp only [ulong, packetSize, msgEndSize] at *
        omega
      located := locateInRingBuf_eq fits
      headerWhole := fits.header_fits
      footerWhole := fits.footer_fits
      views := by
        rintro frame rfl
        simp only [frameAt]
        refine ⟨?_, firstAligned, ?_, ?_, dataAligned, ?_, ?_⟩
        all_goals
          simp only [msgAlign, msgEndSize, packetSize] at *
          omega }

/-- With its objects there, posting a frame fails only when the provider refuses a write. -/
theorem Terminal.postFrame_refused {terminal : Terminal} {memory : Memory UInt8} {sendBuf : Span}
    {frame : DFrame} {pktSize : ℕ} {token : UInt32} {replies : SendReplies} {reason : Abort}
    (region : terminal.pMemRegion.isSome) (queuePair : terminal.pQuePair.isSome)
    (stopped : terminal.postFrame memory sendBuf frame pktSize token replies = .error reason) :
    reason.Refusal := by
  rcases Option.isSome_iff_exists.mp region with ⟨memRegion, regionEq⟩
  rcases Option.isSome_iff_exists.mp queuePair with ⟨pair, pairEq⟩
  simp only [Terminal.postFrame, deref, regionEq, pairEq, bind, Except.bind, pure, Except.pure,
    throw, throwThe, MonadExceptOf.throw] at stopped
  repeat' split at stopped
  all_goals cases stopped <;> exact trivial

theorem EmitReady.refused {message : List UInt8} {replies : SendReplies} {reason : Abort}
    (ready : EmitReady link next message index) (flow : Flow config link)
    (srcAligned : 16 ∣ next.srcBuf.data) (region : link.term.pMemRegion.isSome)
    (queuePair : link.term.pQuePair.isSome)
    (stopped : link.term.emitPacket link.mem config.sendBuf next replies = .error reason) :
    reason.Refusal := by
  have fits := config.fits_toNat (ready.fits flow)
  rw [← flow.writeEdge] at fits
  rcases Terminal.putDown_eq link.mem ready.atPacket fits ready.pktSize config.aligned srcAligned
    with ⟨header, after, putEq, _⟩
  have putDown : link.term.putDown link.mem config.sendBuf next.srcBuf next.pktSize = .ok _ := putEq
  simp only [Terminal.emitPacket, putDown, bind, Except.bind] at stopped
  split at stopped
  case isTrue => cases stopped
  case isFalse =>
    split at stopped
    case h_1 posting =>
      cases stopped
      have sameRegion : (link.term.pastFrame next.pktSize).pMemRegion.isSome := region
      exact Terminal.postFrame_refused sameRegion queuePair posting
    case h_2 => cases stopped

/-- A turn on an aligned buffer puts its frame down when the provider takes the writes. -/
theorem emitPacket_total {thread : ℕ} {rest : List Activation} {replies : SendReplies}
    (reachable : (linkMachine config).Reachable AnyAction link)
    (stackEq : link.threads thread = .emitting next :: rest)
    (aligned : msgAlign ∣ next.req.buf.data)
    (first : accepted replies.firstHalf = true ∨ replies.firstHalf = ndCanceled)
    (second : accepted replies.secondHalf = true) :
    ∃ result, link.term.emitPacket link.mem config.sendBuf next replies = .ok result := by
  rcases equipped_invariant reachable with ⟨flow, discipline, equipped⟩
  rcases discipline.owned stackEq rfl with ⟨_, _, serves, _⟩
  rcases serves.emitReady with ⟨index, working, _, ready⟩
  have fits := config.fits_toNat (ready.fits flow)
  rw [← flow.writeEdge] at fits
  have srcAligned : 16 ∣ next.srcBuf.data := by
    rw [working.data]
    simp only [msgAlign, packetSize] at *
    omega
  exact Terminal.emitPacket_succeeds link.mem ready.atPacket fits ready.pktSize config.aligned
    srcAligned equipped.pMemRegion equipped.pQuePair ⟨fun _ => second, first⟩

theorem Terminal.readRmtEdge_refused {terminal : Terminal} {rmtToken : UInt32} {reply : HRESULT}
    {reason : Abort} (region : terminal.pTagRegion.isSome) (queuePair : terminal.pQuePair.isSome)
    (stopped : terminal.readRmtEdge rmtToken reply = .error reason) : reason.Refusal := by
  rcases Option.isSome_iff_exists.mp region with ⟨tagRegion, regionEq⟩
  rcases Option.isSome_iff_exists.mp queuePair with ⟨pair, pairEq⟩
  simp only [Terminal.readRmtEdge, deref, regionEq, pairEq, bind, Except.bind, pure, Except.pure,
    throw, throwThe, MonadExceptOf.throw] at stopped
  split at stopped
  all_goals cases stopped <;> exact trivial

end Turn

section Checks

variable {config : LinkConfig} {link : Link}

/-- A thread's step aborts the process only for an answer of the provider. -/
theorem Equipped.refusal (equipped : Equipped link) (flow : Flow config link)
    (discipline : Discipline link) (aligned : Aligned link) {thread : ℕ}
    {replies : SendReplies} {reason : Abort}
    (stopped : link.runThread config thread replies = .error (.abort reason)) :
    reason.Refusal := by
  cases stackEq : link.threads thread with
  | nil => simp [Link.runThread, stackEq] at stopped
  | cons activation rest =>
    cases activation with
    | entering =>
        rcases discipline.owned stackEq rfl with ⟨running, _, serves, _⟩
        have entry : link.term.processSendQEntry = .ok () := auditAssert_of ⟨serves.2, running⟩ _
        simp [Link.runThread, stackEq, entry, runCode, Except.mapError, bind, Except.bind, pure,
          Except.pure] at stopped
    | looping =>
        rcases discipline.owned stackEq rfl with ⟨_, _, serves, _⟩
        rcases Sound.nextPacket_succeeds discipline serves.1 serves.2 with ⟨found, nextEq⟩
        cases found <;> simp [Link.runThread, stackEq, nextEq, runCode, Except.mapError, bind,
          Except.bind, pure, Except.pure] at stopped
    | emitting next =>
        rcases discipline.owned stackEq rfl with ⟨_, _, serves, _⟩
        rcases serves.emitReady with ⟨index, working, ledger, ready⟩
        have srcAligned : 16 ∣ next.srcBuf.data := by
          have base := aligned.inserted _ (ledger.mem_inserted working.back)
          rw [working.data]
          simp only [msgAlign, packetSize] at *
          omega
        cases emitted : link.term.emitPacket link.mem config.sendBuf next replies with
        | ok result =>
            rcases result with ⟨term, mem, posting⟩
            cases posting <;> simp [Link.runThread, stackEq, emitted, runCode, Except.mapError,
              bind, Except.bind, pure, Except.pure] at stopped
        | error cause =>
            have same : cause = reason := by
              simpa [Link.runThread, stackEq, emitted, runCode, Except.mapError, bind,
                Except.bind] using stopped
            subst same
            exact ready.refused flow srcAligned equipped.pMemRegion equipped.pQuePair emitted
    | checkingEdge packet =>
        cases check : link.term.checkRmtEdge <;> simp [Link.runThread, stackEq, check] at stopped
    | readingEdge rmtToken packet =>
        cases read : link.term.readRmtEdge rmtToken replies.read with
        | ok result =>
            simp [Link.runThread, stackEq, read, runCode, Except.mapError, bind, Except.bind, pure,
              Except.pure] at stopped
        | error cause =>
            have same : cause = reason := by
              simpa [Link.runThread, stackEq, read, runCode, Except.mapError, bind,
                Except.bind] using stopped
            subst same
            exact Terminal.readRmtEdge_refused equipped.pTagRegion equipped.pQuePair read
    | popping req =>
        rcases discipline.owned stackEq rfl with ⟨_, _, serves, _⟩
        rcases Terminal.popLocked_succeeds serves.1 with ⟨⟨term, empty⟩, popped⟩
        simp [Link.runThread, stackEq, popped, runCode, Except.mapError, bind, Except.bind, pure,
          Except.pure] at stopped
    | _ => simp [Link.runThread, stackEq] at stopped

theorem Waiting.mSndIdx_bounded (waiting : Waiting link)
    (admitted : ∀ req ∈ link.inserted, sendAdmits req.buf = true) :
    ∃ index : ℕ, link.term.mSndIdx.toInt = index ∧ index + 1 < int16Max := by
  rcases waiting with ⟨index, idx, ledger, empty, more⟩
  refine ⟨index, idx, ?_⟩
  cases back : link.term.sndQue.getLast? with
  | none =>
      rw [empty (List.getLast?_eq_none_iff.mp back)]
      decide
  | some req =>
      have admits := (sendAdmits_iff _).mp (admitted req (ledger.mem_inserted back))
      have atPacket : AtPacket link.term req.buf.bytes index
          ⟨0, req.buf.bytes.drop (index * packetSize)⟩ := ⟨idx, more req back, admits.1, rfl⟩
      have few := atPacket.count_lt
      have := more req back
      omega

/-- In every state the packet index is a natural number, and counting on does not overflow. -/
theorem Discipline.mSndIdx_bounded (discipline : Discipline link) :
    ∃ index : ℕ, link.term.mSndIdx.toInt = index ∧ index + 1 < int16Max := by
  have atPacket : ∀ {next index}, Working link next index →
      ∃ index : ℕ, link.term.mSndIdx.toInt = index ∧ index + 1 < int16Max := by
    intro next index working
    have few := working.atPacket.count_lt
    have more := working.atPacket.more
    exact ⟨index, working.atPacket.idx, by omega⟩
  have zero : link.term.mSndIdx = 0 →
      ∃ index : ℕ, link.term.mSndIdx.toInt = index ∧ index + 1 < int16Max := by
    intro zero
    exact ⟨0, by rw [zero]; rfl, by decide⟩
  cases running : link.term.sndRunning with
  | false => exact (discipline.outside running).2.mSndIdx_bounded discipline.admitted
  | true =>
      rcases discipline.inside running with ⟨thread, activation, _, _, serves⟩
      cases activation with
      | entering | looping | full | closing => exact serves.1.mSndIdx_bounded discipline.admitted
      | emitting next =>
          rcases serves with ⟨index, working, _⟩
          exact atPacket working
      | checkingEdge packet | readingEdge _ packet =>
          cases packet with
          | none => exact serves.elim
          | some packet =>
              rcases serves with ⟨index, working, _⟩
              exact atPacket working
      | advancing next hr =>
          rcases serves with ⟨index, working, _⟩
          exact atPacket working
      | notifying req _ | inCallback req | popping req => exact zero serves.2.1
      | sending _ => exact serves.elim

/-- In every run whose callers pass aligned buffers, every loop turn passes all its checks and
conversions, and a thread aborts the process only when the provider refuses a request. -/
theorem send_checks_hold (reachable : (linkMachine config).Reachable AlignedCalls link) :
    (∃ index : ℕ, link.term.mSndIdx.toInt = index ∧ index + 1 < int16Max) ∧
    (∀ thread next rest, link.threads thread = .emitting next :: rest →
      ∃ index, TurnChecked config link.term next index) ∧
    ∀ thread replies reason,
      (linkMachine config).step link (.run thread replies) = .error (.abort reason) →
        reason.Refusal := by
  rcases equipped_invariant reachable with ⟨flow, discipline, equipped⟩
  have aligned := aligned_invariant reachable
  refine ⟨discipline.mSndIdx_bounded, ?_, ?_⟩
  · intro thread next rest stackEq
    rcases discipline.owned stackEq rfl with ⟨_, _, serves, _⟩
    rcases serves.emitReady with ⟨index, working, ledger, ready⟩
    have address := aligned.inserted _ (ledger.mem_inserted working.back)
    exact ⟨index, working.turnChecked ready flow address⟩
  · intro thread replies reason stopped
    exact equipped.refusal flow discipline aligned stopped

/-- The ring of the first connection of a library whose buffers begin at 0x200000. -/
def pageRing : LinkConfig :=
  { smallRing with
    sendBuf := ⟨0x201000, 4096⟩
    aligned := by decide }

/-- A message of 64 bytes that is sent when the frame of one of 4000 bytes is consumed. -/
def wrappedPacket : NextPacket := ⟨filledReq 64 0x42, ⟨0x5000, List.replicate 64 0x42⟩, 96⟩

/-- A thread is about to put down a frame of which 64 bytes lie before the end of the ring. -/
theorem wrappedPacket_emitting :
    ∃ link : Link, (linkMachine pageRing).Reachable AlignedCalls link ∧
      link.threads 0 = [.emitting wrappedPacket] ∧ link.term.sndEnd.writeEdge = 4032 ∧
      link.term.rmtMemToken ≠ 0 := by
  have passes : ((linkMachine pageRing).execute pageRing.freshLink
      (sampleCall (filledReq 4000 0x41) ++ [.deliver, .deliver, .take, .land 8128] ++
        .call 0 (filledReq 64 0x42) :: List.replicate 3 (.run 0 {}))).toOption.any
          (fun link => link.threads 0 = [.emitting wrappedPacket] ∧
            link.term.sndEnd.writeEdge = 4032 ∧ link.term.rmtMemToken ≠ 0) = true := by
    decide +kernel
  have aligned : ∀ state : Link, ∀ action ∈ sampleCall (filledReq 4000 0x41) ++
      [.deliver, .deliver, .take, .land 8128] ++
        .call 0 (filledReq 64 0x42) :: List.replicate 3 (.run 0 {}),
          AlignedCalls state action := by
    simp [sampleCall, AlignedCalls]
  rcases Machine.Reachable.of_execute pageRing.start_freshLink aligned passes with
    ⟨link, reachable, holds⟩
  exact ⟨link, reachable, of_decide_eq_true holds⟩

/-- The turn that puts down a frame split by the end of the ring passes its checks. -/
theorem send_checks_hold_wrapped :
    ∃ (link : Link) (index : ℕ), link.threads 0 = [.emitting wrappedPacket] ∧
      TurnChecked pageRing link.term wrappedPacket index ∧
      ∀ thread replies reason,
        (linkMachine pageRing).step link (.run thread replies) = .error (.abort reason) →
          reason.Refusal := by
  rcases wrappedPacket_emitting with ⟨link, reachable, stackEq, _⟩
  rcases send_checks_hold reachable with ⟨_, turns, refusals⟩
  rcases turns 0 wrappedPacket [] stackEq with ⟨index, checked⟩
  exact ⟨link, index, stackEq, checked, refusals⟩

end Checks

section Queued

/-- The connection when a thread has queued a first request and enters `ProcessSendQ`. -/
def LinkConfig.queuedLink (config : LinkConfig) (req : SndReq) : Link :=
  { config.freshLink with
    term := { config.freshTerminal with sndQue := [req], sndRunning := true }
    inserted := [req]
    threads := Function.update (fun _ => []) 0 [.entering] }

/-- The connection when the thread has passed the entry of `ProcessSendQ`. -/
def LinkConfig.loopingLink (config : LinkConfig) (req : SndReq) : Link :=
  (config.queuedLink req).setStack 0 [.looping]

/-- The first call of `Send`, step by step. -/
theorem LinkConfig.first_call (config : LinkConfig) {req : SndReq}
    (admitted : sendAdmits req.buf = true) :
    (linkMachine config).step config.freshLink (.call 0 req) =
        .ok (config.freshLink.setStack 0 [.sending req]) ∧
      (linkMachine config).step (config.freshLink.setStack 0 [.sending req]) (.run 0 {}) =
        .ok (config.queuedLink req) ∧
      (linkMachine config).step (config.queuedLink req) (.run 0 {}) =
        .ok (config.loopingLink req) := by
  refine ⟨?_, ?_, ?_⟩
  · simp [linkMachine, Link.step, LinkConfig.freshLink, callsFrom, admitted]
  · simp [linkMachine, Link.step, Link.runThread, Link.setStack, LinkConfig.freshLink,
      Terminal.sendLocked, LinkConfig.freshTerminal, LinkConfig.queuedLink]
  · have entry : (config.queuedLink req).term.processSendQEntry = .ok () :=
      auditAssert_of ⟨List.cons_ne_nil _ _, rfl⟩ _
    simp only [LinkConfig.queuedLink] at entry
    simp [linkMachine, Link.step, Link.runThread, LinkConfig.queuedLink, LinkConfig.loopingLink,
      entry, runCode, Except.mapError, bind, Except.bind, pure, Except.pure]

theorem LinkConfig.reachable_queuedLink (config : LinkConfig) {req : SndReq}
    (admitted : sendAdmits req.buf = true) :
    (linkMachine config).Reachable AnyAction (config.queuedLink req) := by
  rcases config.first_call admitted with ⟨call, queue, _⟩
  have started : (linkMachine config).Reachable AnyAction config.freshLink :=
    .of_start config.start_freshLink
  exact (started.tail trivial call).tail trivial queue

theorem LinkConfig.reachable_loopingLink (config : LinkConfig) {req : SndReq}
    (admitted : sendAdmits req.buf = true) :
    (linkMachine config).Reachable AnyAction (config.loopingLink req) :=
  (config.reachable_queuedLink admitted).tail trivial (config.first_call admitted).2.2

/-- A message without bytes. -/
def emptyMessage : SndReq := ⟨0, ⟨0, []⟩, 0⟩

end Queued

section Misaligned

/-- A buffer of 16 bytes at an address that is a multiple of 8 only. -/
def misalignedReq : SndReq where
  context := 0
  buf := ⟨8, List.replicate 16 0⟩
  pCallback := 0

/-- The terminal once the request is queued. -/
def misalignedTerminal : Terminal :=
  { smallRing.freshTerminal with sndQue := [misalignedReq], sndRunning := true }

def misalignedPacket : NextPacket := ⟨misalignedReq, ⟨8, List.replicate 16 0⟩, 48⟩

theorem misaligned_nextPacket :
    misalignedTerminal.nextPacket = .ok (some misalignedPacket) := by
  decide +kernel

theorem misaligned_emitPacket (memory : Memory UInt8) :
    misalignedTerminal.emitPacket memory smallRing.sendBuf misalignedPacket {} =
      .error (.assert "Need address alignment to 128b boundary for crc computation") := by
  rfl

/-- `Send` queues a buffer at a multiple of 8, and sending it stops the process at the alignment
assertion of `ComputeCRC`. -/
theorem misaligned_buffer_aborts :
    ¬∀ link, (linkMachine smallRing).Reachable AnyAction link →
      ∀ thread replies reason,
        (linkMachine smallRing).step link (.run thread replies) = .error (.abort reason) →
          reason.Refusal := by
  let looping := smallRing.loopingLink misalignedReq
  have started : (linkMachine smallRing).Reachable AnyAction looping :=
    smallRing.reachable_loopingLink (by decide)
  let emitting := looping.setStack 0 [.emitting misalignedPacket]
  have find : (linkMachine smallRing).step looping (.run 0 {}) = .ok emitting := by
    have next : looping.term.nextPacket = .ok (some misalignedPacket) := misaligned_nextPacket
    have top : looping.threads 0 = [.looping] := setStack_self _ _ _
    simp only [linkMachine, Link.step, Link.runThread, top, next, runCode, Except.mapError, bind,
      Except.bind]
    rfl
  have reached : (linkMachine smallRing).Reachable AnyAction emitting :=
    started.tail trivial find
  have stops : (linkMachine smallRing).step emitting (.run 0 {}) =
      .error (.abort (.assert "Need address alignment to 128b boundary for crc computation")) := by
    have put := misaligned_emitPacket emitting.mem
    have term : emitting.term = misalignedTerminal := rfl
    have top : emitting.threads 0 = [.emitting misalignedPacket] := setStack_self _ _ _
    simp only [linkMachine, Link.step, Link.runThread, top, term, put, runCode, Except.mapError,
      bind, Except.bind]
  intro refusals
  exact refusals emitting reached 0 {} _ stops

end Misaligned

end Hermes
