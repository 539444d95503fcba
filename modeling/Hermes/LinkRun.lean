import Hermes.LinkThreads

/-!
# Runs that send empty messages

One thread sends an empty message again and again while the provider accepts every
request and completes none.  `Burst` describes the state along such a run, with one
lemma for each step of the code, and `burst_round` composes a whole call of `Send`.
As long as the next frame has space in the ring nothing aborts, so `bursts` of any
length that fits the ring are reachable.
-/

namespace Hermes

open Memory Packets

/-- A request with an empty buffer. -/
def emptyReq : SndReq where
  context := 0
  buf := ⟨0, []⟩
  pCallback := 0

/-- Size of the frame of an empty message. -/
def emptyFrame : ℕ := 2 * msgEndSize

/-- Thread `0` calls `Send` with empty buffers, and the provider queues every request. -/
def SendsEmpty (link : Link) : LinkAction → Prop
  | .call thread req => thread = 0 ∧ req = emptyReq
  | .run thread replies =>
      thread = 0 ∧ (∀ other, other ≠ 0 → link.threads other = []) ∧ replies = {} ∧
        link.term.rmtMemToken ≠ 0
  | _ => False

/-- The state along the run: `frames` frames are written, none consumed, and `pending` reads are
outstanding. -/
structure Burst (config : LinkConfig) (frames pending : ℕ) (queue : List SndReq) (running : Bool)
    (stack : List Activation) (link : Link) : Prop where
  stack : link.threads 0 = stack
  others : ∀ other, other ≠ 0 → link.threads other = []
  sndQue : link.term.sndQue = queue
  sndRunning : link.term.sndRunning = running
  mSndIdx : link.term.mSndIdx = 0
  rmtMemToken : link.term.rmtMemToken ≠ 0
  rmtTagToken : link.term.rmtTagToken ≠ 0
  pMemRegion : link.term.pMemRegion.isSome
  pTagRegion : link.term.pTagRegion.isSome
  pQuePair : link.term.pQuePair.isSome
  pendingRead : link.term.pendingRead = pending
  outReads : link.outReads = pending
  outWrites : frames ≤ link.outWrites.length
  written : link.written = emptyFrame * frames
  landed : link.landed = config.ring
  consumed : link.consumed = 0
  inserted : ∀ req ∈ link.inserted, req = emptyReq

namespace Burst

variable {config : LinkConfig} {frames pending : ℕ} {queue : List SndReq} {running : Bool}
  {stack rest : List Activation} {link : Link}

theorem allowed (burst : Burst config frames pending queue running stack link) :
    SendsEmpty link (.run 0 {}) :=
  ⟨rfl, burst.others, rfl, burst.rmtMemToken⟩

/-- Moving thread `0` on touches no other thread. -/
theorem others_setStack (burst : Burst config frames pending queue running stack link)
    (link' : Link) (threads : link'.threads = link.threads) (next : List Activation) :
    ∀ other, other ≠ 0 → (link'.setStack 0 next).threads other = [] := by
  intro other different
  rw [setStack_other link' different, threads]
  exact burst.others other different

theorem call (burst : Burst config frames pending [] false [] link) :
    ∃ link', link.step config (.call 0 emptyReq) = .ok link' ∧
      Burst config frames pending [] false [.sending emptyReq] link' := by
  refine ⟨link.setStack 0 [.sending emptyReq], ?_, ?_⟩
  · simp [Link.step, burst.stack, callsFrom, sendAdmits, emptyReq, Buf.size]
  · exact { burst with
      stack := setStack_self _ _ _
      others := burst.others_setStack link rfl _ }

theorem send (burst : Burst config frames pending [] false [.sending emptyReq] link) :
    ∃ link', link.step config (.run 0 {}) = .ok link' ∧
      Burst config frames pending [emptyReq] true [.entering] link' := by
  refine ⟨({ link with
      term := { link.term with sndQue := emptyReq :: link.term.sndQue, sndRunning := true }
      inserted := link.inserted ++ [emptyReq] }).setStack 0 [.entering], ?_, ?_⟩
  · simp only [Link.step, Link.runThread, burst.stack,
      Terminal.sendLocked_idle burst.sndRunning, if_true]
  · exact { burst with
      stack := setStack_self _ _ _
      others := burst.others_setStack _ rfl _
      sndQue := by
        rw [← burst.sndQue]
        rfl
      sndRunning := rfl
      inserted := by
        intro req present
        rcases List.mem_append.mp present with before | new
        · exact burst.inserted req before
        · exact List.mem_singleton.mp new }

theorem enter (burst : Burst config frames pending [emptyReq] true [.entering] link) :
    ∃ link', link.step config (.run 0 {}) = .ok link' ∧
      Burst config frames pending [emptyReq] true [.looping] link' := by
  refine ⟨link.setStack 0 [.looping], ?_, ?_⟩
  · simp [Link.step, Link.runThread, burst.stack, Terminal.processSendQEntry, burst.sndQue,
      burst.sndRunning, auditAssert, runCode, Except.mapError, bind, Except.bind, pure, Except.pure]
  · exact { burst with
      stack := setStack_self _ _ _
      others := burst.others_setStack link rfl _ }

/-- The loop head finds the packet of the empty message. -/
theorem find (burst : Burst config frames pending [emptyReq] true [.looping] link)
    (flow : Flow config link) (space : emptyFrame * (frames + 1) ≤ config.ring) :
    ∃ next link', next.req = emptyReq ∧ next.srcBuf.size = 0 ∧ next.pktSize = emptyFrame ∧
      link.step config (.run 0 {}) = .ok link' ∧
      Burst config frames pending [emptyReq] true [.emitting next] link' := by
  have back : link.term.sndQue.getLast? = some emptyReq := by simp [burst.sndQue]
  obtain ⟨srcBuf, atPacket, _, nextEq⟩ := Terminal.nextPacket_eq back
    (show link.term.mSndIdx.toInt = (0 : ℕ) by simp [burst.mSndIdx]) (count_pos _ _)
    (by simp [emptyReq, Buf.size])
  have empty : srcBuf.size = 0 := by
    rw [atPacket.size_eq]
    rfl
  have enough : ¬(min srcBuf.size packetSize + 2 * msgEndSize >
      (link.term.sndEnd.trailingEdge - link.term.sndEnd.writeEdge).toNat) := by
    rw [flow.available, burst.landed, burst.written, empty]
    simp only [emptyFrame, msgEndSize] at *
    omega
  rw [if_neg enough] at nextEq
  have pktSize : min srcBuf.size packetSize + 2 * msgEndSize = emptyFrame := by
    simp [empty, emptyFrame]
  rw [pktSize] at nextEq
  refine ⟨⟨emptyReq, srcBuf, emptyFrame⟩,
    link.setStack 0 [.emitting ⟨emptyReq, srcBuf, emptyFrame⟩], rfl, empty, rfl, ?_, ?_⟩
  · simp [Link.step, Link.runThread, burst.stack, nextEq, runCode, Except.mapError, bind,
      Except.bind, pure, Except.pure]
  · exact { burst with
      stack := setStack_self _ _ _
      others := burst.others_setStack link rfl _ }

/-- The frame is put down and its write is posted. -/
theorem emit {next : NextPacket}
    (burst : Burst config frames pending [emptyReq] true [.emitting next] link)
    (flow : Flow config link) (discipline : Discipline link) (empty : next.pktSize = emptyFrame) :
    ∃ hr link', link.step config (.run 0 {}) = .ok link' ∧
      Burst config (frames + 1) pending [emptyReq] true
        [.checkingEdge (some (next, hr))] link' := by
  obtain ⟨_, _, serves, _⟩ := discipline.owned burst.stack rfl
  obtain ⟨index, working, _, ready⟩ := serves.emitReady
  have back := working.back
  simp only [burst.sndQue, List.getLast?_singleton, Option.some.injEq] at back
  have srcAligned : 16 ∣ next.srcBuf.data := by
    rw [working.data, ← back]
    simp only [emptyReq, packetSize]
    omega
  have takes : accepted ndPending = true := rfl
  obtain ⟨⟨term, mem, posting⟩, emitted⟩ := ready.succeeds flow {} srcAligned
    burst.pMemRegion burst.pQuePair takes takes
  have emits := ready.emits flow emitted true
  obtain rfl := emits.term
  obtain ⟨writes, hr, rfl, nonempty⟩ : ∃ writes hr, posting = .posted writes hr ∧
      0 < writes.length := by
    rcases emits.outcome with ⟨closing, _⟩ | ⟨_, _, posted⟩
    · exact absurd closing burst.rmtMemToken
    · refine ⟨_, _, posted, ?_⟩
      rw [writeRequests, List.length_map, acceptedWrites, if_pos takes, splitWrites]
      split <;> simp
  refine ⟨hr, (({ link with term := link.term.pastFrame next.pktSize, mem } : Link).postedFrame
    config next.pktSize writes true).setStack 0 [.checkingEdge (some (next, hr))], ?_, ?_⟩
  · simp only [Link.step, Link.runThread, burst.stack, emitted, runCode, Except.mapError, bind,
      Except.bind, pure, Except.pure, takes]
  · exact { burst with
      stack := setStack_self _ _ _
      others := burst.others_setStack _ rfl _
      outWrites := by
        have before := burst.outWrites
        simp only [Link.setStack, Link.postedFrame, List.length_append, List.length_map]
        omega
      written := by
        have before := burst.written
        simp only [Link.setStack, Link.postedFrame, Link.emitted, empty, before]
        ring }

/-- The edge read is posted when fewer than two are pending. -/
theorem readEdge {next : NextPacket} {hr : HRESULT}
    (burst : Burst config frames pending queue true [.checkingEdge (some (next, hr))] link)
    (reachable : (linkMachine config).Reachable SendsEmpty link) :
    ∃ link', (linkMachine config).Reachable SendsEmpty link' ∧
      Burst config frames (min (pending + 1) (max pending maxPendingRead)) queue true
        [.advancing next hr] link' := by
  by_cases full : maxPendingRead ≤ pending
  · have check : link.term.checkRmtEdge = none := by
      simp [Terminal.checkRmtEdge, burst.pendingRead, full]
    have stepped : link.step config (.run 0 {}) = .ok (link.setStack 0 [.advancing next hr]) := by
      simp [Link.step, Link.runThread, burst.stack, check, afterEdge]
    have same : min (pending + 1) (max pending maxPendingRead) = pending := by omega
    rw [same]
    exact ⟨_, reachable.tail burst.allowed stepped,
      { burst with
        stack := setStack_self _ _ _
        others := burst.others_setStack link rfl _ }⟩
  · have check : link.term.checkRmtEdge = some link.term.rmtTagToken := by
      simp [Terminal.checkRmtEdge, burst.pendingRead, full, burst.rmtTagToken]
    have more : min (pending + 1) (max pending maxPendingRead) = pending + 1 := by
      simp only [maxPendingRead] at *
      omega
    have stepped : link.step config (.run 0 {}) =
        .ok (link.setStack 0 [.readingEdge link.term.rmtTagToken (some (next, hr))]) := by
      simp [Link.step, Link.runThread, burst.stack, check]
    have reading : Burst config frames pending queue true
        [.readingEdge link.term.rmtTagToken (some (next, hr))]
        (link.setStack 0 [.readingEdge link.term.rmtTagToken (some (next, hr))]) :=
      { burst with
        stack := setStack_self _ _ _
        others := burst.others_setStack link rfl _ }
    have reached := reachable.tail burst.allowed stepped
    set middle := link.setStack 0 [.readingEdge link.term.rmtTagToken (some (next, hr))]
    have read : middle.term.readRmtEdge link.term.rmtTagToken ndPending =
        .ok ({ middle.term with pendingRead := middle.term.pendingRead + 1 },
          [.read middle.term.rmtTagAddr link.term.rmtTagToken]) :=
      Terminal.readRmtEdge_ok_iff.mpr
        ⟨reading.pTagRegion, reading.pQuePair, Or.inl rfl, rfl, rfl⟩
    have ran : middle.step config (.run 0 {}) =
        .ok (({ middle with
          term := { middle.term with pendingRead := middle.term.pendingRead + 1 }
          outReads := middle.outReads + 1 } : Link).setStack 0 [.advancing next hr]) := by
      simp [Link.step, Link.runThread, reading.stack, read, runCode, Except.mapError, bind,
        Except.bind, pure, Except.pure, afterEdge]
    rw [more]
    exact ⟨_, reached.tail reading.allowed ran,
      { reading with
        stack := setStack_self _ _ _
        others := reading.others_setStack _ rfl _
        pendingRead := congrArg (· + 1) reading.pendingRead
        outReads := congrArg (· + 1) reading.outReads }⟩

/-- The message is finished, its callback runs and returns. -/
theorem notify {next : NextPacket} {hr : HRESULT} (empty : next.srcBuf.size = 0)
    (burst : Burst config frames pending queue true [.advancing next hr] link)
    (reachable : (linkMachine config).Reachable SendsEmpty link) :
    ∃ link', (linkMachine config).Reachable SendsEmpty link' ∧
      Burst config frames pending queue true [.popping next.req] link' := by
  have notMore : ¬packetSize < next.srcBuf.size := by omega
  have advanced : link.step config (.run 0 {}) =
      .ok (({ link with term := { link.term with mSndIdx := 0 } } : Link).setStack 0
        [.notifying next.req hr]) := by
    simp only [Link.step, Link.runThread, burst.stack, Terminal.advance, gt_iff_lt, if_neg notMore,
      if_true]
  have notifying : Burst config frames pending queue true [.notifying next.req hr]
      (({ link with term := { link.term with mSndIdx := 0 } } : Link).setStack 0
        [.notifying next.req hr]) :=
    { burst with
      stack := setStack_self _ _ _
      others := burst.others_setStack _ rfl _
      mSndIdx := rfl }
  have reached := reachable.tail burst.allowed advanced
  set second := ({ link with term := { link.term with mSndIdx := 0 } } : Link).setStack 0
    [.notifying next.req hr]
  have called : second.step config (.run 0 {}) =
      .ok (({ second with called := second.called ++ [(next.req, hr)] } : Link).setStack 0
        [.inCallback next.req]) := by
    simp only [Link.step, Link.runThread, notifying.stack]
  have inCallback : Burst config frames pending queue true [.inCallback next.req]
      (({ second with called := second.called ++ [(next.req, hr)] } : Link).setStack 0
        [.inCallback next.req]) :=
    { notifying with
      stack := setStack_self _ _ _
      others := notifying.others_setStack _ rfl _ }
  replace reached := reached.tail notifying.allowed called
  set third := ({ second with called := second.called ++ [(next.req, hr)] } : Link).setStack 0
    [.inCallback next.req]
  have returned : third.step config (.run 0 {}) = .ok (third.setStack 0 [.popping next.req]) := by
    simp only [Link.step, Link.runThread, inCallback.stack]
  exact ⟨_, reached.tail inCallback.allowed returned,
    { inCallback with
      stack := setStack_self _ _ _
      others := inCallback.others_setStack _ rfl _ }⟩

/-- The request leaves the queue, which is empty now. -/
theorem pop (burst : Burst config frames pending [emptyReq] true [.popping emptyReq] link) :
    ∃ link', link.step config (.run 0 {}) = .ok link' ∧
      Burst config frames pending [] false [] link' := by
  refine ⟨({ link with
      term := { link.term with sndQue := [], sndRunning := false }
      popped := link.popped ++ [emptyReq] } : Link).setStack 0 [], ?_, ?_⟩
  · simp [Link.step, Link.runThread, burst.stack, Terminal.popLocked, burst.sndQue, deref,
      auditAssert, runCode, Except.mapError, bind, Except.bind, pure, Except.pure]
  · exact { burst with
      stack := setStack_self _ _ _
      others := burst.others_setStack _ rfl _
      sndQue := rfl
      sndRunning := rfl }

/-- One whole call of `Send`. -/
theorem round (burst : Burst config frames pending [] false [] link)
    (reachable : (linkMachine config).Reachable SendsEmpty link)
    (space : emptyFrame * (frames + 1) ≤ config.ring) :
    ∃ link', (linkMachine config).Reachable SendsEmpty link' ∧
      Burst config (frames + 1) (min (pending + 1) (max pending maxPendingRead)) [] false []
        link' := by
  have calls : SendsEmpty link (.call 0 emptyReq) := ⟨rfl, rfl⟩
  obtain ⟨_, stepped, burst⟩ := burst.call
  replace reachable := reachable.tail calls stepped
  obtain ⟨_, stepped, burst'⟩ := burst.send
  replace reachable := reachable.tail burst.allowed stepped
  obtain ⟨_, stepped, burst⟩ := burst'.enter
  replace reachable := reachable.tail burst'.allowed stepped
  obtain ⟨next, _, req, size, pktSize, stepped, burst'⟩ :=
    burst.find (link_invariant reachable).1 space
  replace reachable := reachable.tail burst.allowed stepped
  obtain ⟨flow, discipline⟩ := link_invariant reachable
  obtain ⟨_, _, stepped, burst⟩ := burst'.emit flow discipline pktSize
  replace reachable := reachable.tail burst'.allowed stepped
  obtain ⟨_, reachable, burst⟩ := burst.readEdge reachable
  obtain ⟨_, reachable, burst⟩ := burst.notify size reachable
  rw [req] at burst
  obtain ⟨_, stepped, burst'⟩ := burst.pop
  exact ⟨_, reachable.tail burst.allowed stepped, burst'⟩

end Burst

/-- A terminal as it is when the connection is up. -/
def LinkConfig.freshTerminal (config : LinkConfig) : Terminal where
  sndEnd := ⟨UInt64.ofNat config.ring, 0⟩
  rmtBufAddr := config.rcvData
  pMemRegion := some 0
  pTagRegion := some 0
  pQuePair := some 0
  rmtMemToken := 1
  rmtTagToken := 1

theorem LinkConfig.prepared_freshTerminal (config : LinkConfig) :
    config.Prepared config.freshTerminal := by
  constructor <;> rfl

/-- The connection as it begins. -/
def LinkConfig.freshLink (config : LinkConfig) : Link where
  term := config.freshTerminal
  mem := fun _ => 0
  rmt := fun _ => 0
  landed := config.ring

theorem LinkConfig.start_freshLink (config : LinkConfig) :
    (linkMachine config).start config.freshLink :=
  ⟨_, _, _, config.prepared_freshTerminal, rfl⟩

/-- As many empty messages as the ring has space for are sent without a completion. -/
theorem bursts (config : LinkConfig) (frames : ℕ) (space : emptyFrame * frames ≤ config.ring) :
    ∃ link, (linkMachine config).Reachable SendsEmpty link ∧
      Burst config frames (min frames maxPendingRead) [] false [] link := by
  induction frames with
  | zero =>
      have started : (linkMachine config).start config.freshLink := config.start_freshLink
      refine ⟨_, .of_start started, ?_⟩
      constructor <;> simp [LinkConfig.freshLink, LinkConfig.freshTerminal]
  | succ frames ih =>
      obtain ⟨link, reachable, burst⟩ := ih (le_trans (Nat.mul_le_mul_left _ (by omega)) space)
      obtain ⟨link', reachable', burst'⟩ := burst.round reachable space
      have pending : min (min frames maxPendingRead + 1)
          (max (min frames maxPendingRead) maxPendingRead) = min (frames + 1) maxPendingRead := by
        omega
      rw [pending] at burst'
      exact ⟨link', reachable', burst'⟩

/-- A request with `size` equal bytes. -/
def filledReq (size : ℕ) (byte : UInt8) : SndReq := ⟨0, ⟨0x5000, List.replicate size byte⟩, 0⟩

@[simp]
theorem filledReq_aligned (size : ℕ) (byte : UInt8) : msgAlign ∣ (filledReq size byte).buf.data :=
  ⟨0x500, rfl⟩

/-- A call of `Send` up to its return, when the ring has space for its one packet. -/
def sampleCall (req : SndReq) : List LinkAction := .call 0 req :: List.replicate 10 (.run 0 {})

end Hermes
