import Hermes.SendLoop

/-!
# A loop turn of one thread is a run of the connection

`Sending.turn` runs the code of a loop turn in one piece, `linkMachine` step by step with
anything in between.  `turn_runs` says that the first is a run of the second in which only
this thread moves.  The run comes with a log: the packets that were posted, whether the
provider accepted their writes, and the notifications.
-/

namespace Hermes

open Memory Packets

/-- What the log of a run keeps: a packet is posted, and whether the provider has accepted its
writes; a message is notified. -/
inductive SendEvent where
  | posted (req : SndReq) (taken : Bool)
  | notified (req : SndReq) (status : StatusCode)
  deriving DecidableEq, Repr

/-- The provider has accepted every write of a frame. -/
def writesTaken (config : LinkConfig) (terminal : Terminal) (next : NextPacket)
    (replies : SendReplies) : Bool :=
  accepted replies.firstHalf &&
    (!splitAt config.ring terminal.sndEnd.writeEdge.toNat 0 next.pktSize ||
      accepted replies.secondHalf)

/-- What a step of a connection shows. -/
def sendEvents (config : LinkConfig) (link : Link) : LinkAction → List SendEvent
  | .run thread replies =>
      match link.threads thread with
      | .emitting next :: _ =>
          if link.term.rmtMemToken = 0 then []
          else [.posted next.req (writesTaken config link.term next replies)]
      | .notifying req hr :: _ => [.notified req hr]
      | _ => []
  | _ => []

/-- A connection with a log of its packets and notifications. -/
def loggedLink (config : LinkConfig) : Machine (Link × List SendEvent) LinkAction Stop :=
  (linkMachine config).logged (sendEvents config)

/-- A run of a connection with its log. -/
def Runs (config : LinkConfig) (link link' : Link) (more : List SendEvent) : Prop :=
  ∀ events, (loggedLink config).Run (fun state => AnyAction state.1) (link, events)
    (link', events ++ more)

section Steps

variable {config : LinkConfig} {link middle link' : Link} {more further : List SendEvent}
  {thread : ℕ} {rest : List Activation} {replies : SendReplies}

theorem Runs.trans (first : Runs config link middle more)
    (second : Runs config middle link' further) :
    Runs config link link' (more ++ further) := by
  intro events
  rw [← List.append_assoc]
  exact (first events).trans (second (events ++ more))

/-- One step of a thread. -/
theorem Runs.step (stepped : link.runThread config thread replies = .ok link')
    (shown : sendEvents config link (.run thread replies) = more) :
      Runs config link link' more := by
  intro events
  have one : (loggedLink config).step (link, events) (.run thread replies) =
      .ok (link', events ++ more) := Machine.logged_step.mpr ⟨stepped, by rw [shown]⟩
  exact .single trivial one

/-- A step of a thread that shows nothing. -/
theorem Runs.quiet (stepped : link.runThread config thread replies = .ok link')
    (silent : sendEvents config link (.run thread replies) = []) : Runs config link link' [] :=
  .step stepped silent

/-- What a thread has left behind that has run alone. -/
structure Leaves (link link' : Link) (thread : ℕ) (term : Terminal) (mem : Memory UInt8)
    (called : List (SndReq × StatusCode)) (stack : List Activation) : Prop where
  term : link'.term = term
  mem : link'.mem = mem
  threads : link'.threads = Function.update link.threads thread stack
  called : link'.called = link.called ++ called

theorem Leaves.trans {term term' : Terminal} {mem mem' : Memory UInt8}
    {called called' : List (SndReq × StatusCode)} {stack stack' : List Activation}
    (first : Leaves link middle thread term mem called stack)
    (second : Leaves middle link' thread term' mem' called' stack') :
    Leaves link link' thread term' mem' (called ++ called') stack' where
  term := second.term
  mem := second.mem
  threads := by rw [second.threads, first.threads, Function.update_idem]
  called := by rw [second.called, first.called, List.append_assoc]

/-- `ReadRmtEdge` of a thread. -/
theorem edge_runs (config : LinkConfig) (replies : SendReplies)
    {packet : Option (NextPacket × HRESULT)} {state state' : Sending}
    (stack : link.threads thread = .checkingEdge packet :: rest) (same : state.term = link.term)
    (read : state.readRmtEdge replies.read = .ok state') :
    ∃ link', Runs config link link' [] ∧
      Leaves link link' thread state'.term link.mem [] (afterEdge packet ++ rest) ∧
      state'.called = state.called ∧ state'.mem = state.mem := by
  simp only [Sending.readRmtEdge, same] at read
  split at read
  case h_1 check =>
    cases read
    have skip : link.runThread config thread replies =
        .ok (link.setStack thread (afterEdge packet ++ rest)) := by
      simp only [Link.runThread, stack, check]
    have silent : sendEvents config link (.run thread replies) = [] := by
      simp only [sendEvents, stack]
    exact ⟨_, .quiet skip silent, ⟨same.symm, rfl, rfl, by simp [Link.setStack]⟩, rfl, rfl⟩
  case h_2 rmtToken check =>
    simp only [bind_eq_ok] at read
    rcases read with ⟨⟨term, requests⟩, reads, result⟩
    cases result
    have pass : link.runThread config thread replies =
        .ok (link.setStack thread (.readingEdge rmtToken packet :: rest)) := by
      simp only [Link.runThread, stack, check]
    let reading := link.setStack thread (.readingEdge rmtToken packet :: rest)
    have top : reading.threads thread = .readingEdge rmtToken packet :: rest := setStack_self _ _ _
    have goes : reading.runThread config thread replies = .ok
        ({ reading with
          term := term, outReads := reading.outReads + requests.length }.setStack thread
          (afterEdge packet ++ rest)) := by
      have termEq : reading.term = link.term := rfl
      simp only [Link.runThread, top, termEq, reads, runCode, Except.mapError, bind, Except.bind]
      rfl
    have silent : sendEvents config link (.run thread replies) = [] := by
      simp only [sendEvents, stack]
    have silent' : sendEvents config reading (.run thread replies) = [] := by
      simp only [sendEvents, top]
    refine ⟨_, (Runs.quiet pass silent).trans (.quiet goes silent'), ?_, rfl, rfl⟩
    exact ⟨rfl, rfl, by simp [Link.setStack, reading], by simp [Link.setStack, reading]⟩

/-- The end of a turn that has posted a packet. -/
theorem finish_runs (config : LinkConfig) {next : NextPacket} {hr : StatusCode}
    {state state' : Sending} {returned : Bool}
    (stack : link.threads thread = .checkingEdge (some (next, hr)) :: rest)
    (same : state.term = link.term) (mem : state.mem = link.mem) (called : state.called = [])
    (finished : state.finish next hr replies.read = .ok (state', returned)) :
    ∃ link', Runs config link link' (state'.called.map fun call => .notified call.1 call.2) ∧
      Leaves link link' thread state'.term state'.mem state'.called
        (if returned then rest else .looping :: rest) := by
  simp only [Sending.finish, bind_eq_ok] at finished
  rcases finished with ⟨middle, read, finished⟩
  rcases edge_runs config replies stack same read with ⟨link1, runs1, leaves1, called1, mem1⟩
  have top1 : link1.threads thread = .advancing next hr :: rest := by
    rw [leaves1.threads, Function.update_self]
    rfl
  by_cases more : packetSize < next.srcBuf.size
  · simp only [Terminal.advance, gt_iff_lt, more, if_true, Bool.false_eq_true, if_false, pure,
      Except.pure, Except.ok.injEq, Prod.mk.injEq] at finished
    rcases finished with ⟨rfl, rfl⟩
    let link2 := { link1 with
      term := { link1.term with mSndIdx := link1.term.mSndIdx + 1 } }.setStack thread
        (.looping :: rest)
    have again : link1.runThread config thread replies = .ok link2 := by
      simp only [Link.runThread, top1, Terminal.advance, gt_iff_lt, more, if_true]
      rfl
    have silent : sendEvents config link1 (.run thread replies) = [] := by
      simp only [sendEvents, top1]
    have runs := runs1.trans (Runs.quiet again silent)
    refine ⟨link2, ?_, ?_⟩
    · simpa [called1, called] using runs
    · exact
        { term := by simp [link2, Link.setStack, leaves1.term]
          mem := by simp [link2, Link.setStack, leaves1.mem, mem1, mem]
          threads := by simp [link2, Link.setStack, leaves1.threads]
          called := by simp [link2, Link.setStack, leaves1.called, called1, called] }
  · simp only [Terminal.advance, gt_iff_lt, more, if_false, if_true, bind_eq_ok, pure, Except.pure,
      Except.ok.injEq, Prod.mk.injEq] at finished
    rcases finished with ⟨⟨term, empty⟩, popped, rfl, rfl⟩
    let link2 := { link1 with term := { link1.term with mSndIdx := 0 } }.setStack thread
      (.notifying next.req hr :: rest)
    have top2 : link2.threads thread = .notifying next.req hr :: rest := setStack_self _ _ _
    have finish : link1.runThread config thread replies = .ok link2 := by
      simp only [Link.runThread, top1, Terminal.advance, gt_iff_lt, more, if_false]
      rfl
    let link3 := { link2 with called := link2.called ++ [(next.req, hr)] }.setStack thread
      (.inCallback next.req :: rest)
    have top3 : link3.threads thread = .inCallback next.req :: rest := setStack_self _ _ _
    have notify : link2.runThread config thread replies = .ok link3 := by
      simp only [Link.runThread, top2, link3]
    let link4 := link3.setStack thread (.popping next.req :: rest)
    have top4 : link4.threads thread = .popping next.req :: rest := setStack_self _ _ _
    have callback : link3.runThread config thread replies = .ok link4 := by
      simp only [Link.runThread, top3, link4]
    let link5 := { link4 with term := term, popped := link4.popped ++ [next.req] }.setStack thread
      (if empty then rest else .looping :: rest)
    have pop : link4.runThread config thread replies = .ok link5 := by
      have termEq : link4.term = { middle.term with mSndIdx := 0 } := by
        simp [link4, link3, link2, Link.setStack, leaves1.term]
      simp only [Link.runThread, top4, termEq, popped, runCode, Except.mapError, bind, Except.bind]
      rfl
    have runs := ((((runs1.trans (Runs.quiet finish (by simp only [sendEvents, top1]))).trans
      (Runs.step notify rfl)).trans (Runs.quiet callback (by simp only [sendEvents, top3]))).trans
        (Runs.quiet pop (by simp only [sendEvents, top4])))
    refine ⟨link5, ?_, ?_⟩
    · simp only [sendEvents, top2, List.nil_append, List.append_nil] at runs
      simpa [called1, called] using runs
    · exact
        { term := rfl
          mem := by simp [link5, link4, link3, link2, Link.setStack, leaves1.mem, mem1, mem]
          threads := by
            simp [link5, link4, link3, link2, Link.setStack, leaves1.threads]
          called := by
            simp [link5, link4, link3, link2, Link.setStack, leaves1.called, called1, called] }

/-- Putting a frame down moves the writing edge and nothing else of the terminal. -/
theorem Terminal.putDown_term {terminal : Terminal} {memory : Memory UInt8} {sendBuf : Span}
    {srcBuf : Buf} {pktSize : ℕ} {result : Terminal × Memory UInt8 × DFrame}
    (succeeded : terminal.putDown memory sendBuf srcBuf pktSize = .ok result) :
    result.1 = terminal.pastFrame pktSize := by
  simp only [Terminal.putDown, bind_eq_ok, pure, Except.pure, Except.ok.injEq] at succeeded
  rcases succeeded with ⟨_, _, _, _, _, _, _, _, _, _, _, _, rfl⟩
  rfl

/-- A frame is posted unless the connection is closing. -/
theorem Terminal.emitPacket_posting {terminal term : Terminal} {memory mem : Memory UInt8}
    {sendBuf : Span} {next : NextPacket} {posting : Posting}
    (emitted : terminal.emitPacket memory sendBuf next replies = .ok (term, mem, posting)) :
    posting = .closing ↔ terminal.rmtMemToken = 0 := by
  simp only [Terminal.emitPacket, bind_eq_ok] at emitted
  rcases emitted with ⟨⟨middle, after, frame⟩, put, posts⟩
  have past : middle = terminal.pastFrame next.pktSize := Terminal.putDown_term put
  have token : middle.rmtMemToken = terminal.rmtMemToken := by
    rw [past, Terminal.pastFrame_rmtMemToken]
  simp only [token] at posts
  split at posts
  case isTrue closed =>
    cases posts
    exact iff_of_true rfl closed
  case isFalse opened =>
    simp only [bind_eq_ok] at posts
    rcases posts with ⟨_, _, posts⟩
    cases posts
    exact iff_of_false (by simp) opened

/-- The packet a turn posts, in the log. -/
def turnEvents (config : LinkConfig) (link : Link) (replies : SendReplies) : List SendEvent :=
  match link.term.nextPacket with
  | .ok (some next) =>
      if link.term.rmtMemToken = 0 then []
      else [.posted next.req (writesTaken config link.term next replies)]
  | _ => []

/-- A loop turn is a run in which one thread moves. -/
theorem turn_runs {state' : Sending} {returned : Bool}
    (stack : link.threads thread = .looping :: rest)
    (turn : Sending.turn config.sendBuf { term := link.term, mem := link.mem } replies =
      .ok (state', returned)) :
    ∃ link', Runs config link link' (turnEvents config link replies ++
        state'.called.map fun call => .notified call.1 call.2) ∧
      Leaves link link' thread state'.term state'.mem state'.called
        (if returned then rest else .looping :: rest) := by
  simp only [Sending.turn, bind_eq_ok] at turn
  rcases turn with ⟨found, next, turn⟩
  have silent : sendEvents config link (.run thread replies) = [] := by
    simp only [sendEvents, stack]
  cases found with
  | none =>
      simp only [bind_eq_ok, pure, Except.pure, Except.ok.injEq, Prod.mk.injEq] at turn
      rcases turn with ⟨left, read, rfl, rfl⟩
      let link1 := link.setStack thread (.full :: rest)
      have top1 : link1.threads thread = .full :: rest := setStack_self _ _ _
      have full : link.runThread config thread replies = .ok link1 := by
        simp only [Link.runThread, stack, next, runCode, Except.mapError, bind, Except.bind]
        rfl
      let link2 := { link1 with term := { link1.term with sndRunning := false } }.setStack thread
        (.checkingEdge none :: rest)
      have top2 : link2.threads thread = .checkingEdge none :: rest := setStack_self _ _ _
      have leave : link1.runThread config thread replies = .ok link2 := by
        simp only [Link.runThread, top1, link2]
      have silent1 : sendEvents config link1 (.run thread replies) = [] := by
        simp only [sendEvents, top1]
      rcases edge_runs config replies top2 rfl read with ⟨link3, runs3, leaves3, called3, mem3⟩
      have runs := ((Runs.quiet full silent).trans (Runs.quiet leave silent1)).trans runs3
      have mem : left.mem = link.mem := mem3
      have called : left.called = [] := called3
      refine ⟨link3, ?_, ?_⟩
      · simpa [turnEvents, next, called] using runs
      · exact
          { term := leaves3.term
            mem := by rw [leaves3.mem, mem]; rfl
            threads := by simp [leaves3.threads, link2, link1, Link.setStack, afterEdge]
            called := by simp [leaves3.called, called, link2, link1, Link.setStack] }
  | some found =>
      simp only [bind_eq_ok] at turn
      rcases turn with ⟨⟨term, mem, posting⟩, emitted, turn⟩
      let link1 := link.setStack thread (.emitting found :: rest)
      have top1 : link1.threads thread = .emitting found :: rest := setStack_self _ _ _
      have find : link.runThread config thread replies = .ok link1 := by
        simp only [Link.runThread, stack, next, runCode, Except.mapError, bind, Except.bind]
        rfl
      have runs1 := Runs.quiet find silent
      have emits : link1.term.emitPacket link1.mem config.sendBuf found replies =
        .ok (term, mem, posting) := emitted
      have closing := Terminal.emitPacket_posting emitted
      cases posting with
      | closing =>
          have closed : link.term.rmtMemToken = 0 := closing.mp rfl
          simp only [pure, Except.pure, Except.ok.injEq, Prod.mk.injEq] at turn
          rcases turn with ⟨rfl, rfl⟩
          let link2 := ({ link1 with term := term, mem := mem }.emitted config found.pktSize
            false).setStack thread (.closing :: rest)
          have top2 : link2.threads thread = .closing :: rest := setStack_self _ _ _
          have drop : link1.runThread config thread replies = .ok link2 := by
            simp only [Link.runThread, top1, emits, runCode, Except.mapError, bind, Except.bind]
            rfl
          have silent1 : sendEvents config link1 (.run thread replies) = [] := by
            have closed1 : link1.term.rmtMemToken = 0 := closed
            simp only [sendEvents, top1, closed1, if_true]
          let link3 := { link2 with term := { link2.term with sndRunning := false } }.setStack
            thread rest
          have leave : link2.runThread config thread replies = .ok link3 := by
            simp only [Link.runThread, top2, link3]
          have silent2 : sendEvents config link2 (.run thread replies) = [] := by
            simp only [sendEvents, top2]
          have runs := (runs1.trans (Runs.quiet drop silent1)).trans (Runs.quiet leave silent2)
          refine ⟨link3, ?_, ?_⟩
          · simpa [turnEvents, next, closed, Sending.setRunning] using runs
          · exact
              { term := rfl
                mem := rfl
                threads := by simp [link3, link2, link1, Link.setStack, Link.emitted]
                called := by simp [link3, link2, link1, Link.setStack, Link.emitted,
                  Sending.setRunning] }
      | posted writes hr =>
          have opened : ¬link.term.rmtMemToken = 0 := fun closed => by cases closing.mpr closed
          let link2 := ({ link1 with term := term, mem := mem }.postedFrame config found.pktSize
            writes (accepted replies.firstHalf)).setStack thread
              (.checkingEdge (some (found, hr)) :: rest)
          have top2 : link2.threads thread = .checkingEdge (some (found, hr)) :: rest :=
            setStack_self _ _ _
          have post : link1.runThread config thread replies = .ok link2 := by
            simp only [Link.runThread, top1, emits, runCode, Except.mapError, bind, Except.bind]
            rfl
          have shown : sendEvents config link1 (.run thread replies) =
              turnEvents config link replies := by
            have opened1 : ¬link1.term.rmtMemToken = 0 := opened
            simp only [sendEvents, top1, opened1, turnEvents, next, opened, if_false]
            rfl
          rcases finish_runs config top2 rfl rfl rfl turn with ⟨link3, runs3, leaves3⟩
          have runs := (runs1.trans (Runs.step post shown)).trans runs3
          refine ⟨link3, by simpa using runs, ?_⟩
          exact
            { term := leaves3.term
              mem := leaves3.mem
              threads := by simp [leaves3.threads, link2, link1, Link.setStack, Link.postedFrame,
                Link.emitted]
              called := by simp [leaves3.called, link2, link1, Link.setStack, Link.postedFrame,
                Link.emitted] }

/-- A turn that posts a packet, as a run. -/
theorem packet_runs {index reads : ℕ} {req : SndReq}
    (stack : link.threads thread = .looping :: rest)
    (stands : Stands config link.term index) (back : link.term.sndQue.getLast? = some req)
    (space : (⟨req, index⟩ : Parcel).size ≤ link.term.available)
    (aligned : (⟨req, index⟩ : Parcel).aligned = true) (opened : link.term.rmtMemToken ≠ 0)
    (answered : writesRefused (splitAt config.ring link.term.sndEnd.writeEdge.toNat 0
      (⟨req, index⟩ : Parcel).size) replies = false)
    (planned : planRead link.term.rmtTagToken link.term.pendingRead replies.read = some reads) :
    ∃ (link' : Link) (state' : Sending) (returned : Bool),
      Turned config { term := link.term, mem := link.mem } ⟨req, index⟩ reads replies state'
        returned ∧
      Runs config link link' (.posted req (accepted replies.firstHalf) ::
        state'.called.map fun call => .notified call.1 call.2) ∧
      Leaves link link' thread state'.term state'.mem state'.called
        (if returned then rest else .looping :: rest) := by
  let state : Sending := { term := link.term, mem := link.mem }
  have standsState : Stands config state.term index := stands
  have posts : ∃ state' returned, state.turn config.sendBuf replies = .ok (state', returned) ∧
      Turned config state ⟨req, index⟩ reads replies state' returned :=
    standsState.turn_posted back space aligned opened answered planned
  rcases posts with ⟨state', returned, turn, turned⟩
  rcases turn_runs stack turn with ⟨link', runs, leaves⟩
  refine ⟨link', state', returned, turned, ?_, leaves⟩
  rcases standsState.nextPacket back with ⟨srcBuf, _, _, _, next⟩
  rw [if_neg (Nat.not_lt.mpr space)] at next
  have nextEq : link.term.nextPacket = .ok (some ⟨req, srcBuf, (⟨req, index⟩ : Parcel).size⟩) :=
    next
  have taken : writesTaken config link.term ⟨req, srcBuf, (⟨req, index⟩ : Parcel).size⟩ replies =
      accepted replies.firstHalf := by
    have second := (writesRefused_eq_false _ replies).mp answered |>.second
    rw [writesTaken]
    cases split : splitAt config.ring link.term.sndEnd.writeEdge.toNat 0
        (⟨req, index⟩ : Parcel).size with
    | false => simp
    | true =>
        have isSplit : config.ring < (link.term.sndEnd.writeEdge.toNat + 0) % config.ring +
            (⟨req, index⟩ : Parcel).size := by simpa [splitAt] using split
        simp [second isSplit]
  have events : turnEvents config link replies = [.posted req (accepted replies.firstHalf)] := by
    simp only [turnEvents, nextEq, opened, if_false, taken]
  rw [events] at runs
  exact runs

/-- The first call has an empty log when it comes to the loop. -/
theorem logged_loopingLink (config : LinkConfig) {req : SndReq}
    (admitted : sendAdmits req.buf = true) :
    (loggedLink config).Reachable (fun state => AnyAction state.1)
    (config.loopingLink req, []) := by
  rcases config.first_call admitted with ⟨call, queue, enter⟩
  have started : (loggedLink config).Reachable (fun state => AnyAction state.1)
      (config.freshLink, []) := .of_start ⟨config.start_freshLink, rfl⟩
  have called : (loggedLink config).step (config.freshLink, []) (.call 0 req) =
      .ok (config.freshLink.setStack 0 [.sending req], []) := Machine.logged_step.mpr ⟨call, rfl⟩
  have queued : (loggedLink config).step (config.freshLink.setStack 0 [.sending req], [])
      (.run 0 {}) = .ok (config.queuedLink req, []) := Machine.logged_step.mpr ⟨queue, rfl⟩
  have entered : (loggedLink config).step (config.queuedLink req, []) (.run 0 {}) =
      .ok (config.loopingLink req, []) := Machine.logged_step.mpr ⟨enter, rfl⟩
  exact ((started.tail trivial called).tail trivial queued).tail trivial entered

end Steps

end Hermes
