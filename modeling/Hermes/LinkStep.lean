import Hermes.Link

/-!
# What one step of a connection can do

`RunStep` lists the outcomes of a thread's next step, one constructor for each way
the code can go on; `LinkStep` does the same for all actions.  `step_cases` says that
these are all.  The invariants are proved from the constructors only, never by
unfolding the step function.
-/

namespace Hermes

open Memory Packets

/-- The outcomes of a thread's next step that does not abort. -/
inductive RunStep (config : LinkConfig) (link : Link) (thread : ℕ) (replies : SendReplies) :
    Link → Prop where
  | queued {req rest} (stack : link.threads thread = .sending req :: rest)
      (running : link.term.sndRunning = true) :
      RunStep config link thread replies
        ({ link with
            term := { link.term with sndQue := req :: link.term.sndQue }
            inserted := link.inserted ++ [req] }.setStack thread rest)
  | entered {req rest} (stack : link.threads thread = .sending req :: rest)
      (idle : link.term.sndRunning = false) :
      RunStep config link thread replies
        ({ link with
            term := { link.term with sndQue := req :: link.term.sndQue, sndRunning := true }
            inserted := link.inserted ++ [req] }.setStack thread (.entering :: rest))
  | checked {rest} (stack : link.threads thread = .entering :: rest)
      (queue : link.term.sndQue ≠ []) (running : link.term.sndRunning = true) :
      RunStep config link thread replies (link.setStack thread (.looping :: rest))
  | noSpace {rest} (stack : link.threads thread = .looping :: rest)
      (next : link.term.nextPacket = .ok none) :
      RunStep config link thread replies (link.setStack thread (.full :: rest))
  | space {rest next} (stack : link.threads thread = .looping :: rest)
      (found : link.term.nextPacket = .ok (some next)) :
      RunStep config link thread replies (link.setStack thread (.emitting next :: rest))
  | left {rest} (stack : link.threads thread = .full :: rest) :
      RunStep config link thread replies
        ({ link with term := { link.term with sndRunning := false } }.setStack thread
          (.checkingEdge none :: rest))
  | dropped {rest next term mem} (stack : link.threads thread = .emitting next :: rest)
      (emitted : link.term.emitPacket link.mem config.sendBuf next replies =
        .ok (term, mem, .closing)) :
      RunStep config link thread replies
        (({ link with term, mem }.emitted config next.pktSize false).setStack thread
          (.closing :: rest))
  | posted {rest next term mem writes hr} (stack : link.threads thread = .emitting next :: rest)
      (emitted : link.term.emitPacket link.mem config.sendBuf next replies =
        .ok (term, mem, .posted writes hr)) :
      RunStep config link thread replies
        (({ link with term, mem }.postedFrame config next.pktSize writes
          (accepted replies.firstHalf)).setStack thread
            (.checkingEdge (some (next, hr)) :: rest))
  | closed {rest} (stack : link.threads thread = .closing :: rest) :
      RunStep config link thread replies
        ({ link with term := { link.term with sndRunning := false } }.setStack thread rest)
  | skipped {rest packet} (stack : link.threads thread = .checkingEdge packet :: rest)
      (check : link.term.checkRmtEdge = none) :
      RunStep config link thread replies (link.setStack thread (afterEdge packet ++ rest))
  | passed {rest packet rmtToken} (stack : link.threads thread = .checkingEdge packet :: rest)
      (check : link.term.checkRmtEdge = some rmtToken) :
      RunStep config link thread replies
        (link.setStack thread (.readingEdge rmtToken packet :: rest))
  | read {rest packet rmtToken} (stack : link.threads thread = .readingEdge rmtToken packet :: rest)
      (answered : accepted replies.read = true ∨ replies.read = ndCanceled) :
      RunStep config link thread replies
        ({ link with
            term := { link.term with pendingRead := link.term.pendingRead + 1 }
            outReads := link.outReads + if accepted replies.read then 1 else 0 }.setStack thread
          (afterEdge packet ++ rest))
  | again {rest next hr} (stack : link.threads thread = .advancing next hr :: rest)
      (more : packetSize < next.srcBuf.size) :
      RunStep config link thread replies
        ({ link with term := { link.term with mSndIdx := link.term.mSndIdx + 1 } }.setStack thread
          (.looping :: rest))
  | finished {rest next hr} (stack : link.threads thread = .advancing next hr :: rest)
      (done : next.srcBuf.size ≤ packetSize) :
      RunStep config link thread replies
        ({ link with term := { link.term with mSndIdx := 0 } }.setStack thread
          (.notifying next.req hr :: rest))
  | notified {rest req hr} (stack : link.threads thread = .notifying req hr :: rest) :
      RunStep config link thread replies
        ({ link with called := link.called ++ [(req, hr)] }.setStack thread
          (.inCallback req :: rest))
  | returned {rest req} (stack : link.threads thread = .inCallback req :: rest) :
      RunStep config link thread replies (link.setStack thread (.popping req :: rest))
  | emptied {rest req last} (stack : link.threads thread = .popping req :: rest)
      (back : link.term.sndQue.getLast? = some last) (same : req.buf.data = last.buf.data)
      (empty : link.term.sndQue.dropLast = []) :
      RunStep config link thread replies
        ({ link with
            term := { link.term with sndQue := [], sndRunning := false }
            popped := link.popped ++ [req] }.setStack thread rest)
  | popped {rest req last} (stack : link.threads thread = .popping req :: rest)
      (back : link.term.sndQue.getLast? = some last) (same : req.buf.data = last.buf.data)
      (remaining : link.term.sndQue.dropLast ≠ []) :
      RunStep config link thread replies
        ({ link with
            term := { link.term with sndQue := link.term.sndQue.dropLast }
            popped := link.popped ++ [req] }.setStack thread (.looping :: rest))

/-- The outcomes of an action that does not abort. -/
inductive LinkStep (config : LinkConfig) (link : Link) : LinkAction → Link → Prop where
  | called {thread req} (free : callsFrom (link.threads thread) = true)
      (admitted : sendAdmits req.buf = true) :
      LinkStep config link (.call thread req)
        (link.setStack thread (.sending req :: link.threads thread))
  | refused {thread req} (rejected : sendAdmits req.buf = false) :
      LinkStep config link (.call thread req) link
  | entered {thread} (free : callsFrom (link.threads thread) = true)
      (idle : link.term.sndRunning = false) (queue : link.term.sndQue ≠ []) :
      LinkStep config link (.enter thread)
        ({ link with term := { link.term with sndRunning := true } }.setStack thread
          (.entering :: link.threads thread))
  | notEntered {thread} : LinkStep config link (.enter thread) link
  | run {thread replies link'} (ran : RunStep config link thread replies link') :
      LinkStep config link (.run thread replies) link'
  | applied {emission write writes complete wire}
      (head : link.wire = ⟨emission, write :: writes, complete⟩ :: wire) :
      LinkStep config link .deliver
        { link with
          rmt := link.rmt.write write.1 write.2
          wire := ⟨emission, writes, complete⟩ :: wire }
  | arrived {emission wire} (head : link.wire = ⟨emission, [], true⟩ :: wire)
      (inOrder : emission.edge = link.delivered) :
      LinkStep config link .deliver { link with wire, delivered := emission.last }
  | lost {emission complete wire} (head : link.wire = ⟨emission, [], complete⟩ :: wire)
      (gap : ¬(complete = true ∧ emission.edge = link.delivered)) :
      LinkStep config link .deliver { link with wire }
  | took {packet pktSize} (resident : link.consumed < link.delivered)
      (read : takeFrame link.rmt config.rcvBuf (UInt64.ofNat link.consumed) =
        .ok (packet, pktSize)) :
      LinkStep config link .take
        { link with taken := link.taken ++ [packet], consumed := link.consumed + pktSize }
  | published :
      LinkStep config link .publish
        { link with
          published := link.consumed
          outWrites := link.outWrites.filter fun last => link.consumed < last }
  | landed {edge} (forward : link.landed ≤ edge) (bound : edge ≤ config.ring + link.consumed) :
      LinkStep config link (.land edge)
        { link with
          landed := edge
          term := { link.term with
            sndEnd := { link.term.sndEnd with trailingEdge := UInt64.ofNat edge } } }
  | completedWrite {index} :
      LinkStep config link (.completeWrite index)
        { link with outWrites := link.outWrites.eraseIdx index }
  | completedRead (outstanding : 0 < link.outReads) :
      LinkStep config link .completeRead
        { link with
          outReads := link.outReads - 1
          term := { link.term with pendingRead := link.term.pendingRead - 1 } }
  | closed :
      LinkStep config link .close
        { link with term := { link.term with rmtMemToken := 0, rmtTagToken := 0 } }

variable {config : LinkConfig} {link link' : Link}

theorem runThread_cases {thread : ℕ} {replies : SendReplies}
    (stepped : link.runThread config thread replies = .ok link') :
    RunStep config link thread replies link' := by
  unfold Link.runThread at stepped
  split at stepped
  case h_1 => cases stepped
  case h_2 req rest stack =>
    cases running : link.term.sndRunning with
    | true =>
        rw [Terminal.sendLocked_running running] at stepped
        obtain rfl := Except.ok.inj stepped
        exact .queued stack running
    | false =>
        rw [Terminal.sendLocked_idle running] at stepped
        obtain rfl := Except.ok.inj stepped
        exact .entered stack running
  case h_3 rest stack =>
    simp only [bind_eq_ok, runCode_ok, Terminal.processSendQEntry, auditAssert_eq_ok, pure,
      Except.pure, Except.ok.injEq] at stepped
    obtain ⟨_, ready, rfl⟩ := stepped
    exact .checked stack ready.1 ready.2
  case h_4 rest stack =>
    simp only [bind_eq_ok, runCode_ok] at stepped
    obtain ⟨found, next, stepped⟩ := stepped
    cases found with
    | none =>
        obtain rfl := Except.ok.inj stepped
        exact .noSpace stack next
    | some found =>
        obtain rfl := Except.ok.inj stepped
        exact .space stack next
  case h_5 rest stack =>
    obtain rfl := Except.ok.inj stepped
    exact .left stack
  case h_6 next rest stack =>
    simp only [bind_eq_ok, runCode_ok] at stepped
    obtain ⟨⟨term, mem, posting⟩, emitted, stepped⟩ := stepped
    cases posting with
    | closing =>
        obtain rfl := Except.ok.inj stepped
        exact .dropped stack emitted
    | posted writes hr =>
        obtain rfl := Except.ok.inj stepped
        exact .posted stack emitted
  case h_7 rest stack =>
    obtain rfl := Except.ok.inj stepped
    exact .closed stack
  case h_8 packet rest stack =>
    split at stepped
    case h_1 check =>
      obtain rfl := Except.ok.inj stepped
      exact .skipped stack check
    case h_2 rmtToken check =>
      obtain rfl := Except.ok.inj stepped
      exact .passed stack check
  case h_9 rmtToken packet rest stack =>
    simp only [bind_eq_ok, runCode_ok] at stepped
    obtain ⟨⟨term, requests⟩, read, stepped⟩ := stepped
    obtain ⟨_, _, answered, rfl, rfl⟩ := Terminal.readRmtEdge_ok_iff.mp read
    obtain rfl := Except.ok.inj stepped
    have length : ∀ answer : Bool, (if answer then [Request.read link.term.rmtTagAddr rmtToken]
        else []).length = if answer then 1 else 0 := by
      intro answer
      cases answer <;> rfl
    rw [length]
    exact .read stack answered
  case h_10 next hr rest stack =>
    by_cases more : packetSize < next.srcBuf.size
    · simp only [Terminal.advance, gt_iff_lt, if_pos more, Except.ok.injEq] at stepped
      subst stepped
      exact .again stack more
    · simp only [Terminal.advance, gt_iff_lt, if_neg more, Except.ok.injEq] at stepped
      subst stepped
      exact .finished stack (by omega)
  case h_11 req hr rest stack =>
    obtain rfl := Except.ok.inj stepped
    exact .notified stack
  case h_12 req rest stack =>
    obtain rfl := Except.ok.inj stepped
    exact .returned stack
  case h_13 req rest stack =>
    simp only [bind_eq_ok, runCode_ok] at stepped
    obtain ⟨⟨term, empty⟩, popped, stepped⟩ := stepped
    obtain rfl := Except.ok.inj stepped
    obtain ⟨last, back, same, outcome⟩ := Terminal.popLocked_ok popped
    rcases outcome with ⟨empty, rfl, rfl⟩ | ⟨remaining, rfl, rfl⟩
    · exact .emptied stack back same empty
    · exact .popped stack back same remaining

theorem step_cases {action : LinkAction} (stepped : link.step config action = .ok link') :
    LinkStep config link action link' := by
  cases action with
  | call thread req =>
      simp only [Link.step] at stepped
      split at stepped
      case isFalse => cases stepped
      case isTrue free =>
        split at stepped
        case isTrue admitted =>
          obtain rfl := Except.ok.inj stepped
          exact .called free admitted
        case isFalse rejected =>
          obtain rfl := Except.ok.inj stepped
          exact .refused (by simpa using rejected)
  | enter thread =>
      simp only [Link.step] at stepped
      split at stepped
      case isFalse => cases stepped
      case isTrue free =>
        split at stepped
        case isTrue =>
          obtain rfl := Except.ok.inj stepped
          exact .notEntered
        case isFalse ready =>
          obtain rfl := Except.ok.inj stepped
          exact .entered free (by simpa using fun running => ready (Or.inl running))
            (fun empty => ready (Or.inr empty))
  | run thread replies => exact .run (runThread_cases stepped)
  | deliver =>
      simp only [Link.step] at stepped
      split at stepped
      case h_1 => cases stepped
      case h_2 emission write writes complete wire head =>
        obtain rfl := Except.ok.inj stepped
        exact .applied head
      case h_3 emission complete wire head =>
        obtain rfl := Except.ok.inj stepped
        split
        case isTrue inOrder =>
          obtain ⟨rfl, inOrder⟩ := inOrder
          exact .arrived head inOrder
        case isFalse gap => exact .lost head gap
  | take =>
      simp only [Link.step] at stepped
      split at stepped
      case isFalse => cases stepped
      case isTrue resident =>
        simp only [bind_eq_ok, runCode_ok] at stepped
        obtain ⟨⟨packet, pktSize⟩, read, stepped⟩ := stepped
        obtain rfl := Except.ok.inj stepped
        exact .took resident read
  | publish =>
      obtain rfl := Except.ok.inj stepped
      exact .published
  | land edge =>
      simp only [Link.step] at stepped
      split at stepped
      case isFalse => cases stepped
      case isTrue bound =>
        obtain rfl := Except.ok.inj stepped
        exact .landed bound.1 bound.2
  | completeWrite index =>
      obtain rfl := Except.ok.inj stepped
      exact .completedWrite
  | completeRead =>
      simp only [Link.step] at stepped
      split at stepped
      case isFalse => cases stepped
      case isTrue outstanding =>
        obtain rfl := Except.ok.inj stepped
        exact .completedRead outstanding
  | close =>
      obtain rfl := Except.ok.inj stepped
      exact .closed

end Hermes
