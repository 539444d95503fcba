import Hermes.Library
import Hermes.SendRun

/-!
# What a step does to a terminal

A step of a connection changes only the fields of its terminal that sending uses,
and the tables rely on none of these.  A step of the tables leaves the terminal of a
connected socket alone, closes it, or goes on with a terminal that has no connection.
-/

namespace Hermes

open Program

variable {queue : CircularQue ℕ} {config : HostConfig}

section Sending

variable {rings : LinkConfig} {link link' : Link} {action : LinkAction}

/-- Only the fields sending uses may differ, and the edges are in use. -/
structure Terminal.Sends (terminal terminal' : Terminal) : Prop where
  same : terminal' = { terminal with
    sndEnd := terminal'.sndEnd
    sndQue := terminal'.sndQue
    sndRunning := terminal'.sndRunning
    mSndIdx := terminal'.mSndIdx
    pendingRead := terminal'.pendingRead
    rmtMemToken := terminal'.rmtMemToken
    rmtTagToken := terminal'.rmtTagToken }
  edge : terminal.sndEnd.trailingEdge ≠ 0 → terminal'.sndEnd.trailingEdge ≠ 0

theorem Terminal.emitPacket_term {terminal term : Terminal} {memory mem : Memory UInt8}
    {sendBuf : Span} {next : NextPacket} {replies : SendReplies} {posting : Posting}
    (emitted : terminal.emitPacket memory sendBuf next replies = .ok (term, mem, posting)) :
    term = terminal.pastFrame next.pktSize := by
  simp only [Terminal.emitPacket, bind_eq_ok] at emitted
  rcases emitted with ⟨⟨middle, after, frame⟩, put, posts⟩
  have past : middle = terminal.pastFrame next.pktSize := Terminal.putDown_term put
  split at posts
  · cases posts
    exact past
  · simp only [bind_eq_ok] at posts
    rcases posts with ⟨_, _, posts⟩
    cases posts
    exact past

/-- What a step of a connection does to its terminal. -/
theorem LinkStep.sends (stepped : LinkStep rings link action link')
    (forward : ∀ edge, action = .land edge → UInt64.ofNat edge ≠ 0) :
    Terminal.Sends link.term link'.term := by
  cases stepped with
  | run ran =>
      cases ran with
      | dropped stack emitted | posted stack emitted =>
          cases Terminal.emitPacket_term emitted
          exact ⟨rfl, id⟩
      | _ => exact ⟨rfl, id⟩
  | landed => exact ⟨rfl, fun _ => forward _ rfl⟩
  | _ => exact ⟨rfl, id⟩

/-- The reads counted as pending are those outstanding and those answered `ND_CANCELED`. -/
theorem LinkStep.reads (stepped : LinkStep rings link action link') {canceled : ℕ}
    (counted : link.term.pendingRead = link.outReads + canceled) :
    link'.term.pendingRead = link'.outReads + (canceled + link.cancels action) := by
  cases stepped with
  | run ran =>
      cases ran with
      | dropped stack emitted | posted stack emitted =>
          cases Terminal.emitPacket_term emitted
          refine Eq.trans counted ?_
          simp [Link.cancels, stack, Link.setStack, Link.postedFrame, Link.emitted]
      | read stack answered =>
          simp only [Link.cancels, stack, Link.setStack]
          split <;> omega
      | _ =>
          refine Eq.trans counted ?_
          simp [Link.cancels, Link.setStack, *]
  | completedRead outstanding =>
      simp only [Link.cancels]
      omega
  | _ => exact counted

/-- The thread an action moves. -/
def LinkAction.thread? : LinkAction → Option ℕ
  | .call thread _ | .enter thread | .run thread _ => some thread
  | _ => none

/-- A step moves one thread. -/
theorem LinkStep.threads_other (stepped : LinkStep rings link action link') {thread : ℕ}
    (other : action.thread? ≠ some thread) : link'.threads thread = link.threads thread := by
  have apart : ∀ {moving : ℕ}, action.thread? = some moving → thread ≠ moving := by
    rintro moving moves rfl
    exact other moves
  cases stepped with
  | called | entered => exact Function.update_of_ne (apart rfl) _ _
  | run ran => cases ran <;> exact Function.update_of_ne (apart rfl) _ _
  | _ => rfl

end Sending

section Tables

variable {host : Host queue} {listeners : List ℕ} {id conId : ℕ}

/-- Only the fields a connection uses may differ, and the edges stay in use. -/
structure Terminal.Works (terminal terminal' : Terminal) : Prop where
  same : terminal' = { terminal with
    rcvEnd := terminal'.rcvEnd
    sndEnd := terminal'.sndEnd
    sndQue := terminal'.sndQue
    sndRunning := terminal'.sndRunning
    pendingRead := terminal'.pendingRead
    mSndIdx := terminal'.mSndIdx
    mRcvSize := terminal'.mRcvSize
    mRcvIdx := terminal'.mRcvIdx
    rcvBuf := terminal'.rcvBuf
    rcvProcessing := terminal'.rcvProcessing
    rmtMemToken := terminal'.rmtMemToken
    rmtTagToken := terminal'.rmtTagToken }
  edges : terminal.rcvEnd.trailingEdge ≠ 0 ∧ terminal.sndEnd.trailingEdge ≠ 0 →
    terminal'.rcvEnd.trailingEdge ≠ 0 ∧ terminal'.sndEnd.trailingEdge ≠ 0

/-- The tables do not rely on what a connection does to its terminal. -/
theorem HostOk.works (ok : HostOk config openMode listeners {} host) (sockId : config.SockId id)
    (connected : (host.sockTbl id).state = .connected) {terminal : Terminal}
    (works : Terminal.Works (host.connections (host.sockTbl id).term) terminal) :
    HostOk config openMode listeners {} { host with
      connections := Function.update host.connections (host.sockTbl id).term terminal } := by
  rcases works with ⟨same, edges⟩
  have fits := ok.slots.sockets id (.of_none sockId rfl)
  simp only [SocketOk, connected] at fits
  rcases fits with ⟨owns, begun⟩
  have mem : (host.connections (host.sockTbl id).term).pMemRegion ≠ none :=
    ok.regions.started owns.term (by simp) begun
  rcases ok.pickOwner rfl rfl sockId owns.term.ne
    (Host.noAttempt_of_state ok (by rw [connected]; rfl)) with ⟨picked, carried⟩
  have owns' : Owns config (host.sockTbl id) terminal := by
    constructor
    case listen => exact owns.listen
    case term => exact owns.term
    case edges => exact edges owns.edges
    all_goals rw [same]
    case handle => exact owns.handle
    case pQuePair => exact owns.pQuePair
    case pCQ => exact owns.pCQ
    case pConnector => exact owns.pConnector
    case pConnFunc => exact owns.pConnFunc
  have changed : HostOk config openMode listeners
      { sock := some id, term := some (host.sockTbl id).term } { host with
        connections := Function.update host.connections (host.sockTbl id).term terminal } := by
    have continued := congrArg Terminal.pDisconnectCont same
    refine picked.setTerminal rfl ?_ ?_ ?_ (.of_same continued) ?_
    all_goals rw [same]
    · exact fun _ func => func
    · exact (ok.listens.terminalApart owns.term).of_holds fun _ holds => .inl holds
  have carriedNow : Carried config { sock := some id, term := some (host.sockTbl id).term } id
      (host.sockTbl id).term { host with
        connections := Function.update host.connections (host.sockTbl id).term terminal } :=
    ⟨rfl, rfl, rfl, by simpa using owns'⟩
  refine changed.putDown (carriedNow.stowAgreed (.inr connected) ?_ ?_) owns.listen
  all_goals
    dsimp only
    rw [Function.update_self, same]
  · exact begun
  · exact mem

/-- A connection's step on the terminal's record. -/
theorem Terminal.Sends.works {terminal terminal' record : Terminal}
    (sends : Terminal.Sends terminal terminal') (shown : record = terminal.withReceiving record) :
    Terminal.Works record (terminal'.withReceiving record) := by
  rcases sends with ⟨same, edge⟩
  have sndEnd : record.sndEnd = terminal.sndEnd := by rw [shown, Terminal.withReceiving]
  constructor
  · cases terminal
    cases terminal'
    cases record
    simp only [Terminal.withReceiving, Terminal.mk.injEq] at same shown ⊢
    simp [same, shown]
  · rintro ⟨rcvEdge, sndEdge⟩
    exact ⟨rcvEdge, edge (by rwa [← sndEnd])⟩

/-- A terminal is attached to the connected socket that owns it. -/
theorem Host.attached_iff (ok : HostOk config openMode listeners {} host) :
    host.attached conId = true ↔ ∃ id, config.SockId id ∧
      (host.sockTbl id).state = .connected ∧ (host.sockTbl id).term = conId := by
  constructor
  · intro attached
    rw [Host.attached] at attached
    cases found : host.findSocket (host.connections conId).handle with
    | none => simp [found] at attached
    | some pSock =>
        simp only [found, decide_eq_true_eq] at attached
        exact ⟨pSock, (Host.findSocket_some ok found).1, attached⟩
  · rintro ⟨id, sockId, connected, rfl⟩
    have fits := ok.slots.sockets id (.of_none sockId rfl)
    simp only [SocketOk, connected] at fits
    have found : host.findSocket (host.connections (host.sockTbl id).term).handle = some id := by
      rw [fits.1.handle, Host.findSocket, Host.handleToId_sock ok sockId,
        Host.getSocket_eq ok sockId]
      exact if_pos rfl
    simp [Host.attached, found, connected]

/-- The counts of pending reads are the same. -/
def Host.SameReads (before after : Host queue) : Prop :=
  ∀ conId, (after.connections conId).pendingRead = (before.connections conId).pendingRead

instance : Std.Refl (Host.SameReads : Host queue → Host queue → Prop) where
  refl _ _ := rfl

instance : IsTrans (Host queue) Host.SameReads where
  trans _ _ _ first second conId := (second conId).trans (first conId)

/-- The end of a connection leaves the counts of pending reads alone. -/
theorem Host.sameReads_closeTerminal (termId : ℕ) (notices : List StatusCode) :
    Advances Host.SameReads Stop.PoolSound
      (Host.closeTerminal config termId notices : Code queue PUnit) := by
  apply Host.advances_closeTerminal
  case moves => exact fun moves conId => ((moves.lived trivial).terminals conId).pendingRead
  case clears =>
    intro host conId conId'
    by_cases same : conId' = conId
    · subst same
      simp
    · simp [same]
  case parts => exact fun _ _ _ => rfl
  case frees =>
    rintro id before _ ⟨_, _, rfl⟩ conId
    rfl

/-- `closeTerminal` voids the terminal, whose count of reads stays, and frees its socket. -/
theorem Host.closed_of_step {after : Host queue} (ok : HostOk config openMode listeners {} host)
    {notices : List StatusCode}
    (stepped : Host.step config host (.closeTerminal conId notices) = .ok after) :
    ∃ id, config.SockId id ∧ (host.sockTbl id).term = conId ∧ Host.Closed id host after ∧
      (after.connections conId).voidFlds = after.connections conId ∧
      (after.connections conId).pendingRead = (host.connections conId).pendingRead := by
  rcases Host.step_eq_ok.mp stepped with ⟨done, performed⟩
  rcases (Host.closeTerminal_closes ok notices).of_ok performed
    with ⟨afterOk, inRange, id, sockId, rfl, closed⟩
  refine ⟨id, sockId, rfl, closed, ?_, ?_⟩
  · apply afterOk.slots.void
    by_contra used
    rcases afterOk.slots.owner _ inRange used (by simp) with ⟨id', settled, owned⟩
    by_cases same : id' = id
    · subst same
      have fits := afterOk.slots.sockets id' settled
      simp only [SocketOk, closed.inpool] at fits
      exact inRange.ne (owned.symm.trans fits.1)
    · rw [closed.others id' same] at owned
      exact same (ok.slots.ownedOnce id id' (.of_none sockId rfl) (.of_none settled.1 rfl)
        inRange.ne owned.symm).symm
  · exact (Host.sameReads_closeTerminal _ _ host).of_ok performed _

/-- What a step of the tables other than a `Send` does to a terminal: nothing if it is attached to a
connected socket before and after, closes it, or goes on with it while it is not attached. -/
theorem Host.terminal_step {after : Host queue} {action : HostAction}
    (ok : HostOk config openMode listeners {} host)
    (quiet : ∀ handle req, action ≠ .send handle req)
    (stepped : Host.step config host action = .ok after) (conId : ℕ) :
    (host.attached conId = true ∧ after.attached conId = true ∧
      after.connections conId = host.connections conId) ∨
    ((∃ notices, action = .closeTerminal conId notices) ∧ after.attached conId = false ∧
      (after.connections conId).voidFlds = after.connections conId ∧
      (after.connections conId).pendingRead = (host.connections conId).pendingRead) ∨
    host.attached conId = false ∧
      Terminal.Later config (host.connections conId) (after.connections conId) := by
  rcases Host.step_eq_ok.mp stepped with ⟨done, performed⟩
  have afterOk : HostOk config openMode (listeners ++ Host.opens config host action) {} after :=
    (Host.perform_ensures ok Host.admits_openMode).of_ok performed
  by_cases closes : ∃ notices, action = .closeTerminal conId notices
  · rcases closes with ⟨notices, rfl⟩
    rcases Host.closed_of_step ok stepped with ⟨id, sockId, owned, closed, void, reads⟩
    refine .inr (.inl ⟨⟨notices, rfl⟩, ?_, void, reads⟩)
    apply Bool.eq_false_iff.mpr
    intro attached
    rcases (Host.attached_iff afterOk).mp attached with ⟨id', sockId', connected, term⟩
    by_cases same : id' = id
    · subst same
      rw [closed.inpool] at connected
      cases connected
    · rw [closed.others id' same] at connected term
      have fits := ok.slots.sockets id' (.of_none sockId' rfl)
      simp only [SocketOk, connected] at fits
      exact same (ok.slots.ownedOnce id' id (.of_none sockId' rfl) (.of_none sockId rfl)
        fits.1.term.ne (term.trans owned.symm))
  by_cases attached : host.attached conId = true
  · rcases (Host.attached_iff ok).mp attached with ⟨id, sockId, connected, rfl⟩
    rcases Host.step_undisturbed ok sockId connected stepped with closing | ⟨sock, same | sent⟩
    · exact absurd closing closes
    · refine .inl ⟨attached, (Host.attached_iff afterOk).mpr ⟨id, sockId, ?_, ?_⟩, same⟩
      all_goals rw [sock]
      exact connected
    · rcases sent with ⟨req, sends, _⟩
      exact absurd sends (quiet _ req)
  · refine .inr (.inr ⟨by simpa using attached, ?_⟩)
    have within : Host.Within config .any host :=
      Host.within_of_ok ok (fun _ => trivial) fun _ => trivial
    have plainly : action.Plain →
        Terminal.Later config (host.connections conId) (after.connections conId) :=
      fun plain => (((Host.inScope_perform trivial trivial trivial ok within plain quiet).of_ok
        performed).lived trivial).terminals conId
    cases action
    case closeTerminal termId notices =>
      rcases Host.closed_of_step ok stepped with ⟨id, sockId, rfl, closed, _⟩
      have other : conId ≠ (host.sockTbl id).term := by
        rintro rfl
        exact closes ⟨notices, rfl⟩
      rw [closed.connections conId other]
      exact .refl _
    case send handle req => exact absurd rfl (quiet handle req)
    all_goals exact plainly trivial

end Tables

end Hermes
