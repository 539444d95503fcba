import Hermes.HostTerminal

/-!
# Terminals are started

What `PrepareHandShakeData` and `StartTerminal` do to a terminal in hand, and how a
socket and its terminal are picked up and put down together.
-/

namespace Hermes

open Program

variable {queue : CircularQue ℕ} {config : HostConfig} {mode : Mode} {listeners : List ℕ}
  {hand : Hand} {host : Host queue} {id conId ov termId : ℕ} {job : AsyncJob} {arena : ℕ}
  {replies : Replies}

/-- A terminal still has what its socket needs. -/
structure SameOwner (terminal terminal' : Terminal) : Prop where
  handle : terminal'.handle = terminal.handle
  rcvEnd : terminal'.rcvEnd = terminal.rcvEnd
  sndEnd : terminal'.sndEnd = terminal.sndEnd
  pQuePair : terminal'.pQuePair = terminal.pQuePair
  pCQ : terminal'.pCQ = terminal.pCQ
  pConnector : terminal'.pConnector = terminal.pConnector
  pConnFunc : terminal'.pConnFunc = terminal.pConnFunc

theorem SameOwner.trans {first second third : Terminal} (left : SameOwner first second)
    (right : SameOwner second third) : SameOwner first third where
  handle := right.handle.trans left.handle
  rcvEnd := right.rcvEnd.trans left.rcvEnd
  sndEnd := right.sndEnd.trans left.sndEnd
  pQuePair := right.pQuePair.trans left.pQuePair
  pCQ := right.pCQ.trans left.pCQ
  pConnector := right.pConnector.trans left.pConnector
  pConnFunc := right.pConnFunc.trans left.pConnFunc

theorem SameOwner.of_noRegions {terminal terminal' : Terminal}
    (same : terminal'.noRegions = terminal.noRegions) : SameOwner terminal terminal' where
  handle := congrArg (·.handle) same
  rcvEnd := congrArg (·.rcvEnd) same
  sndEnd := congrArg (·.sndEnd) same
  pQuePair := congrArg (·.pQuePair) same
  pCQ := congrArg (·.pCQ) same
  pConnector := congrArg (·.pConnector) same
  pConnFunc := congrArg (·.pConnFunc) same

/-- The socket may have another state and port. -/
theorem Owns.keep {sock sock' : HSocket} {terminal terminal' : Terminal}
    (owns : Owns config sock terminal) (same : SameOwner terminal terminal')
    (pListen : sock'.pListen = sock.pListen) (term : sock'.term = sock.term)
    (handle : sock'.handle = sock.handle) : Owns config sock' terminal' where
  listen := pListen.trans owns.listen
  term := by rw [term]; exact owns.term
  handle := by rw [same.handle, handle, owns.handle]
  edges := by rw [same.rcvEnd, same.sndEnd]; exact owns.edges
  pQuePair := by rw [same.pQuePair]; exact owns.pQuePair
  pCQ := by rw [same.pCQ]; exact owns.pCQ
  pConnector := by rw [same.pConnector]; exact owns.pConnector
  pConnFunc := by rw [same.pConnFunc]; exact owns.pConnFunc

namespace HostOk

section Hand

/-- A socket that holds no listener is picked up. -/
theorem pick (ok : HostOk config mode listeners hand host) (sockEmpty : hand.sock = none)
    (termEmpty : hand.term = none) (sockId : config.SockId id)
    (active : (host.sockTbl id).state ≠ .inpool) (noListen : (host.sockTbl id).pListen = none)
    {term : Option ℕ}
    (owns : term = none ∧ (host.sockTbl id).term = invalidTermId ∨
      term = some (host.sockTbl id).term ∧ config.TermId (host.sockTbl id).term)
    (idle : ∀ {ov job}, host.Pends ov job → mode.key job ≠ some (.attempt id)) :
    HostOk config mode listeners { hand with sock := some id, term } host := by
  refine ok.grab sockEmpty termEmpty sockId active owns idle ?_
  refine ok.listens.map fun leaked listens => ?_
  refine listens.regrip rfl ?_ ?_ (fun _ _ apart => apart)
  · intro id' listener settled holds
    exact ⟨(SlotsOk.settled_of_grab sockEmpty settled).1, holds⟩
  · intro id' listener settled holds
    refine ⟨⟨settled.1, ?_⟩, holds⟩
    intro same
    cases same
    rw [noListen] at holds
    cases holds

/-- A socket that holds no listener is put down. -/
theorem putDown (ok : HostOk config mode listeners hand host)
    (stowable : Stowable config mode hand host id) (noListen : (host.sockTbl id).pListen = none) :
    HostOk config mode listeners { hand with sock := none, term := none } host := by
  refine ok.stow stowable ?_
  refine ok.listens.map fun leaked listens => ?_
  refine listens.regrip rfl ?_ ?_ (fun _ _ apart => apart)
  · intro id' listener settled holds
    refine ⟨settled_of_stow stowable.inHand settled ?_, holds⟩
    intro same
    rw [same, noListen] at holds
    cases holds
  · exact fun settled holds => ⟨⟨settled.1, nofun⟩, holds⟩

end Hand

end HostOk

namespace Host

section Starting

/-- What `PrepareHandShakeData` changes: the regions of the terminal are there, and disclosed. -/
structure Disclosed (termId : ℕ) (before after : Host queue) : Prop where
  sockTbl : after.sockTbl = before.sockTbl
  notified : after.notified = before.notified
  noRegions : ∀ conId, (after.connections conId).noRegions = (before.connections conId).noRegions
  mem : (after.connections termId).pMemRegion ≠ none
  pends : ∀ {ov job}, after.Pends ov job → before.Pends ov job
  overlaps : ∀ ov, ov ∉ before.pending → after.overlaps ov = before.overlaps ov

theorem prepareHandShakeData_ensures (ok : HostOk config mode listeners hand host)
    (inHand : hand.term = some termId) :
    Ensures (prepareHandShakeData config termId replies)
      (fun _ after => HostOk config mode listeners hand after ∧ Disclosed termId host after)
      (mode.Tolerates config) host := by
  have inRange := (ok.slots.termInHand termId inHand).1
  unfold prepareHandShakeData
  refine ensures_getTerminal inRange (.step (getRcvBuf_eq ok.rings inRange.1 inRange.2) ?_)
  refine (completeRegistrations_ensures replies.whileRegions ok).bind ?_
  rintro _ after ⟨afterOk, completes⟩
  rw [ensures_bind, ensures_get]
  cases mem : (after.connections termId).pMemRegion with
  | none => exact trivial
  | some memRegion =>
      cases tag : (after.connections termId).pTagRegion with
      | none => exact trivial
      | some tagRegion =>
          refine .step rfl ⟨afterOk.disclose inHand mem tag, ?_⟩
          refine ⟨completes.sockTbl, completes.notified, completes.noRegions, ?_, ?_,
            completes.overlaps⟩
          · change (after.connections termId).pMemRegion ≠ none
            rw [mem]
            exact nofun
          · exact fun outstanding => completes.fewer outstanding

/-- The terminal that `StartTerminal` makes of a terminal. -/
def Terminal.begun (terminal : Terminal) (handShake : HandShake) (arena : ℕ) : Terminal :=
  { terminal.saveRemoteKeys handShake with
    sndRunning := false
    sndQue := []
    pRcvCont := some arena
    pDisconnectCont := some arena
    pVerbCompletion := some arena }

/-- What `StartTerminal` changes. -/
structure Begun (termId : ℕ) (before after : Host queue) : Prop where
  sockTbl : after.sockTbl = before.sockTbl
  notified : after.notified = before.notified
  owner : SameOwner (before.connections termId) (after.connections termId)
  mem : (after.connections termId).pMemRegion = (before.connections termId).pMemRegion
  begun : (after.connections termId).pDisconnectCont ≠ none
  pends : ∀ {ov job}, after.Pends ov job → before.Pends ov job ∨ job = .verbCompletion termId

theorem startTerminal_ensures (ok : HostOk config mode listeners hand host)
    (inHand : hand.term = some termId) (few : hand.ovs.length ≤ 8)
    (idle : mode.closers = false → (host.connections termId).pDisconnectCont = none)
    (handShake : HandShake) :
    Ensures (startTerminal config termId handShake replies)
      (fun _ after => HostOk config mode listeners hand after ∧ Begun termId host after)
      (mode.Tolerates config) host := by
  have inRange := (ok.slots.termInHand termId inHand).1
  unfold startTerminal
  have started : HostOk config mode listeners hand { host with
      arenas := host.arenas + 1
      connections := Function.update host.connections termId
        (Terminal.begun (host.connections termId) handShake host.arenas) } := by
    refine ok.newArena.setTerminal inHand rfl rfl
      (fun _ func => func) ⟨by simp [Terminal.begun], ?_⟩
      ((ok.listens.terminalApart inRange).of_holds fun _ holds => .inl holds)
    intro continuation holds
    cases holds
    refine .inr ⟨Nat.lt_succ_self _, ?_⟩
    exact fun conId' inRange' holds => Nat.lt_irrefl _ (ok.continuations.made inRange' holds)
  refine ensures_getTerminal inRange (.step rfl (.step rfl (.step rfl (.step rfl ?_))))
  simp only [Function.update_self, Function.update_idem]
  refine (getObj_ensures started few _).bind ?_
  rintro ov taken ⟨took, next, takenOk⟩
  refine ensures_audit (fun _ => .inl (by decide)) fun _ => ?_
  have connections := took.connections
  dsimp only at connections
  have samePends : ∀ {ov' job'}, taken.Pends ov' job' ↔ host.Pends ov' job' := took.pends
  have runs : (taken.overlaps ov).job? = some (.verbCompletion termId) := by
    rw [next]
    rfl
  have now : (taken.connections termId).pDisconnectCont = some host.arenas := by
    rw [connections, Function.update_self]
    rfl
  refine .of_eq rfl
    ⟨takenOk.pend rfl runs ?_ ?_ (by simp [AsyncJob.region?]) (by simp) (by simp) rfl ?_, ?_⟩
  · exact ⟨inRange, fun _ => by simp [now]⟩
  · intro ov' job' outstanding keyed same
    cases closers : mode.closers with
    | true => simp [Mode.key, closers] at keyed
    | false =>
        have free := (ok.jobs.notStarted (idle closers) (samePends.mp outstanding)).1
        refine free (same.trans ?_)
        simp [Mode.key, closers]
  · exact fun _ _ registers => absurd rfl registers
  · refine ⟨took.sockTbl, took.notified, ?_, ?_, ?_, ?_⟩
    · dsimp only
      rw [connections, Function.update_self]
      exact ⟨rfl, rfl, rfl, rfl, rfl, rfl, rfl⟩
    · dsimp only
      rw [connections, Function.update_self]
      rfl
    · rw [now]
      simp
    · intro ov' job' outstanding
      rcases (HostOk.pends_append runs).mp outstanding with old | ⟨_, new⟩
      · exact .inl (samePends.mp old)
      · exact .inr new

end Starting

end Host

end Hermes
