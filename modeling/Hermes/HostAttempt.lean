import Hermes.HostStart

/-!
# The handlers of an attempt to connect

What `ProcessConnReq`, `OnConnAck`, `OnConnAccepted` and the disconnect notification do
with a socket and its terminal, from where they are picked up to where they are put
down or freed.
-/

namespace Hermes

open Program

variable {queue : CircularQue ℕ} {config : HostConfig} {mode : Mode} {listeners : List ℕ}
  {hand : Hand} {host : Host queue} {id conId ov termId : ℕ} {job : AsyncJob} {arena : ℕ}
  {replies : Replies} {err : StatusCode} {hr : HRESULT}

/-- A socket is in hand together with its terminal. -/
structure Carried (config : HostConfig) (hand : Hand) (id termId : ℕ) (host : Host queue) :
    Prop where
  sock : hand.sock = some id
  term : hand.term = some termId
  owned : (host.sockTbl id).term = termId
  owns : Owns config (host.sockTbl id) (host.connections termId)

namespace Carried

theorem inRange (carried : Carried config hand id termId host) : config.TermId termId := by
  rw [← carried.owned]
  exact carried.owns.term

theorem keep (carried : Carried config hand id termId host) {after : Host queue}
    (pListen : (after.sockTbl id).pListen = (host.sockTbl id).pListen)
    (term : (after.sockTbl id).term = (host.sockTbl id).term)
    (handle : (after.sockTbl id).handle = (host.sockTbl id).handle)
    (same : SameOwner (host.connections termId) (after.connections termId)) :
    Carried config hand id termId after where
  sock := carried.sock
  term := carried.term
  owned := term.trans carried.owned
  owns := carried.owns.keep same pListen term handle

theorem move (carried : Carried config hand id termId host) {after : Host queue}
    (sockTbl : after.sockTbl = host.sockTbl)
    (same : SameOwner (host.connections termId) (after.connections termId)) :
    Carried config hand id termId after := by
  apply carried.keep _ _ _ same
  all_goals rw [sockTbl]

theorem setSocket (carried : Carried config hand id termId host) {sock : HSocket}
    (pListen : sock.pListen = (host.sockTbl id).pListen)
    (term : sock.term = (host.sockTbl id).term) (handle : sock.handle = (host.sockTbl id).handle) :
    Carried config hand id termId
      { host with sockTbl := Function.update host.sockTbl id sock } := by
  refine carried.keep ?_ ?_ ?_ ⟨rfl, rfl, rfl, rfl, rfl, rfl, rfl⟩
  all_goals
    dsimp only
    rw [Function.update_self]
    assumption

theorem setTerminal (carried : Carried config hand id termId host) {terminal : Terminal}
    (same : SameOwner (host.connections termId) terminal) :
    Carried config hand id termId
      { host with connections := Function.update host.connections termId terminal } := by
  refine carried.move rfl ?_
  dsimp only
  rwa [Function.update_self]

end Carried

/-- An attempt that goes on has not started its terminal, unless it waits for its connection to be
accepted. -/
theorem JobReady.unstarted {sockTbl : ℕ → HSocket} {connections : ℕ → Terminal}
    (ready : JobReady config mode hand sockTbl connections job)
    (waits : mode.loose = false → job ≠ .onAccepted id)
    (key : mode.key job = some (.attempt id)) :
    (sockTbl id).state = .connecting ∨
      (connections (sockTbl id).term).pDisconnectCont = none := by
  cases job
  case onConn id' listen =>
    cases key
    exact .inr ready.2.2
  case onConnAck id' =>
    cases key
    exact .inl ready.2
  case onAccepted id' =>
    simp only [Mode.key, Option.ite_none_left_eq_some, Option.some.injEq,
      JobKey.attempt.injEq] at key
    rcases key with ⟨tight, rfl⟩
    exact absurd rfl (waits (by simpa using tight))
  all_goals
    simp only [Mode.key] at key
    split at key <;> cases key

/-- A disconnect notification is only outstanding when the attempt is over. -/
theorem JobReady.ended {sockTbl : ℕ → HSocket} {connections : ℕ → Terminal}
    (ready : JobReady config mode hand sockTbl connections job) (loose : mode.loose = false)
    (key : mode.key job = some (.discon conId)) (settled : hand.Settled config id)
    (term : (sockTbl id).term = conId) : (sockTbl id).state.attempting = false := by
  cases job
  case onDisconNotified conId' =>
    simp only [Mode.key, loose, Bool.false_eq_true, if_false, Option.some.injEq,
      JobKey.discon.injEq] at key
    rw [key] at ready
    exact (ready.2 loose).2 id settled term
  all_goals
    simp only [Mode.key] at key
    try split at key
    all_goals cases key

namespace HostOk

/-- A socket with a terminal is picked up. -/
theorem pickOwner (ok : HostOk config mode listeners hand host) (sockEmpty : hand.sock = none)
    (termEmpty : hand.term = none) (sockId : config.SockId id)
    (owner : (host.sockTbl id).term ≠ invalidTermId)
    (idle : ∀ {ov job}, host.Pends ov job → mode.key job ≠ some (.attempt id)) :
    HostOk config mode listeners
        { hand with sock := some id, term := some (host.sockTbl id).term } host ∧
      Carried config { hand with sock := some id, term := some (host.sockTbl id).term } id
        (host.sockTbl id).term host := by
  have fits := ok.slots.sockets id (.of_none sockId sockEmpty)
  have owns := fits.owns owner
  refine ⟨ok.pick sockEmpty termEmpty sockId ?_ owns.listen (.inr ⟨rfl, owns.term⟩) idle,
    ⟨rfl, rfl, rfl, owns⟩⟩
  intro state
  exact owner (fits.unowned state).1

end HostOk

/-- A connected socket can be put down with its started terminal. -/
theorem Carried.stowAgreed (carried : Carried config hand id termId host)
    (state : (host.sockTbl id).state = .connAgreed ∨ (host.sockTbl id).state = .connected)
    (begun : (host.connections termId).pDisconnectCont ≠ none)
    (mem : (host.connections termId).pMemRegion ≠ none) : Stowable config mode hand host id := by
  have notAttempting : (host.sockTbl id).state.attempting = true → False := by
    intro attempting
    rcases state with state | state
    all_goals
      rw [state] at attempting
      cases attempting
  constructor
  case inHand => exact carried.sock
  case fits =>
    rw [carried.owned]
    rcases state with state | state
    all_goals
      simp only [SocketOk, state]
      exact ⟨carried.owns, begun⟩
  case active =>
    rcases state with state | state
    all_goals
      rw [state]
      simp
  case term => exact .inr (by rw [carried.term, carried.owned])
  case noDiscon => exact fun _ attempting => (notAttempting attempting).elim
  case secret =>
    intro accepting
    exact (notAttempting (by rw [accepting, SocketState.attempting])).elim
  case connecting =>
    intro connecting
    exact (notAttempting (by rw [connecting, SocketState.attempting])).elim
  case started =>
    rw [carried.owned]
    exact fun _ _ => mem
  case quiet => exact fun attempting => (notAttempting attempting).elim

theorem Hand.putDown (hand : Hand) (sock : hand.sock = none) (term : hand.term = none) :
    ({ hand with sock := none, term := none } : Hand) = hand := by
  cases hand
  cases sock
  cases term
  rfl

namespace Host

section Accepted

/-- A terminal may be out of range where the fault allows it. -/
theorem ensures_getTerminal_of {Result : Type} {post : Result → Host queue → Prop}
    {fault : Stop → Prop} {next : Terminal → Code queue Result}
    (outside : ¬config.TermId conId → fault (.abort (.assert "Invalid Connection Id")))
    (continues : config.TermId conId → Ensures (next (host.connections conId)) post fault host) :
    Ensures (getTerminal config conId >>= next) post fault host := by
  by_cases inRange : config.TermId conId
  · exact ensures_getTerminal inRange (continues inRange)
  · rw [ensures_bind, getTerminal]
    exact ensures_audit (fun _ => outside inRange) fun within => absurd within inRange

/-- The handler of the disconnect notification posts the terminal's continuation. -/
theorem onDisconNotified_ensures
    (begun : mode.loose = false → (host.connections termId).pDisconnectCont ≠ none) :
    Ensures (onDisconNotified termId) (fun _ after => ∃ posts, after = { host with posts })
      (mode.Tolerates config) host := by
  unfold onDisconNotified
  refine .step apply_get (ensures_derefPtr ?_ ?_)
  · intro none
    by_contra tight
    exact begun (by simpa [Mode.Tolerates] using tight) none
  · exact fun continuation _ => .of_eq rfl ⟨_, rfl⟩

/-- When a connection could not be accepted, the terminal's continuation is posted. -/
theorem onConnAcceptedFinal_ensures
    (begun : mode.loose = false → config.TermId (host.sockTbl id).term ∧
      (host.connections (host.sockTbl id).term).pDisconnectCont ≠ none) :
    Ensures (onConnAcceptedFinal config id err arena)
      (fun _ after => ∃ posts retired events, after = { host with posts, retired, events })
      (mode.Tolerates config) host := by
  have loose : ∀ {wrong : Prop}, (mode.loose = false → ¬wrong) → wrong →
      mode.loose = true := by
    intro wrong right holds
    by_contra tight
    exact right (by simpa using tight) holds
  unfold onConnAcceptedFinal
  by_cases bad : err ≠ hOk
  · rw [if_pos bad]
    refine .step apply_get (ensures_getTerminal_of ?_ fun inRange => ?_)
    · intro outside
      exact Mode.tolerates_loose (loose (fun on => not_not.mpr (begun on).1) outside) (by decide)
    · refine ensures_audit ?_ fun some => ?_
      · intro none
        exact Mode.tolerates_loose (loose (fun on => not_not.mpr (begun on).2) none) (by decide)
      · refine ensures_derefPtr (fun none => absurd none some) fun continuation _ => ?_
        exact .of_eq rfl ⟨_, _, _, rfl⟩
  · rw [if_neg bad]
    exact .of_eq rfl ⟨host.posts, _, _, rfl⟩

/-- A connection whose terminal has not been started is never accepted. -/
theorem onConnAccepted_stops (loose : mode.loose = true) (hr : HRESULT)
    (idle : (host.connections (host.sockTbl id).term).pDisconnectCont = none) :
    Ensures (onConnAccepted config id hr arena replies) (fun _ _ => False)
      (mode.Tolerates config) host := by
  have final : ∀ {host' : Host queue} {err : StatusCode}, err ≠ hOk →
      (host'.sockTbl id).term = (host.sockTbl id).term →
      (host'.connections (host.sockTbl id).term).pDisconnectCont = none →
        Ensures (onConnAcceptedFinal config id err arena) (fun _ _ => False)
          (mode.Tolerates config) host' := by
    intro host' err bad sameTerm idle'
    unfold onConnAcceptedFinal
    rw [if_pos bad]
    refine .step apply_get ?_
    rw [sameTerm]
    refine ensures_getTerminal_of (fun _ => Mode.tolerates_loose loose (by decide)) ?_
    intro _
    refine ensures_audit (fun _ => Mode.tolerates_loose loose (by decide)) ?_
    exact fun some => absurd idle' some
  unfold onConnAccepted
  by_cases bad : hr ≠ hOk
  · rw [if_pos bad]
    exact final bad rfl idle
  · rw [if_neg bad]
    refine .step apply_get (ensures_audit ?_ fun _ => .step rfl (ensures_getTerminal_of ?_ ?_))
    · exact fun _ => Mode.tolerates_loose loose (by decide)
    · exact fun _ => Mode.tolerates_loose loose (by decide)
    intro _
    refine ensures_derefPtr (fun _ => loose) fun connector _ => ?_
    by_cases noPeer : replies.peerAddress ≠ hOk
    · rw [if_pos noPeer]
      exact final noPeer (by simp) idle
    · rw [if_neg noPeer]
      refine .step rfl ?_
      by_cases noLocal : replies.localAddress ≠ hOk
      · rw [if_pos noLocal]
        exact final noLocal (by simp) (by simpa using idle)
      · rw [if_neg noLocal]
        refine .step rfl (ensures_audit (fun _ => .inl (by decide)) fun _ => ?_)
        dsimp only
        rw [idle]
        exact loose

/-- The disconnect notification is outstanding afterwards, or its handler has run. -/
theorem notifyDisconnect_ensures (ok : HostOk config mode listeners hand host)
    (carried : Carried config hand id termId host) (few : hand.ovs.length ≤ 8)
    (begun : (host.connections termId).pDisconnectCont ≠ none)
    (alone : mode.loose = false → ∀ {ov job}, host.Pends ov job →
      mode.key job ≠ some (.discon termId)) (hr : HRESULT) (arena : ℕ) (pReceiver : Option ℕ) :
    Ensures (do
      let ov ← getObj (.onDisconNotified termId) arena pReceiver
      finishCall ov hr (onDisconNotified termId))
      (fun _ after => HostOk config mode listeners hand after ∧ after.sockTbl = host.sockTbl ∧
        after.connections = host.connections ∧ after.notified = host.notified)
      (mode.Tolerates config) host := by
  refine (getObj_ensures ok few pReceiver).bind ?_
  rintro ov _ ⟨took, next, takenOk⟩
  refine ensures_call took next takenOk ?_
  clear took next takenOk
  intro taken took next takenOk
  have begunNow : (taken.connections termId).pDisconnectCont ≠ none := by
    rwa [took.connections]
  refine ⟨?_, ?_⟩
  · intro _
    refine (onDisconNotified_ensures fun _ => begunNow).bind ?_
    rintro _ _ ⟨posts, rfl⟩
    refine (freeObj_ensures (takenOk.posts posts) rfl).mono ?_ fun _ stops => stops
    rintro _ after ⟨took', _, done⟩
    exact ⟨done, took'.sockTbl.trans took.sockTbl, took'.connections.trans took.connections,
      took'.notified.trans took.notified⟩
  · intro _
    have runs : (taken.overlaps ov).job? = some (.onDisconNotified termId) := by
      rw [next]
      rfl
    refine ⟨takenOk.pend rfl runs ?_ ?_ nofun nofun nofun rfl ?_, took.sockTbl,
      took.connections, took.notified⟩
    · refine ⟨carried.inRange, fun _ => ⟨begunNow, ?_⟩⟩
      intro id' settled term
      exact absurd term (takenOk.slots.notInHand carried.term settled)
    · intro ov' job' outstanding keyed same
      cases loose : mode.loose with
      | true => simp [Mode.key, loose] at keyed
      | false =>
          refine alone loose (took.pends.mp outstanding) (same.trans ?_)
          simp [Mode.key, loose]
    · exact fun _ _ registers => absurd rfl registers

/-- The notifier of the terminal in hand is called with the handle of the socket in hand. -/
theorem notify_ensures (ok : HostOk config mode listeners hand host)
    (carried : Carried config hand id termId host) {notifier : ConnectionNotifier}
    (func : (host.connections termId).pConnFunc = some notifier)
    (quiet : mode.closers = false → ∀ entry ∈ host.notified, entry.notifier.call ≠ notifier.call)
    (err : StatusCode) {fault : Stop → Prop} :
    Ensures (notify notifier (host.connections termId).handle err)
      (fun _ after => HostOk config mode listeners hand after ∧ ∃ delivered,
        after = { host with
          notified := host.notified ++ [⟨notifier, (host.connections termId).handle, err⟩]
          delivered })
      fault host := by
  have sockId := (ok.slots.sockInHand id carried.sock).1
  have handle : (host.connections termId).handle = handleOf id (host.frees id) := by
    rw [carried.owns.handle, ok.slots.handles id sockId]
  have lower : handleToId (host.connections termId).handle = id := by
    rw [carried.owns.handle]
    exact handleToId_sock ok sockId
  have notified : HostOk config mode listeners hand { host with
      notified := host.notified ++ [⟨notifier, (host.connections termId).handle, err⟩] } := by
    refine ok.notify carried.inRange func ?_ quiet
    intro id' settled attempting
    have fits := ok.slots.sockets id' settled
    exact ⟨(fits.attempts attempting).term, ok.slots.notInHand carried.term settled⟩
  have delivered := notified.deliver (by rw [lower]; exact sockId) (by rw [lower]; exact handle)
  exact .of_eq rfl ⟨delivered, _, rfl⟩

/-- A connection has been agreed on, and its notifier has not been called. -/
structure Agreed (config : HostConfig) (mode : Mode) (listeners : List ℕ) (hand : Hand)
    (id termId : ℕ) (host : Host queue) : Prop where
  ok : HostOk config mode listeners { hand with sock := some id, term := some termId } host
  carried : Carried config { hand with sock := some id, term := some termId } id termId host
  state : (host.sockTbl id).state = .connAgreed
  begun : (host.connections termId).pDisconnectCont ≠ none
  mem : (host.connections termId).pMemRegion ≠ none
  quiet : ∀ notifier, (host.connections termId).pConnFunc = some notifier →
    ∀ entry ∈ host.notified, entry.notifier.call ≠ notifier.call

/-- The peer's address is recorded in the terminal. -/
theorem Agreed.setPeer (agreed : Agreed config mode listeners hand id termId host) (ip : UInt32)
    (port : UInt16) :
    Agreed config mode listeners hand id termId { host with
      connections := Function.update host.connections termId
        { host.connections termId with rmtIpAddr := ip, rmtPort := port } } where
  ok := agreed.ok.setTerminal rfl rfl rfl (fun _ func => func) (.of_same rfl)
    ((agreed.ok.listens.terminalApart agreed.carried.inRange).of_holds
      fun _ holds => .inl holds)
  carried := agreed.carried.setTerminal ⟨rfl, rfl, rfl, rfl, rfl, rfl, rfl⟩
  state := agreed.state
  begun := by simpa using agreed.begun
  mem := by simpa using agreed.mem
  quiet := by simpa using agreed.quiet

theorem Agreed.setPort (agreed : Agreed config mode listeners hand id termId host)
    (port : UInt16) :
    Agreed config mode listeners hand id termId { host with
      sockTbl := Function.update host.sockTbl id { host.sockTbl id with port } } where
  ok := agreed.ok.setSocket rfl rfl
  carried := agreed.carried.setSocket rfl rfl rfl
  state := by simpa using agreed.state
  begun := agreed.begun
  mem := agreed.mem
  quiet := agreed.quiet

theorem Agreed.move (agreed : Agreed config mode listeners hand id termId host)
    {after : Host queue}
    (ok : HostOk config mode listeners { hand with sock := some id, term := some termId } after)
    (sockTbl : after.sockTbl = host.sockTbl) (connections : after.connections = host.connections)
    (notified : after.notified = host.notified) :
    Agreed config mode listeners hand id termId after where
  ok := ok
  carried := agreed.carried.move sockTbl
    (by rw [connections]; exact ⟨rfl, rfl, rfl, rfl, rfl, rfl, rfl⟩)
  state := by rw [sockTbl]; exact agreed.state
  begun := by rw [connections]; exact agreed.begun
  mem := by rw [connections]; exact agreed.mem
  quiet := by rw [connections, notified]; exact agreed.quiet

theorem Agreed.final (agreed : Agreed config mode listeners hand id termId host)
    (sockEmpty : hand.sock = none) (termEmpty : hand.term = none) :
    Ensures (onConnAcceptedFinal config id err arena)
      (fun _ after => HostOk config mode listeners hand after) (mode.Tolerates config) host := by
  have stowable : Stowable config mode _ host id :=
    agreed.carried.stowAgreed (.inl agreed.state) agreed.begun agreed.mem
  have done := agreed.ok.putDown stowable agreed.carried.owns.listen
  rw [hand.putDown sockEmpty termEmpty] at done
  refine (onConnAcceptedFinal_ensures ?_).mono ?_ fun _ stops => stops
  · intro _
    rw [agreed.carried.owned]
    exact ⟨agreed.carried.inRange, agreed.begun⟩
  · rintro _ _ ⟨posts, retired, events, rfl⟩
    exact { done with }

/-- The client is told of the connection. -/
theorem Agreed.connect (agreed : Agreed config mode listeners hand id termId host)
    (sockEmpty : hand.sock = none) (termEmpty : hand.term = none) :
    Ensures (do
      modifySocket id fun sock => { sock with state := .connected }
      let host ← get
      let notifier ← derefPtr (host.connections termId).pConnFunc "m_pConnFunc"
      notify notifier (host.connections termId).handle hOk
      retire arena)
      (fun _ after => HostOk config mode listeners hand after) (mode.Tolerates config) host := by
  have connected : HostOk config mode listeners { hand with sock := some id, term := some termId }
      { host with
        sockTbl := Function.update host.sockTbl id
          { host.sockTbl id with state := .connected } } := agreed.ok.setSocket rfl rfl
  have carried : Carried config { hand with sock := some id, term := some termId } id termId
      { host with
        sockTbl := Function.update host.sockTbl id
          { host.sockTbl id with state := .connected } } :=
    agreed.carried.setSocket rfl rfl rfl
  refine .step rfl (.step rfl ?_)
  refine ensures_derefPtr (fun none => absurd none agreed.carried.owns.pConnFunc) ?_
  intro notifier func
  refine (notify_ensures connected carried func (fun _ => agreed.quiet notifier func) hOk).bind ?_
  rintro _ _ ⟨notified, delivered, rfl⟩
  have retired := notified.retired arena
  have done := retired.putDown (Carried.stowAgreed
    (carried.move rfl ⟨rfl, rfl, rfl, rfl, rfl, rfl, rfl⟩) (.inr (by simp)) agreed.begun agreed.mem)
    carried.owns.listen
  rw [hand.putDown sockEmpty termEmpty] at done
  exact .of_eq rfl done

/-- `OnConnAccepted`: the connection is there, or its terminal is told to close. -/
theorem onConnAccepted_ensures (ok : HostOk config mode listeners hand host)
    (sockEmpty : hand.sock = none) (termEmpty : hand.term = none) (few : hand.ovs.length ≤ 8)
    (sockId : config.SockId id)
    (ready : mode.loose = false →
      ((host.sockTbl id).state = .accept1 ∨ (host.sockTbl id).state = .connAck) ∧
        (host.connections (host.sockTbl id).term).pDisconnectCont ≠ none)
    (alone : mode.loose = false → ∀ {ov job}, host.Pends ov job →
      mode.key job ≠ some (.attempt id)) (hr : HRESULT) (arena : ℕ) :
    Ensures (onConnAccepted config id hr arena replies)
      (fun _ after => HostOk config mode listeners hand after) (mode.Tolerates config) host := by
  have settled := Hand.Settled.of_none sockId sockEmpty
  have fits := ok.slots.sockets id settled
  by_cases begun : (host.connections (host.sockTbl id).term).pDisconnectCont = none
  · have loose : mode.loose = true := by
      by_contra tight
      exact (ready (by simpa using tight)).2 begun
    exact (onConnAccepted_stops loose hr begun).mono (fun _ _ never => never.elim)
      fun _ stops => stops
  unfold onConnAccepted
  by_cases bad : hr ≠ hOk
  · rw [if_pos bad]
    refine (onConnAcceptedFinal_ensures ?_).mono ?_ fun _ stops => stops
    · intro tight
      rcases ready tight with ⟨state, begun⟩
      refine ⟨(fits.attempts ?_).term, begun⟩
      rcases state with state | state <;> rw [state, SocketState.attempting]
    · rintro _ _ ⟨posts, retired, events, rfl⟩
      exact { ok with }
  rw [if_neg bad]
  refine .step apply_get (ensures_audit ?_ fun state => ?_)
  · intro other
    have loose : mode.loose = true := by
      by_contra tight
      exact other (ready (by simpa using tight)).1
    exact Mode.tolerates_loose loose (by decide)
  have attempting : (host.sockTbl id).state.attempting = true := by
    rcases state with state | state <;> rw [state, SocketState.attempting]
  have owns := fits.attempts attempting
  have idle : ∀ {ov job}, host.Pends ov job → mode.key job ≠ some (.attempt id) := by
    intro ov job outstanding key
    cases loose : mode.loose with
    | false => exact alone loose outstanding key
    | true =>
        have waits : mode.loose = false → job ≠ .onAccepted id := by simp [loose]
        rcases (ok.jobs.ready outstanding).unstarted waits key with connecting | unstarted
        · rcases state with state | state
          all_goals
            rw [state] at connecting
            cases connecting
        · exact begun unstarted
  rcases ok.pickOwner sockEmpty termEmpty sockId owns.term.ne idle with ⟨picked, carried⟩
  generalize own : (host.sockTbl id).term = termId at *
  have inRange := carried.inRange
  have mem : (host.connections termId).pMemRegion ≠ none :=
    ok.regions.started inRange (by simp [termEmpty]) begun
  have agreed : Agreed config mode listeners hand id termId
      { host with
        sockTbl := Function.update host.sockTbl id
          { host.sockTbl id with state := .connAgreed } } :=
    { ok := picked.setSocket rfl rfl
      carried := carried.setSocket rfl rfl rfl
      state := by simp
      begun
      mem
      quiet := fun notifier func => ok.log.quiet settled attempting (by rwa [own]) }
  have alone' : mode.loose = false → ∀ {ov job}, host.Pends ov job →
      mode.key job ≠ some (.discon termId) := by
    intro loose ov job outstanding key
    have ended := (ok.jobs.ready outstanding).ended loose key settled own
    rw [attempting] at ended
    cases ended
  refine .step rfl (ensures_getTerminal inRange ?_)
  refine ensures_derefPtr (fun none => absurd none carried.owns.pConnector) fun connector _ => ?_
  by_cases noPeer : replies.peerAddress ≠ hOk
  · rw [if_pos noPeer]
    exact agreed.final sockEmpty termEmpty
  rw [if_neg noPeer]
  refine .step rfl ?_
  by_cases noLocal : replies.localAddress ≠ hOk
  · rw [if_pos noLocal]
    exact (agreed.setPeer _ _).final sockEmpty termEmpty
  rw [if_neg noLocal]
  refine .step rfl (ensures_audit (fun _ => .inl (by decide)) fun _ => ?_)
  refine ensures_derefPtr (fun none => absurd none begun) fun continuation _ => ?_
  have ready := (agreed.setPeer replies.peerIp replies.peerPort).setPort replies.localPort
  have called := notifyDisconnect_ensures ready.ok ready.carried few ready.begun alone'
    replies.notifyDisconnect continuation (some connector)
  refine ensures_bind.mpr ((ensures_bind.mp called).mono ?_ fun _ stops => stops)
  intro ov _ called
  refine called.bind ?_
  rintro _ after ⟨afterOk, sockTbl, connections, notified⟩
  have now := ready.move afterOk sockTbl connections notified
  exact .step apply_get (.step (audit_eq now.state) (now.connect sockEmpty termEmpty))

/-- A started terminal whose connection is to be accepted, in hand with its socket. -/
structure Starting (config : HostConfig) (mode : Mode) (listeners : List ℕ) (hand : Hand)
    (id termId : ℕ) (host : Host queue) : Prop where
  ok : HostOk config mode listeners { hand with sock := some id, term := some termId } host
  carried : Carried config { hand with sock := some id, term := some termId } id termId host
  state : (host.sockTbl id).state = .accept1 ∨ (host.sockTbl id).state = .connAck
  begun : (host.connections termId).pDisconnectCont ≠ none
  mem : (host.connections termId).pMemRegion ≠ none
  quiet : ∀ notifier, (host.connections termId).pConnFunc = some notifier →
    ∀ entry ∈ host.notified, entry.notifier.call ≠ notifier.call
  noDiscon : mode.loose = false → ∀ ov, ¬host.Pends ov (.onDisconNotified termId)

theorem Starting.stowable (starting : Starting config mode listeners hand id termId host) :
    Stowable config mode { hand with sock := some id, term := some termId } host id := by
  have owned := starting.carried.owned
  constructor
  case inHand => rfl
  case fits =>
    rw [owned]
    rcases starting.state with state | state
    all_goals simp only [SocketOk, state]
    · exact starting.carried.owns
    · exact ⟨starting.carried.owns, starting.begun⟩
  case active =>
    rcases starting.state with state | state
    all_goals
      rw [state]
      simp
  case term => exact .inr (by rw [owned])
  case noDiscon =>
    rw [owned]
    exact fun tight _ => starting.noDiscon tight
  case secret =>
    rw [owned]
    exact fun _ none => absurd none starting.begun
  case connecting =>
    rw [owned]
    exact fun _ => starting.mem
  case started =>
    rw [owned]
    exact fun _ _ => starting.mem
  case quiet =>
    rw [owned]
    exact fun _ => starting.quiet

theorem Starting.events (starting : Starting config mode listeners hand id termId host)
    (events : List ArenaEvent) :
    Starting config mode listeners hand id termId { host with events } where
  ok := starting.ok.events events
  carried := ⟨rfl, rfl, starting.carried.owned, starting.carried.owns⟩
  state := starting.state
  begun := starting.begun
  mem := starting.mem
  quiet := starting.quiet
  noDiscon := starting.noDiscon

/-- The provider is asked to go on with the connection. -/
theorem Starting.finish (starting : Starting config mode listeners hand id termId host)
    (sockEmpty : hand.sock = none) (termEmpty : hand.term = none) (few : hand.ovs.length ≤ 7)
    (hr : HRESULT) (arena : ℕ) (pReceiver : Option ℕ) :
    Ensures (do
      let ov ← getObj (.onAccepted id) arena pReceiver
      finishCall ov hr (onConnAccepted config id hr arena replies))
      (fun _ after => HostOk config mode listeners hand after) (mode.Tolerates config) host := by
  have inRange := starting.carried.inRange
  have owned := starting.carried.owned
  have sockId := (starting.ok.slots.sockInHand id rfl).1
  refine (getObj_ensures starting.ok (Nat.le_succ_of_le few) pReceiver).bind ?_
  rintro ov _ ⟨took, next, takenOk⟩
  refine ensures_call took next takenOk ?_
  clear took next takenOk
  intro taken took next takenOk
  have connections := took.connections
  have sockTbl := took.sockTbl
  have now : Starting config mode listeners { hand with ovs := ov :: hand.ovs } id termId taken :=
    { ok := takenOk
      carried := ⟨rfl, rfl, by rw [sockTbl, owned], by
        rw [sockTbl, connections]
        exact starting.carried.owns⟩
      state := by rw [sockTbl]; exact starting.state
      begun := by rw [connections]; exact starting.begun
      mem := by rw [connections]; exact starting.mem
      quiet := by rw [connections, took.notified]; exact starting.quiet
      noDiscon := fun tight ov' outstanding =>
        starting.noDiscon tight ov' (took.pends.mp outstanding) }
  have down := takenOk.putDown now.stowable now.carried.owns.listen
  have sameHand := Hand.putDown { hand with ovs := ov :: hand.ovs } sockEmpty termEmpty
  dsimp only at sameHand down
  rw [sameHand] at down
  have alone : ∀ {ov job}, taken.Pends ov job → mode.key job ≠ some (.attempt id) :=
    fun outstanding => takenOk.jobs.noAttempt rfl outstanding
  have begun : (taken.connections (taken.sockTbl id).term).pDisconnectCont ≠ none := by
    rw [now.carried.owned]
    exact now.begun
  refine ⟨?_, ?_⟩
  · intro _
    refine (onConnAccepted_ensures down sockEmpty termEmpty (Nat.succ_le_succ few) sockId
      (fun _ => ⟨now.state, begun⟩) (fun _ => alone) hr arena).bind ?_
    intro _ after afterOk
    exact (freeObj_ensures afterOk rfl).mono (fun _ _ freed => freed.2.2) fun _ stops => stops
  · intro _
    have runs : (taken.overlaps ov).job? = some (.onAccepted id) := by
      rw [next]
      rfl
    refine down.pend rfl runs ⟨sockId, fun _ => ⟨.of_none sockId sockEmpty, now.state, begun⟩⟩ ?_
      nofun nofun nofun rfl ?_
    · intro ov' job' outstanding keyed same
      cases loose : mode.loose with
      | true => simp [Mode.key, loose] at keyed
      | false =>
          refine alone outstanding (same.trans ?_)
          simp [Mode.key, loose]
    · exact fun _ _ registers => absurd rfl registers

end Accepted

section Attempts

/-- A socket whose attempt has not started its terminal, in hand with the terminal. -/
structure Attempting (config : HostConfig) (mode : Mode) (listeners : List ℕ) (hand : Hand)
    (id termId : ℕ) (host : Host queue) : Prop where
  ok : HostOk config mode listeners { hand with sock := some id, term := some termId } host
  carried : Carried config { hand with sock := some id, term := some termId } id termId host
  idle : (host.connections termId).pDisconnectCont = none
  quiet : ∀ notifier, (host.connections termId).pConnFunc = some notifier →
    ∀ entry ∈ host.notified, entry.notifier.call ≠ notifier.call

theorem Attempting.noDiscon (attempt : Attempting config mode listeners hand id termId host)
    (tight : mode.loose = false) (ov : ℕ) :
    ¬host.Pends ov (.onDisconNotified termId) := by
  intro outstanding
  refine (attempt.ok.jobs.notStarted attempt.idle outstanding).2 ?_
  simp [Mode.key, tight]

theorem Attempting.events (attempt : Attempting config mode listeners hand id termId host)
    (events : List ArenaEvent) :
    Attempting config mode listeners hand id termId { host with events } where
  ok := attempt.ok.events events
  carried := ⟨rfl, rfl, attempt.carried.owned, attempt.carried.owns⟩
  idle := attempt.idle
  quiet := attempt.quiet

/-- What is left of an attempt that failed: its socket and its terminal are in their pools, and its
notifier has been called with the failure. -/
structure Dropped (id termId : ℕ) (err : StatusCode) (before after : Host queue) : Prop where
  sockItems : queue.items after.sockPool = queue.items before.sockPool ++ [id]
  connItems : queue.items after.connPool = queue.items before.connPool ++ [termId]
  state : (after.sockTbl id).state = .inpool
  notified : ∃ notifier, (before.connections termId).pConnFunc = some notifier ∧
    after.notified = before.notified ++ [⟨notifier, (before.sockTbl id).handle, err⟩]

/-- What `FreeSocket` changes, for a socket that is first parted from its terminal. -/
structure SockFreed (id : ℕ) (before after : Host queue) : Prop where
  same : after = { before with
    sockTbl := after.sockTbl
    frees := after.frees
    sockPool := after.sockPool }
  added : queue.add before.sockPool id = some after.sockPool
  sockTbl : after.sockTbl = Function.update before.sockTbl id
    { before.sockTbl id with
      state := .inpool
      handle := (before.sockTbl id).handle + 0x100000000
      term := invalidTermId }

theorem freeOwner_ensures (ok : HostOk config mode listeners hand host)
    (inHand : hand.sock = some id) (active : (host.sockTbl id).state ≠ .inpool)
    (noListen : (host.sockTbl id).pListen = none) (fault : Stop → Prop) :
    Ensures (freeSocket id)
      (fun _ after => HostOk config mode listeners { hand with sock := none } after ∧
        SockFreed id host after)
      fault
      { host with
        sockTbl := Function.update host.sockTbl id
          { host.sockTbl id with term := invalidTermId } } := by
  have unowned : HostOk config mode listeners hand
      { host with
        sockTbl := Function.update host.sockTbl id
          { host.sockTbl id with term := invalidTermId } } :=
    ok.setSocket inHand rfl
  rcases freeSocket_eq unowned inHand (by simpa using active) (by simp) (by simpa using noListen)
    with ⟨sockPool, added, returned, done⟩
  refine .of_eq returned ⟨done, rfl, added, ?_⟩
  simp

/-- An attempt to accept a connection whose terminal was not started ends cleanly. -/
theorem processConnReqFinal_ensures (attempt : Attempting config mode listeners hand id termId host)
    (sockEmpty : hand.sock = none) (termEmpty : hand.term = none)
    (state : (host.sockTbl id).state = .accept1)
    (secret : (host.connections termId).Secret host.disclosed) {fault : Stop → Prop} :
    Ensures (processConnReqFinal config id err arena)
      (fun _ after => HostOk config mode listeners hand after ∧ Dropped id termId err host after)
      fault host := by
  have ok := attempt.ok
  have owns := attempt.carried.owns
  have owned := attempt.carried.owned
  have sockId := (ok.slots.sockInHand id rfl).1
  rcases Option.ne_none_iff_exists'.mp owns.pConnFunc with ⟨notifier, func⟩
  unfold processConnReqFinal
  refine .step apply_get ?_
  rw [owned]
  refine ensures_getTerminal attempt.carried.inRange ?_
  rw [attempt.idle, func]
  refine (notify_ensures ok attempt.carried func
    (fun _ => attempt.quiet notifier func) err).bind ?_
  rintro _ _ ⟨notified, delivered, rfl⟩
  refine (freeTerminal_ensures notified rfl owns.edges (fun _ => ⟨owns.pQuePair, owns.pCQ⟩)
    (fun outstanding => notified.jobs.notStarted attempt.idle outstanding) secret).bind ?_
  rintro _ freedHost ⟨freed, freedOk⟩
  have sockTbl : freedHost.sockTbl = host.sockTbl := by rw [freed.same]
  have freeing := freeOwner_ensures freedOk rfl (by rw [sockTbl, state]; exact nofun)
    (by rw [sockTbl]; exact owns.listen) fault
  rw [handleToId_sock ok sockId]
  refine .step rfl (freeing.bind ?_)
  rintro _ after ⟨afterOk, sockFreed⟩
  refine .of_eq rfl ⟨?_, ?_, ?_, ?_, ?_⟩
  · have finished := afterOk.retired arena
    rw [hand.putDown sockEmpty termEmpty] at finished
    exact finished
  · rw [(queue.items_of_add sockFreed.added).1, freed.same]
  · rw [sockFreed.same, (queue.items_of_add freed.added).1]
  · rw [sockFreed.sockTbl, Function.update_self]
  · refine ⟨notifier, func, ?_⟩
    rw [sockFreed.same, freed.same, ← owns.handle]

/-- The provider did not give the peer's hand shake. -/
def Replies.noHandShake (replies : Replies) : Prop :=
  replies.privateData ≠ hOk ∧ replies.privateData ≠ ndBufferOverflow

/-- A failure before the terminal is started: the request failed, the library shuts down, or there
is no hand shake. -/
theorem processConnReq_fails (attempt : Attempting config mode listeners hand id termId host)
    (sockEmpty : hand.sock = none) (termEmpty : hand.term = none)
    (state : (host.sockTbl id).state = .accept1)
    (secret : (host.connections termId).Secret host.disclosed) {fault : Stop → Prop}
    (fails : hr ≠ hOk ∨ host.closing = true ∨ Replies.noHandShake replies) (arena : ℕ) :
    Ensures (processConnReq config id hr arena replies)
      (fun _ after => HostOk config mode listeners hand after ∧
        ∃ err, err ≠ hOk ∧ Dropped id termId err host after)
      fault host := by
  have final : ∀ {err}, err ≠ hOk → Ensures (processConnReqFinal config id err arena)
      (fun _ after => HostOk config mode listeners hand after ∧
        ∃ err, err ≠ hOk ∧ Dropped id termId err host after)
      fault host := by
    intro err bad
    exact (processConnReqFinal_ensures attempt sockEmpty termEmpty state secret).mono
      (fun _ _ done => ⟨done.1, err, bad, done.2⟩) fun _ stops => stops
  unfold processConnReq
  refine .step apply_get ?_
  by_cases bad : hr ≠ hOk
  · rw [if_pos bad]
    exact final bad
  rw [if_neg bad]
  by_cases closing : host.closing = true
  · rw [if_pos closing]
    exact final (by decide)
  rw [if_neg closing]
  have noHandShake : replies.privateData ≠ hOk ∧ replies.privateData ≠ ndBufferOverflow :=
    (fails.resolve_left bad).resolve_left closing
  refine .step (audit_eq state) ?_
  dsimp only
  rw [attempt.carried.owned]
  refine ensures_getTerminal attempt.carried.inRange (.step rfl ?_)
  refine ensures_derefPtr (fun none => absurd none attempt.carried.owns.pConnector) fun _ _ => ?_
  rw [if_pos noHandShake]
  have recorded := attempt.events (host.events ++ [.used arena])
  refine (processConnReqFinal_ensures recorded sockEmpty termEmpty state secret).mono ?_
    fun _ stops => stops
  rintro _ after ⟨afterOk, dropped⟩
  exact ⟨afterOk, _, noHandShake.1, { dropped with }⟩

/-- `ProcessConnReq`. -/
theorem processConnReq_ensures (attempt : Attempting config mode listeners hand id termId host)
    (sockEmpty : hand.sock = none) (termEmpty : hand.term = none) (few : hand.ovs.length ≤ 7)
    (state : (host.sockTbl id).state = .accept1)
    (secret : (host.connections termId).Secret host.disclosed) (hr : HRESULT) (arena : ℕ) :
    Ensures (processConnReq config id hr arena replies)
      (fun _ after => HostOk config mode listeners hand after) (mode.Tolerates config) host := by
  by_cases fails : hr ≠ hOk ∨ host.closing = true ∨ Replies.noHandShake replies
  · exact (processConnReq_fails attempt sockEmpty termEmpty state secret fails arena).mono
      (fun _ _ done => done.1) fun _ stops => stops
  rcases not_or.mp fails with ⟨bad, rest⟩
  rcases not_or.mp rest with ⟨closing, handShake⟩
  have handShake : ¬(replies.privateData ≠ hOk ∧ replies.privateData ≠ ndBufferOverflow) :=
    handShake
  have inRange := attempt.carried.inRange
  unfold processConnReq
  refine .step apply_get ?_
  rw [if_neg bad, if_neg closing]
  refine .step (audit_eq state) ?_
  dsimp only
  rw [attempt.carried.owned]
  refine ensures_getTerminal inRange (.step rfl ?_)
  refine ensures_derefPtr (fun none => absurd none attempt.carried.owns.pConnector)
    fun connector _ => ?_
  rw [if_neg handShake]
  refine ensures_audit (fun _ => .inl (by decide)) fun _ => ?_
  have recorded := attempt.ok.events (host.events ++ [.used arena])
  refine (startTerminal_ensures recorded rfl (Nat.le_succ_of_le few)
    (fun _ => attempt.idle) _).bind ?_
  rintro _ begun ⟨begunOk, started⟩
  refine (prepareHandShakeData_ensures begunOk rfl).bind ?_
  rintro _ prepared ⟨preparedOk, disclosed⟩
  have starting : Starting config mode listeners hand id termId prepared :=
    { ok := preparedOk
      carried := attempt.carried.move (disclosed.sockTbl.trans started.sockTbl)
        (started.owner.trans (.of_noRegions (disclosed.noRegions termId)))
      state := .inl (by rw [disclosed.sockTbl, started.sockTbl, state])
      begun := by
        have same := congrArg Terminal.pDisconnectCont (disclosed.noRegions termId)
        exact fun none => started.begun (same.symm.trans none)
      mem := disclosed.mem
      quiet := by
        have func := congrArg Terminal.pConnFunc (disclosed.noRegions termId)
        rw [disclosed.notified, started.notified]
        intro notifier same
        exact attempt.quiet notifier (started.owner.pConnFunc.symm.trans (func.symm.trans same))
      noDiscon := by
        intro tight ov outstanding
        rcases started.pends (disclosed.pends outstanding) with before | verb
        · exact attempt.noDiscon tight ov before
        · cases verb }
  exact .step rfl ((starting.events _).finish sockEmpty termEmpty few _ _ _)

/-- The handler of a connection request gives up its reference to the listener first. -/
theorem onConn_ensures {listener : ℕ} {refs : List ℕ} (held : hand.refs = listener :: refs)
    (attempt : Attempting config mode listeners hand id termId host)
    (sockEmpty : hand.sock = none) (termEmpty : hand.term = none) (few : hand.ovs.length ≤ 7)
    (state : (host.sockTbl id).state = .accept1)
    (secret : (host.connections termId).Secret host.disclosed) (hr : HRESULT) (arena : ℕ) :
    Ensures (onConn config id listener hr arena replies)
      (fun _ after => HostOk config mode listeners { hand with refs } after)
      (mode.Tolerates config) host := by
  have released : Attempting config mode listeners { hand with refs } id termId
      { host with refs := Function.update host.refs listener (host.refs listener - 1) } :=
    { ok := attempt.ok.releaseRef held
      carried := ⟨rfl, rfl, attempt.carried.owned, attempt.carried.owns⟩
      idle := attempt.idle
      quiet := attempt.quiet }
  unfold onConn
  exact .step rfl (processConnReq_ensures released sockEmpty termEmpty few state secret hr arena)

theorem onConn_fails {listener : ℕ} {refs : List ℕ} (held : hand.refs = listener :: refs)
    (attempt : Attempting config mode listeners hand id termId host)
    (sockEmpty : hand.sock = none) (termEmpty : hand.term = none)
    (state : (host.sockTbl id).state = .accept1)
    (secret : (host.connections termId).Secret host.disclosed) {fault : Stop → Prop}
    (fails : hr ≠ hOk ∨ host.closing = true ∨ Replies.noHandShake replies) (arena : ℕ) :
    Ensures (onConn config id listener hr arena replies)
      (fun _ after => HostOk config mode listeners { hand with refs } after ∧
        ∃ err, err ≠ hOk ∧ Dropped id termId err host after)
      fault host := by
  have released : Attempting config mode listeners { hand with refs } id termId
      { host with refs := Function.update host.refs listener (host.refs listener - 1) } :=
    { ok := attempt.ok.releaseRef held
      carried := ⟨rfl, rfl, attempt.carried.owned, attempt.carried.owns⟩
      idle := attempt.idle
      quiet := attempt.quiet }
  unfold onConn
  refine .step rfl ?_
  refine (processConnReq_fails released sockEmpty termEmpty state secret fails arena).mono ?_
    fun _ stops => stops
  rintro _ after ⟨ok, err, bad, dropped⟩
  exact ⟨ok, err, bad, { dropped with }⟩

/-- A connecting socket cannot be closed, so `CloseSocket` gives up. -/
theorem closeLoop_stops (rounds : ℕ)
    (state : (host.sockTbl id).state = .connecting ∨ (host.sockTbl id).state = .connAck) :
    closeLoop config id err rounds host =
      .error (.abort (.fail hUnexpected "Socket in transition state for too long: %d")) := by
  induction rounds with
  | zero => rfl
  | succ rounds ih =>
      rw [closeLoop, apply_bind apply_get,
        if_neg (by rcases state with state | state <;> simp [state])]
      have busy : tryCloseSocket config id err host = .ok (false, host) := by
        unfold tryCloseSocket
        rw [apply_bind apply_get]
        rcases state with state | state <;> simp only [state] <;> rfl
      rw [apply_bind busy]
      exact ih

/-- `OnConnAck` aborts the process when the connection could not be made. -/
theorem onConnAckCatch_stops (ok : HostOk config mode listeners hand host)
    (sockId : config.SockId id)
    (state : (host.sockTbl id).state = .connecting ∨ (host.sockTbl id).state = .connAck) :
    onConnAckCatch config id err host =
      .error (.abort (.fail hUnexpected "Socket in transition state for too long: %d")) := by
  have found : host.findSocket (host.sockTbl id).handle = some id := by
    rw [findSocket, handleToId_sock ok sockId, getSocket_eq ok sockId]
    exact if_pos rfl
  unfold onConnAckCatch closeSocket
  rw [apply_bind apply_get]
  apply apply_bind_error
  rw [apply_bind apply_get, found]
  exact closeLoop_stops _ state

/-- The socket of an attempt enters another state. -/
theorem Attempting.setState (attempt : Attempting config mode listeners hand id termId host)
    (state : SocketState) :
    Attempting config mode listeners hand id termId { host with
      sockTbl := Function.update host.sockTbl id { host.sockTbl id with state } } where
  ok := attempt.ok.setSocket rfl rfl
  carried := attempt.carried.setSocket rfl rfl rfl
  idle := attempt.idle
  quiet := attempt.quiet

/-- Every failure that `OnConnAck` sees aborts the process. -/
theorem onConnAck_fails (attempt : Attempting config mode listeners hand id termId host)
    (state : (host.sockTbl id).state = .connecting)
    (fails : hr ≠ hOk ∨ Replies.noHandShake replies) :
    onConnAck config id hr arena replies host =
      .error (.abort (.fail hUnexpected "Socket in transition state for too long: %d")) := by
  have owned := attempt.carried.owned
  subst owned
  have sockId := (attempt.ok.slots.sockInHand id rfl).1
  unfold onConnAck
  by_cases bad : hr ≠ hOk
  · rw [if_pos bad]
    exact onConnAckCatch_stops attempt.ok sockId (.inl state)
  have noHandShake : replies.privateData ≠ hOk ∧ replies.privateData ≠ ndBufferOverflow :=
    fails.resolve_left bad
  rcases Option.ne_none_iff_exists'.mp attempt.carried.owns.pConnector with ⟨connector, same⟩
  have inRange := attempt.carried.inRange
  rw [if_neg bad, apply_bind apply_get, apply_bind (audit_eq state), apply_bind rfl]
  dsimp only
  rw [apply_bind (getTerminal_eq inRange.1 inRange.2)]
  dsimp only
  rw [apply_bind rfl, same, apply_bind rfl, if_pos noHandShake]
  exact onConnAckCatch_stops ((attempt.setState .connAck).ok.events _) sockId (.inr (by simp))

/-- `OnConnAck`. -/
theorem onConnAck_ensures (attempt : Attempting config mode listeners hand id termId host)
    (sockEmpty : hand.sock = none) (termEmpty : hand.term = none) (few : hand.ovs.length ≤ 7)
    (state : (host.sockTbl id).state = .connecting)
    (mem : (host.connections termId).pMemRegion ≠ none) (hr : HRESULT) (arena : ℕ) :
    Ensures (onConnAck config id hr arena replies)
      (fun _ after => HostOk config mode listeners hand after) (mode.Tolerates config) host := by
  by_cases fails : hr ≠ hOk ∨ Replies.noHandShake replies
  · rw [Ensures, onConnAck_fails attempt state fails]
    show "Socket in transition state for too long: %d" ∈ expectedFails
    decide
  rcases not_or.mp fails with ⟨bad, handShake⟩
  have handShake : ¬(replies.privateData ≠ hOk ∧ replies.privateData ≠ ndBufferOverflow) :=
    handShake
  have owned := attempt.carried.owned
  subst owned
  have acked := attempt.setState .connAck
  unfold onConnAck
  rw [if_neg bad]
  refine .step apply_get (.step (audit_eq state) (.step rfl ?_))
  refine ensures_getTerminal attempt.carried.inRange (.step rfl ?_)
  refine ensures_derefPtr (fun none => absurd none attempt.carried.owns.pConnector)
    fun connector _ => ?_
  rw [if_neg handShake]
  refine ensures_audit (fun _ => .inl (by decide)) fun _ => ?_
  have recorded := acked.ok.events (host.events ++ [.used arena])
  refine (startTerminal_ensures recorded rfl (Nat.le_succ_of_le few)
    (fun _ => acked.idle) _).bind ?_
  rintro _ begun ⟨begunOk, started⟩
  have starting : Starting config mode listeners hand id (host.sockTbl id).term begun :=
    { ok := begunOk
      carried := acked.carried.move started.sockTbl started.owner
      state := .inr (by rw [started.sockTbl]; simp)
      begun := started.begun
      mem := by rw [started.mem]; exact mem
      quiet := by
        rw [started.notified, started.owner.pConnFunc]
        exact acked.quiet
      noDiscon := by
        intro tight ov outstanding
        rcases started.pends outstanding with before | verb
        · exact acked.noDiscon tight ov before
        · cases verb }
  exact starting.finish sockEmpty termEmpty few _ _ _

end Attempts

end Host

end Hermes
