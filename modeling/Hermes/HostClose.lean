import Hermes.HostListen

/-!
# Closing

What `CreateSocket`, `Send`, `CloseSocket` and the destructor do, and what
`TerminalCloser` is assumed to do.
-/

namespace Hermes

open Program

variable {queue : CircularQue ℕ} {config : HostConfig} {mode : Mode} {listeners : List ℕ}
  {hand : Hand} {host : Host queue} {id conId ov termId listener : ℕ} {job : AsyncJob} {arena : ℕ}
  {replies : Replies} {err : StatusCode} {hr : HRESULT} {handle : UInt64} {port : UInt16}

namespace Host

section Creating

/-- `CreateSocket`. -/
theorem createSocket_ensures (ok : HostOk config mode listeners {} host) :
    Ensures createSocket (fun _ after => HostOk config mode listeners {} after)
      (mode.Tolerates config) host := by
  unfold createSocket
  rw [ensures_bind, ensures_get]
  by_cases closing : host.closing = true
  · rw [if_pos closing]
    exact ok
  rw [if_neg closing]
  refine (allocateSocket_ensures ok rfl).bind ?_
  rintro result after (⟨_, rfl, rfl⟩ |
    ⟨id, sockPool, rfl, taken, sockId, inpool, term, noListen, rfl, takenOk⟩)
  · exact ok
  have down := takenOk.putDown (stowDisconnected rfl rfl (by simp) (by simpa using term)
    (by simpa using noListen)) (by simpa using noListen)
  have lower := handleToId_sock down sockId
  have same := down.slots.handles id sockId
  exact .step rfl
    (.of_eq rfl (down.deliver (by rw [lower]; exact sockId) (by rw [lower]; exact same)))

theorem sendLocked_fst (terminal : Terminal) (req : SndReq) :
    (terminal.sendLocked req).1 =
      { terminal with sndQue := req :: terminal.sndQue, sndRunning := true } := by
  cases running : terminal.sndRunning with
  | false => rw [Terminal.sendLocked_idle running]
  | true =>
      rw [Terminal.sendLocked_running running]
      cases terminal
      cases running
      rfl

/-- `Send` queues the request with the connected socket's terminal. -/
theorem send_ensures (ok : HostOk config mode listeners {} host) (req : SndReq) :
    Ensures (send config handle req) (fun _ after => HostOk config mode listeners {} after)
      (mode.Tolerates config) host := by
  unfold send
  by_cases large : req.buf.size > maxMsgSize
  · rw [if_pos large]
    exact ok
  rw [if_neg large, ensures_bind, ensures_get]
  cases found : host.findSocket handle with
  | none => exact ok
  | some pSock =>
      rcases findSocket_some ok found with ⟨sockId, _, same⟩
      dsimp only
      by_cases busy : host.closing = true ∨ (host.sockTbl pSock).state ≠ .connected
      · rw [if_pos busy]
        exact ok
      rw [if_neg busy]
      have state := not_not.mp (not_or.mp busy).2
      by_cases refused : ¬sendAdmits req.buf = true
      · rw [if_pos refused]
        exact ok
      rw [if_neg refused]
      have fits := ok.slots.sockets pSock (.of_none sockId rfl)
      simp only [SocketOk, state] at fits
      rcases fits with ⟨owns, begun⟩
      rcases ok.pickOwner rfl rfl sockId owns.term.ne (noAttempt_of_state ok (by rw [state]; rfl))
        with ⟨picked, carried⟩
      have mem : (host.connections (host.sockTbl pSock).term).pMemRegion ≠ none :=
        ok.regions.started owns.term (by simp) begun
      have inRange := owns.term
      refine ensures_getTerminal inRange
        (.step (audit_eq (by rw [owns.handle, same])) (.step rfl ?_))
      simp only [sendLocked_fst]
      have queued : HostOk config mode listeners
          { sock := some pSock, term := some (host.sockTbl pSock).term } { host with
            connections := Function.update host.connections (host.sockTbl pSock).term
              { host.connections (host.sockTbl pSock).term with
                sndQue := req :: (host.connections (host.sockTbl pSock).term).sndQue
                sndRunning := true } } := by
        refine picked.setTerminal rfl rfl rfl (fun _ func => func) (.of_same rfl) ?_
        exact (ok.listens.terminalApart inRange).of_holds fun _ holds => .inl holds
      have carriedNow : Carried config
          { sock := some pSock, term := some (host.sockTbl pSock).term } pSock
          (host.sockTbl pSock).term { host with
            connections := Function.update host.connections (host.sockTbl pSock).term
              { host.connections (host.sockTbl pSock).term with
                sndQue := req :: (host.connections (host.sockTbl pSock).term).sndQue
                sndRunning := true } } :=
        carried.setTerminal ⟨rfl, rfl, rfl, rfl, rfl, rfl, rfl⟩
      exact queued.putDown (carriedNow.stowAgreed (.inr state) (by simpa using begun)
        (by simpa using mem)) owns.listen

end Creating

section Closing

/-- The overlapped objects, and which of them are with the provider. -/
def operations (host : Host queue) := (host.pending, host.overlaps, host.overlapPool)

/-- A socket is closed: it goes back to its pool, and nothing else changes but its terminal. -/
structure Closed (id : ℕ) (before after : Host queue) : Prop where
  inpool : (after.sockTbl id).state = .inpool
  others : ∀ id', id' ≠ id → after.sockTbl id' = before.sockTbl id'
  connections : ∀ conId, conId ≠ (before.sockTbl id).term →
    after.connections conId = before.connections conId
  posts : after.posts = before.posts
  closing : after.closing = before.closing
  operations : after.operations = before.operations

/-- The socket itself, and references, may change before it is closed. -/
theorem Closed.of_change {before changed after : Host queue} (closed : Closed id changed after)
    (others : ∀ id', id' ≠ id → changed.sockTbl id' = before.sockTbl id')
    (term : (changed.sockTbl id).term = (before.sockTbl id).term)
    (same : changed = { before with sockTbl := changed.sockTbl, refs := changed.refs }) :
    Closed id before after where
  inpool := closed.inpool
  others id' other := (closed.others id' other).trans (others id' other)
  connections conId other := by
    rw [closed.connections conId (by rwa [term]), same]
  posts := by rw [closed.posts, same]
  closing := by rw [closed.closing, same]
  operations := by rw [closed.operations, same]; rfl

/-- A socket without a terminal is closed. -/
theorem closeUnowned_ensures (ok : HostOk config mode listeners { sock := some id } host)
    (active : (host.sockTbl id).state ≠ .inpool) (term : (host.sockTbl id).term = invalidTermId)
    (noListen : (host.sockTbl id).pListen = none) {fault : Stop → Prop} :
    Ensures (do
      freeSocket id
      return true)
      (fun _ after => HostOk config mode listeners {} after ∧ Closed id host after) fault host := by
  rcases freeSocket_eq ok rfl active term noListen with ⟨sockPool, _, returned, done⟩
  refine .step returned ⟨done, ?_⟩
  constructor
  case inpool => simp
  case others => exact fun id' other => Function.update_of_ne other _ _
  case connections => exact fun _ _ => rfl
  case posts | closing | operations => rfl

/-- `TryCloseSocket` closes a socket that has no terminal. -/
theorem closeIdle_ensures (ok : HostOk config mode listeners {} host) (sockId : config.SockId id)
    (idle : (host.sockTbl id).state = .disconnected ∨ (host.sockTbl id).state = .listening)
    {fault : Stop → Prop} :
    Ensures (tryCloseSocket config id err)
      (fun _ after => HostOk config mode listeners {} after ∧ Closed id host after) fault host := by
  have fits := ok.slots.sockets id (.of_none sockId rfl)
  have lower := handleToId_sock ok sockId
  unfold tryCloseSocket
  refine .step apply_get ?_
  dsimp only
  rw [lower]
  rcases idle with state | state
  · simp only [SocketOk, state] at fits
    rw [state]
    have picked : HostOk config mode listeners { sock := some id } host :=
      ok.pick rfl rfl sockId (by simp [state]) fits.2 (.inl ⟨rfl, fits.1⟩)
        (noAttempt_of_state ok (by rw [state]; rfl))
    have stopping : HostOk config mode listeners { sock := some id } { host with
        sockTbl := Function.update host.sockTbl id
          { host.sockTbl id with state := .stopping } } := picked.setSocket rfl rfl
    refine .step rfl ((closeUnowned_ensures stopping (by simp) (by simpa using fits.1)
      (by simpa using fits.2)).mono ?_ fun _ stops => stops)
    rintro _ after ⟨afterOk, closed⟩
    exact ⟨afterOk, closed.of_change (fun _ other => Function.update_of_ne other _ _)
      (by simp) rfl⟩
  · simp only [SocketOk, state] at fits
    rw [state]
    rcases Option.ne_none_iff_exists'.mp fits.2 with ⟨listener, holds⟩
    have grabbed : HostOk config mode listeners { sock := some id, refs := [listener] } host :=
      ok.grab rfl rfl sockId (by simp [state]) (.inl ⟨rfl, fits.1⟩)
        (noAttempt_of_state ok (by rw [state]; rfl))
        (ok.listens.map fun _ listens => ListenersOk.takeUp listens sockId holds)
    have stopping : HostOk config mode listeners { sock := some id, refs := [listener] } { host with
        sockTbl := Function.update host.sockTbl id
          { host.sockTbl id with pListen := none, state := .stopping, port := 0 } } :=
      grabbed.setSocket rfl rfl
    refine .step (audit_eq fits.2) (.step rfl ?_)
    rw [holds]
    refine .step rfl ?_
    refine (closeUnowned_ensures (stopping.releaseRef rfl) (by simp) (by simpa using fits.1)
      (by simp)).mono ?_ fun _ stops => stops
    rintro _ after ⟨afterOk, closed⟩
    exact ⟨afterOk, closed.of_change (fun _ other => Function.update_of_ne other _ _)
      (by simp) rfl⟩

/-- `TryCloseSocket`. -/
theorem tryCloseSocket_ensures (ok : HostOk config mode listeners {} host)
    (sockId : config.SockId id) :
    Ensures (tryCloseSocket config id err)
      (fun _ after => HostOk config mode listeners {} after) (mode.Tolerates config) host := by
  by_cases idle : (host.sockTbl id).state = .disconnected ∨ (host.sockTbl id).state = .listening
  · exact (closeIdle_ensures ok sockId idle).mono (fun _ _ done => done.1) fun _ stops => stops
  have fits := ok.slots.sockets id (.of_none sockId rfl)
  unfold tryCloseSocket
  refine .step apply_get ?_
  dsimp only
  cases state : (host.sockTbl id).state
  case disconnected => exact absurd (.inl state) idle
  case listening => exact absurd (.inr state) idle
  case connected =>
    simp only [SocketOk, state] at fits
    rcases fits with ⟨owns, begun⟩
    refine .step (audit_eq owns.term.ne) (ensures_getTerminal owns.term ?_)
    refine ensures_derefPtr (fun none => absurd none begun) fun continuation _ => ?_
    exact .step rfl (ok.posts _)
  all_goals exact ok

/-- The loop of `CloseSocket` ends with the socket closed, or gives up. -/
theorem closeLoop_ensures (sockId : config.SockId id) (rounds : ℕ) :
    ∀ {host : Host queue}, HostOk config mode listeners {} host →
      Ensures (closeLoop config id err rounds)
        (fun _ after => HostOk config mode listeners {} after) (mode.Tolerates config) host := by
  induction rounds with
  | zero => exact fun _ => ensures_fail (by decide)
  | succ rounds ih =>
      intro host ok
      rw [closeLoop]
      refine .step apply_get ?_
      by_cases closed : (host.sockTbl id).state = .inpool
      · rw [if_pos closed]
        exact ok
      rw [if_neg closed]
      refine (tryCloseSocket_ensures ok sockId).bind ?_
      intro done after afterOk
      cases done with
      | true => exact afterOk
      | false => exact ih afterOk

/-- `CloseSocket`. -/
theorem closeSocket_ensures (ok : HostOk config mode listeners {} host) :
    Ensures (closeSocket config handle err)
      (fun _ after => HostOk config mode listeners {} after) (mode.Tolerates config) host := by
  unfold closeSocket
  rw [ensures_bind, ensures_get]
  cases found : host.findSocket handle with
  | none => exact ok
  | some pSock => exact closeLoop_ensures (findSocket_some ok found).1 10000 ok

theorem destroySocket_ensures (ok : HostOk config mode listeners {} host)
    (sockId : config.SockId id) :
    Ensures (destroySocket config id)
      (fun _ after => HostOk config mode listeners {} after) (mode.Tolerates config) host := by
  unfold destroySocket
  refine .step apply_get ?_
  by_cases closed : (host.sockTbl id).state = .inpool
  · rw [if_pos closed]
    exact ok
  rw [if_neg closed]
  exact (tryCloseSocket_ensures ok sockId).bind fun _ _ afterOk => afterOk

/-- An object that is no listener is released, if there is one. -/
theorem releaseAny_ensures (ok : HostOk config mode listeners hand host) {pointer : Option ℕ}
    (apart : ∀ object, pointer = some object → object ∉ listeners)
    {fault : Stop → Prop} :
    Ensures (releaseAny pointer)
      (fun _ after => HostOk config mode listeners hand after ∧ ∃ refs, after = { host with refs })
      fault host := by
  cases pointer with
  | none => exact ⟨ok, host.refs, rfl⟩
  | some object =>
      refine .of_eq rfl ⟨ok.setRefs ?_, _, rfl⟩
      intro listener member
      apply Function.update_of_ne
      rintro rfl
      exact apart listener rfl member

/-- The notifier of a terminal in hand is called for each status. -/
theorem notifyEach_ensures (closers : mode.closers = true) {terminal : Terminal}
    {notifier : ConnectionNotifier} (func : terminal.pConnFunc = some notifier)
    (notices : List StatusCode) {fault : Stop → Prop} :
    ∀ {host : Host queue}, HostOk config mode listeners hand host →
      Carried config hand id termId host → host.connections termId = terminal →
        Ensures (notifyEach notifier terminal.handle notices)
          (fun _ after => HostOk config mode listeners hand after ∧ ∃ notified delivered,
            after = { host with notified, delivered })
          fault host := by
  induction notices with
  | nil => exact fun ok _ _ => ⟨ok, _, _, rfl⟩
  | cons err rest ih =>
      intro host ok carried same
      subst same
      rw [notifyEach]
      refine (notify_ensures ok carried func ?_ err).bind ?_
      · exact fun noClosers => absurd (closers.symm.trans noClosers) (by simp)
      rintro _ _ ⟨notified, delivered, rfl⟩
      refine (ih notified (carried.move rfl ⟨rfl, rfl, rfl, rfl, rfl, rfl, rfl⟩) rfl).mono ?_
        fun _ stops => stops
      rintro _ _ ⟨done, notified', delivered', rfl⟩
      exact ⟨done, notified', delivered', rfl⟩

/-- No operation is outstanding that the connection of the terminal has started. -/
def Finished (host : Host queue) (termId : ℕ) : Prop :=
  ∀ ov job, host.Pends ov job → job ≠ .onDisconNotified termId ∧
    ∀ id, job = .onAccepted id → (host.sockTbl id).term ≠ termId

/-- The terminal of a started connection is closed, and with it the socket. -/
theorem closeStarted_ensures (ok : HostOk config mode listeners {} host)
    (closers : mode.closers = true) (inRange : config.TermId termId)
    (begun : (host.connections termId).pDisconnectCont ≠ none)
    (finished : mode.patient = true → host.Finished termId) (notices : List StatusCode)
    {fault : Stop → Prop} :
    Ensures (closeTerminal config termId notices)
      (fun _ after => HostOk config mode listeners {} after ∧
        ∃ id, config.SockId id ∧ (host.sockTbl id).term = termId ∧ Closed id host after)
      fault host := by
  unfold closeTerminal
  refine ensures_getTerminal inRange ?_
  rw [if_neg begun]
  have outside : termId ∉ queue.items host.connPool := by
    intro member
    rw [← ok.slots.void termId member] at begun
    exact begun rfl
  rcases ok.slots.owner termId inRange outside (by simp) with ⟨id, settled, owned⟩
  subst owned
  have fits := ok.slots.sockets id settled
  have owner := inRange.ne
  have waits : mode.loose = false → host.Finished (host.sockTbl id).term := by
    intro tight
    exact finished (by simpa [Mode.loose, closers] using tight)
  have noAttempt : ∀ {ov job}, host.Pends ov job → mode.key job ≠ some (.attempt id) := by
    intro ov job outstanding key
    have accepted : mode.loose = false → job ≠ .onAccepted id :=
      fun tight same => (waits tight ov job outstanding).2 id same rfl
    rcases (ok.jobs.ready outstanding).unstarted accepted key with connecting | unstarted
    · simp only [SocketOk, connecting] at fits
      exact begun fits.2
    · exact begun unstarted
  have unused : ∀ {ov job}, host.Pends ov job →
      mode.key job ≠ some (.verb (host.sockTbl id).term) ∧
        mode.key job ≠ some (.discon (host.sockTbl id).term) := by
    intro ov job outstanding
    constructor
    · cases job <;> simp [Mode.key, closers]
    · intro key
      rcases Mode.key_discon key with ⟨tight, same⟩
      exact (waits tight ov job outstanding).1 same
  rcases ok.pickOwner rfl rfl settled.1 owner noAttempt with ⟨picked, carried⟩
  have owns := carried.owns
  have lower : handleToId (host.connections (host.sockTbl id).term).handle = id := by
    rw [owns.handle]
    exact handleToId_sock ok settled.1
  have apart : ∀ object, (host.connections (host.sockTbl id).term).Records object →
      object ∉ listeners := fun object records =>
    (ok.listens.terminalApart inRange object (.inr (.inr (.inr records)))).2
  rcases Option.ne_none_iff_exists'.mp owns.pConnFunc with ⟨notifier, func⟩
  rw [func, notifyAny]
  refine (notifyEach_ensures closers func notices picked carried rfl).bind ?_
  rintro _ _ ⟨told, notified, delivered, rfl⟩
  dsimp only
  rw [lower]
  refine (releaseAny_ensures told fun object same => apart object (.inr same)).bind ?_
  rintro _ _ ⟨released, refs, rfl⟩
  refine (releaseAny_ensures released fun object same => apart object (.inl same)).bind ?_
  rintro _ _ ⟨released, refs', rfl⟩
  have cleared := released.clearRegions closers rfl
  refine .step rfl ((freeTerminal_ensures cleared rfl ?_ ?_ unused ?_).bind ?_)
  · dsimp only
    rw [Function.update_self]
    exact owns.edges
  · dsimp only
    rw [Function.update_self]
    exact fun _ => ⟨owns.pQuePair, owns.pCQ⟩
  · dsimp only
    rw [Function.update_self]
    rintro region (tag | mem)
    · cases tag
    · cases mem
  rintro _ after ⟨freed, freedOk⟩
  have sockTbl : after.sockTbl = host.sockTbl := by rw [freed.same]
  have active : (host.sockTbl id).state ≠ .inpool := fun state => owner (fits.unowned state).1
  refine .step rfl ((freeOwner_ensures freedOk rfl (by rw [sockTbl]; exact active)
    (by rw [sockTbl]; exact owns.listen) fault).mono ?_ fun _ stops => stops)
  rintro _ last ⟨lastOk, freedSock⟩
  refine ⟨lastOk, id, settled.1, rfl, ?_⟩
  constructor
  case inpool => simp [freedSock.sockTbl]
  case others =>
    intro id' other
    rw [freedSock.sockTbl, Function.update_of_ne other, sockTbl]
  case connections =>
    intro conId other
    rw [freedSock.same, freed.same]
    simp [other]
  case posts => rw [freedSock.same, freed.same]
  case closing => rw [freedSock.same, freed.same]
  case operations => rw [freedSock.same, freed.same]; rfl

theorem closeTerminal_ensures (ok : HostOk config mode listeners {} host)
    (closers : mode.closers = true)
    (finished : mode.patient = true → config.TermId termId ∧ host.Finished termId)
    (notices : List StatusCode) :
    Ensures (closeTerminal config termId notices)
      (fun _ after => HostOk config mode listeners {} after) (mode.Tolerates config) host := by
  by_cases inRange : config.TermId termId
  · by_cases idle : (host.connections termId).pDisconnectCont = none
    · unfold closeTerminal
      refine ensures_getTerminal inRange ?_
      rw [if_pos idle]
      exact trivial
    · exact (closeStarted_ensures ok closers inRange idle (fun patient => (finished patient).2)
        notices).mono (fun _ _ done => done.1) fun _ stops => stops
  · unfold closeTerminal
    refine ensures_getTerminal_of (fun _ => ?_) fun inRange' => absurd inRange' inRange
    apply Mode.tolerates_loose ?_ (by decide)
    cases patient : mode.patient
    · simp [Mode.loose, closers, patient]
    · exact absurd (finished patient).1 inRange

end Closing

end Host

end Hermes
