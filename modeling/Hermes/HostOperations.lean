import Hermes.HostAttempt

/-!
# The operations

What `CreateSocket`, `Listen`, `Accept`, `Connect`, `Send` and `CloseSocket` do between
two steps of the library.  A call that fails leaves the tables as they were.
-/

namespace Hermes

open Program

variable {queue : CircularQue ℕ} {config : HostConfig} {mode : Mode} {listeners : List ℕ}
  {hand : Hand} {host : Host queue} {id conId ov termId : ℕ} {job : AsyncJob} {arena : ℕ}
  {replies : Replies} {err : StatusCode} {hr : HRESULT} {handle : UInt64}

namespace Host

section Undone

/-- A call has had no lasting effect on the tables and the pools. -/
structure Undone (before after : Host queue) : Prop where
  sockets : ∀ id, (after.sockTbl id).state = (before.sockTbl id).state ∧
    (after.sockTbl id).term = (before.sockTbl id).term ∧
      (after.sockTbl id).pListen = (before.sockTbl id).pListen
  handles : ∀ id, (after.sockTbl id).handle = (before.sockTbl id).handle ∨
    (before.sockTbl id).state = .inpool ∧
      (after.sockTbl id).handle = (before.sockTbl id).handle + 0x100000000
  once : ∀ id id', (after.sockTbl id).handle ≠ (before.sockTbl id).handle →
    (after.sockTbl id').handle ≠ (before.sockTbl id').handle → id = id'
  sockItems : (queue.items after.sockPool).Perm (queue.items before.sockPool)
  connItems : (queue.items after.connPool).Perm (queue.items before.connPool)
  terminals : ∀ conId, (after.connections conId).noRegions = (before.connections conId).noRegions

theorem Undone.refl (host : Host queue) : Undone host host where
  sockets _ := ⟨rfl, rfl, rfl⟩
  handles _ := .inl rfl
  once _ _ changed := absurd rfl changed
  sockItems := .refl _
  connItems := .refl _
  terminals _ := rfl

/-- The socket that `GetSocket` finds for a handle. -/
theorem findSocket_some (ok : HostOk config mode listeners hand host)
    (found : host.findSocket handle = some id) :
    config.SockId id ∧ id = handleToId handle ∧ (host.sockTbl id).handle = handle := by
  unfold findSocket at found
  cases slot : host.getSocket (handleToId handle) with
  | none =>
      rw [slot] at found
      cases found
  | some pSock =>
      rw [slot] at found
      rcases sockId_of_getSocket ok slot with ⟨same, sockId⟩
      dsimp only at found
      split at found
      case isTrue equal =>
        cases found
        rw [same] at equal ⊢
        exact ⟨sockId, rfl, equal⟩
      case isFalse => cases found

end Undone

/-- An `Accept` with this handle gets to its terminal. -/
def Accepts (host : Host queue) (handle : UInt64) : Prop :=
  ∃ pSock, host.findSocket handle = some pSock ∧ host.closing = false ∧
    (host.sockTbl pSock).state = .listening ∧ queue.items host.sockPool ≠ []

/-- A `Connect` with this handle gets to its terminal. -/
def Connects (host : Host queue) (handle : UInt64) : Prop :=
  ∃ pSock, host.findSocket handle = some pSock ∧ host.closing = false ∧
    (host.sockTbl pSock).state = .disconnected

section Accept

theorem Attempting.stowable (attempt : Attempting config mode listeners hand id termId host)
    (state : (host.sockTbl id).state = .accept1 ∧
        (host.connections termId).Secret host.disclosed ∨
      (host.sockTbl id).state = .connecting ∧ (host.connections termId).pMemRegion ≠ none) :
    Stowable config mode { hand with sock := some id, term := some termId } host id := by
  have owned := attempt.carried.owned
  constructor
  case inHand => rfl
  case fits =>
    rw [owned]
    rcases state with ⟨state, _⟩ | ⟨state, _⟩
    all_goals simp only [SocketOk, state]
    · exact attempt.carried.owns
    · exact ⟨attempt.carried.owns, attempt.idle⟩
  case active =>
    rcases state with ⟨state, _⟩ | ⟨state, _⟩
    all_goals
      rw [state]
      simp
  case term => exact .inr (by rw [owned])
  case noDiscon =>
    rw [owned]
    exact fun noClosers _ => attempt.noDiscon noClosers
  case secret =>
    rw [owned]
    intro accepting _
    rcases state with ⟨_, secret⟩ | ⟨state, _⟩
    · exact secret
    · rw [state] at accepting
      cases accepting
  case connecting =>
    rw [owned]
    intro connecting
    rcases state with ⟨state, _⟩ | ⟨_, mem⟩
    · rw [state] at connecting
      cases connecting
    · exact mem
  case started =>
    rw [owned]
    exact fun _ begun => absurd attempt.idle begun
  case quiet =>
    rw [owned]
    exact fun _ => attempt.quiet

theorem Attempting.took (attempt : Attempting config mode listeners hand id termId host)
    {taken : Host queue} (took : Took host taken)
    (ok : HostOk config mode listeners
      { hand with sock := some id, term := some termId, ovs := ov :: hand.ovs } taken) :
    Attempting config mode listeners { hand with ovs := ov :: hand.ovs } id termId taken where
  ok := ok
  carried := ⟨rfl, rfl, by rw [took.sockTbl, attempt.carried.owned], by
    rw [took.sockTbl, took.connections]
    exact attempt.carried.owns⟩
  idle := by rw [took.connections]; exact attempt.idle
  quiet := by rw [took.connections, took.notified]; exact attempt.quiet

theorem Attempting.newArena (attempt : Attempting config mode listeners hand id termId host) :
    Attempting config mode listeners hand id termId { host with arenas := host.arenas + 1 } where
  ok := attempt.ok.newArena
  carried := ⟨rfl, rfl, attempt.carried.owned, attempt.carried.owns⟩
  idle := attempt.idle
  quiet := attempt.quiet

/-- The attempt waits for a connection request at the listener. -/
theorem Attempting.await {listener : ℕ} {refs : List ℕ} (held : hand.refs = listener :: refs)
    (attempt : Attempting config mode listeners hand id termId host)
    (sockEmpty : hand.sock = none) (termEmpty : hand.term = none) (few : hand.ovs.length ≤ 6)
    (state : (host.sockTbl id).state = .accept1)
    (secret : (host.connections termId).Secret host.disclosed) (replies : Replies) (hr : HRESULT)
    (arena : ℕ) (pReceiver : Option ℕ) :
    Ensures (do
      let ov ← getObj (.onConn id listener) arena pReceiver
      finishCall ov hr (onConn config id listener hr arena replies))
      (fun _ after => HostOk config mode listeners { hand with refs } after ∧
        (hr ≠ ndPending → hr ≠ hOk ∨ host.closing = true ∨ Replies.noHandShake replies →
          ∃ err, err ≠ hOk ∧ Dropped id termId err host after))
      (mode.Tolerates config) host := by
  have sockId := (attempt.ok.slots.sockInHand id rfl).1
  have room : hand.ovs.length ≤ 8 := Nat.le_trans few (by decide)
  refine (getObj_ensures attempt.ok room pReceiver).bind ?_
  rintro ov _ ⟨took, next, takenOk⟩
  refine ensures_call took next takenOk ?_
  clear took next takenOk
  intro taken took next takenOk
  have now := attempt.took took takenOk
  have heldNow : Hand.refs { hand with ovs := ov :: hand.ovs } = listener :: refs := held
  have sockTbl := took.sockTbl
  have connections := took.connections
  have stateNow : (taken.sockTbl id).state = .accept1 := by rw [sockTbl, state]
  have secretNow : (taken.connections termId).Secret taken.disclosed := by
    rw [connections, took.disclosed]
    exact secret
  refine ⟨?_, ?_⟩
  · intro done
    by_cases fails : hr ≠ hOk ∨ taken.closing = true ∨ Replies.noHandShake replies
    · refine (onConn_fails heldNow now sockEmpty termEmpty stateNow secretNow fails arena).bind ?_
      rintro _ after ⟨afterOk, err, bad, dropped⟩
      refine (freeObj_ensures afterOk rfl).mono ?_ fun _ stops => stops
      rintro _ last ⟨took', _, lastOk⟩
      refine ⟨lastOk, fun _ _ => ⟨err, bad, ?_⟩⟩
      constructor
      · rw [took'.same, dropped.sockItems, took.same]
      · rw [took'.same, dropped.connItems, took.same]
      · rw [took'.sockTbl, dropped.state]
      · rw [took'.notified, ← took.notified, ← sockTbl, ← connections]
        exact dropped.notified
    · refine (onConn_ensures heldNow now sockEmpty termEmpty (Nat.succ_le_succ few) stateNow
        secretNow
        hr arena).bind ?_
      intro _ after afterOk
      refine (freeObj_ensures afterOk rfl).mono ?_ fun _ stops => stops
      rintro _ last ⟨_, _, lastOk⟩
      refine ⟨lastOk, fun _ failed => absurd ?_ fails⟩
      rwa [show taken.closing = host.closing by rw [took.same]]
  · intro waits
    have alone : ∀ {ov job}, taken.Pends ov job → mode.key job ≠ some (.attempt id) :=
      fun outstanding => takenOk.jobs.noAttempt rfl outstanding
    have down := takenOk.putDown (now.stowable (.inl ⟨stateNow, secretNow⟩)) now.carried.owns.listen
    have sameHand := Hand.putDown { hand with ovs := ov :: hand.ovs } sockEmpty termEmpty
    dsimp only at sameHand down
    rw [sameHand] at down
    have runs : (taken.overlaps ov).job? = some (.onConn id listener) := by
      rw [next]
      rfl
    refine ⟨down.pend rfl runs ?_ ?_ nofun nofun nofun heldNow ?_, fun done => absurd waits done⟩
    · refine ⟨.of_none sockId sockEmpty, stateNow, ?_⟩
      rw [now.carried.owned]
      exact now.idle
    · exact fun outstanding _ => alone outstanding
    · exact fun _ _ registers => absurd rfl registers

/-- A socket is given the terminal allocated for it, and the terminal the call's notifiers. -/
def equipped (host : Host queue) (id conId connectCallback rcvCallback : ℕ) : Host queue :=
  { host with
    sockTbl := Function.update host.sockTbl id { host.sockTbl id with term := conId }
    connections := Function.update host.connections conId
      { host.connections conId with
        pConnFunc := some ⟨connectCallback, host.calls⟩, pRcvFunc := some rcvCallback }
    calls := host.calls + 1 }

theorem Allocated.attempting {before : Host queue} {parent : UInt64}
    (allocated : Allocated config parent conId before host)
    (ok : HostOk config mode listeners { hand with sock := some id, term := some conId } host)
    (parents : parent = (before.sockTbl id).handle) (noListen : (before.sockTbl id).pListen = none)
    (connectCallback rcvCallback : ℕ) :
    Attempting config mode listeners hand id conId
      (equipped host id conId connectCallback rcvCallback) := by
  have inRange := (ok.slots.termInHand conId rfl).1
  have owned : HostOk config mode listeners { hand with sock := some id, term := some conId }
      { host with
        sockTbl := Function.update host.sockTbl id { host.sockTbl id with term := conId } } :=
    ok.setSocket rfl rfl
  constructor
  case ok =>
    refine owned.setNotifier rfl rfl rfl rfl (.of_same rfl) ?_
    exact (ok.listens.terminalApart inRange).of_holds fun _ holds => .inl holds
  case carried =>
    refine ⟨rfl, rfl, by simp [equipped], ?_⟩
    simp only [equipped, Function.update_self]
    exact
      { listen := by rw [allocated.sockTbl]; exact noListen
        term := inRange
        handle := by rw [allocated.sockTbl, allocated.handle, parents]
        edges := allocated.edges
        pQuePair := allocated.pQuePair
        pCQ := allocated.pCQ
        pConnector := allocated.pConnector
        pConnFunc := nofun }
  case idle =>
    simp only [equipped, Function.update_self]
    exact allocated.pDisconnectCont
  case quiet =>
    simp only [equipped, Function.update_self, Option.some.injEq]
    rintro _ rfl entry member same
    exact Nat.ne_of_lt (ok.log.logged entry member) same

/-- Without exact counts the references in hand may be left behind. -/
theorem dropRefs (ok : HostOk config mode listeners hand host) (inexact : mode.exact = false) :
    HostOk config mode listeners { hand with refs := [] } host :=
  { ok with
    slots := { ok.slots with }
    jobs := ⟨ok.jobs.ready, ok.jobs.once⟩
    regions := { ok.regions with }
    registers := fun strict => { ok.registers strict with }
    log := { ok.log with }
    listens := by
      rcases ok.listens with ⟨leaked, _, listens⟩
      exact ⟨hand.refs ++ leaked, fun exact => absurd (inexact.symm.trans exact) (by simp),
        listens⟩
    overlaps := { ok.overlaps with } }

/-- What is left of a call whose attempt failed at once: the socket taken is in the pool again and
so is the terminal, and the call's notifier has been called with the failure. -/
structure Ended (id connectCallback : ℕ) (before after : Host queue) : Prop where
  sockItems : queue.items after.sockPool = queue.items before.sockPool ++ [id]
  connItems : (queue.items after.connPool).Perm (queue.items before.connPool)
  notified : ∃ err, err ≠ hOk ∧ after.notified = before.notified ++
    [⟨⟨connectCallback, before.calls⟩, (before.sockTbl id).handle, err⟩]

/-- What is left of a failed `Accept` after its socket was taken: it is in the pool again. -/
structure AcceptUndone (id : ℕ) (before after : Host queue) : Prop where
  sockTbl : after.sockTbl = Function.update before.sockTbl id
    { before.sockTbl id with
      state := .inpool
      handle := (before.sockTbl id).handle + 0x100000000
      term := invalidTermId }
  sockItems : queue.items after.sockPool = queue.items before.sockPool ++ [id]
  connItems : (queue.items after.connPool).Perm (queue.items before.connPool)
  connections : after.connections = before.connections

theorem Unallocated.connItems {before after : Host queue} (unallocated : Unallocated before after) :
    (queue.items after.connPool).Perm (queue.items before.connPool) := by
  rcases unallocated.rotated with ⟨conId, rest, items, items'⟩
  rw [items, items']
  exact List.perm_append_singleton conId rest

theorem Allocated.connItems {before after : Host queue} {parent : UInt64}
    (allocated : Allocated config parent conId before after) :
    (queue.items after.connPool ++ [conId]).Perm (queue.items before.connPool) := by
  rw [(queue.items_of_get allocated.taken).1]
  exact List.perm_append_singleton conId _

theorem acceptCleanup_eq (lower : handleToId (host.sockTbl id).handle = id)
    (term : (host.sockTbl id).term = invalidTermId) :
    acceptCleanup config id host = freeSocket id host := by
  unfold acceptCleanup
  rw [apply_bind apply_get]
  simp only [term, ne_eq, not_true, if_false, lower]

/-- `Accept` from the allocation of the terminal on. -/
theorem acceptOn_ensures {listener : ℕ}
    (ok : HostOk config mode listeners { sock := some id, refs := [listener] } host)
    (state : (host.sockTbl id).state = .accept1) (noListen : (host.sockTbl id).pListen = none)
    (idle : mode.strict = true → replies.makesQues config = true → FrontIdle host)
    (makes : mode.exact = true → replies.makesQues config = true)
    (connectCallback rcvCallback : ℕ) {parent : UInt64}
    (parents : parent = (host.sockTbl id).handle) :
    Ensures (do
      let (err, termId) ← allocTerminal config parent replies
      modifySocket id fun sock => { sock with term := termId }
      if termId = invalidTermId then do
        acceptCleanup config id
        return err
      else do
        let _ ← getTerminal config termId
        setNotifiers termId connectCallback rcvCallback
        let arena ← getNewArena
        record (.began arena)
        let ov ← getObj (.onConn id listener) arena (some listener)
        finishCall ov replies.getConnectionRequest
          (onConn config id listener replies.getConnectionRequest arena replies)
        return hOk)
      (fun status after => HostOk config mode listeners {} after ∧
        (status ≠ hOk → AcceptUndone id host after) ∧
        (status = hOk → replies.getConnectionRequest ≠ ndPending →
          (replies.getConnectionRequest ≠ hOk ∨ host.closing = true ∨
            Replies.noHandShake replies) → Ended id connectCallback host after))
      (mode.Tolerates config) host := by
  have sockId := (ok.slots.sockInHand id rfl).1
  refine (allocTerminal_ensures ok rfl rfl (Nat.zero_le _) idle _).bind ?_
  rintro ⟨status, termId⟩ after (⟨bad, invalid, unmade, afterOk, unallocated⟩ |
    ⟨good, made, afterOk, allocated⟩)
  · dsimp only at bad invalid
    have inexact : mode.exact = false := by
      by_contra exact
      rw [makes (by simpa using exact)] at unmade
      cases unmade
    dsimp only
    rw [invalid]
    have sockTbl : after.sockTbl = host.sockTbl := by rw [unallocated.same]
    have freeing := freeOwner_ensures afterOk rfl (by rw [sockTbl, state]; exact nofun)
      (by rw [sockTbl]; exact noListen) (mode.Tolerates config)
    have cleanup : acceptCleanup config id { after with
        sockTbl := Function.update after.sockTbl id
          { after.sockTbl id with term := invalidTermId } } = freeSocket id { after with
        sockTbl := Function.update after.sockTbl id
          { after.sockTbl id with term := invalidTermId } } :=
      acceptCleanup_eq (by simpa using handleToId_sock afterOk sockId) (by simp)
    refine .step rfl ?_
    rw [if_pos rfl]
    refine (freeing.congr cleanup).bind ?_
    rintro _ last ⟨lastOk, freed⟩
    refine ⟨dropRefs lastOk inexact, fun _ => ⟨?_, ?_, ?_, ?_⟩, fun good => absurd good bad⟩
    · rw [freed.sockTbl, sockTbl]
    · rw [(queue.items_of_add freed.added).1, unallocated.same]
    · rw [freed.same]
      exact unallocated.connItems
    · rw [freed.same, unallocated.same]
  · dsimp only at good afterOk allocated
    have inRange := (afterOk.slots.termInHand termId rfl).1
    have attempt : Attempting config mode listeners { refs := [listener] } id termId
        (equipped after id termId connectCallback rcvCallback) :=
      allocated.attempting afterOk parents noListen connectCallback rcvCallback
    have stateNow : ((equipped after id termId connectCallback rcvCallback).sockTbl id).state =
        .accept1 := by
      simp only [equipped, Function.update_self]
      rw [allocated.sockTbl, state]
    have secret : ((equipped after id termId connectCallback rcvCallback).connections
        termId).Secret after.disclosed := by
      simp only [equipped, Function.update_self]
      exact allocated.secret
    dsimp only
    refine .step rfl ?_
    rw [if_neg inRange.ne]
    refine ensures_getTerminal inRange (.step rfl (.step rfl (.step rfl ?_)))
    have began := attempt.newArena.events (after.events ++ [.began after.arenas])
    have awaits := began.await rfl rfl rfl (Nat.zero_le _) stateNow secret
      replies replies.getConnectionRequest after.arenas (some listener)
    refine ensures_bind.mpr ((ensures_bind.mp awaits).mono ?_ fun _ stops => stops)
    intro ov _ awaits
    refine awaits.bind ?_
    rintro _ last ⟨lastOk, ends⟩
    refine ⟨lastOk, fun bad => absurd rfl bad, fun _ done fails => ?_⟩
    rw [← allocated.closing] at fails
    rcases ends done fails with ⟨err, bad, dropped⟩
    refine ⟨?_, ?_, ?_⟩
    · rw [dropped.sockItems]
      exact congrArg (queue.items · ++ [id]) allocated.sockPool
    · rw [dropped.connItems]
      exact allocated.connItems
    · rcases dropped.notified with ⟨notifier, func, notified⟩
      simp only [equipped, Function.update_self] at func
      cases func
      refine ⟨err, bad, ?_⟩
      rw [notified, ← allocated.calls, ← allocated.notified, ← allocated.sockTbl]
      simp only [equipped, Function.update_self]

/-- The attempt of a call failed at once: the pools have their slots again, and the call's notifier
has been called with the failure, for a socket that was in the pool. -/
structure Concluded (connectCallback : ℕ) (before after : Host queue) : Prop where
  sockItems : (queue.items after.sockPool).Perm (queue.items before.sockPool)
  connItems : (queue.items after.connPool).Perm (queue.items before.connPool)
  notified : ∃ id ∈ queue.items before.sockPool, ∃ err, err ≠ hOk ∧
    after.notified = before.notified ++
      [⟨⟨connectCallback, before.calls⟩, (before.sockTbl id).handle, err⟩]

/-- `Accept`. -/
theorem accept_ensures (ok : HostOk config mode listeners {} host)
    (idle : mode.strict = true → Accepts host handle → replies.makesQues config = true →
      FrontIdle host)
    (makes : mode.exact = true → Accepts host handle → replies.makesQues config = true)
    (connectCallback rcvCallback : ℕ) :
    Ensures (accept config handle connectCallback rcvCallback replies)
      (fun status after => HostOk config mode listeners {} after ∧
        (status ≠ hOk → Undone host after) ∧
          (status = hOk → replies.getConnectionRequest ≠ ndPending →
            (replies.getConnectionRequest ≠ hOk ∨ host.closing = true ∨
              Replies.noHandShake replies) → Concluded connectCallback host after))
      (mode.Tolerates config) host := by
  have refused : ∀ {status : StatusCode}, status ≠ hOk → HostOk config mode listeners {} host ∧
      (status ≠ hOk → Undone host host) ∧
        (status = hOk → replies.getConnectionRequest ≠ ndPending →
          (replies.getConnectionRequest ≠ hOk ∨ host.closing = true ∨
            Replies.noHandShake replies) → Concluded connectCallback host host) :=
    fun bad => ⟨ok, fun _ => .refl host, fun good => absurd good bad⟩
  unfold accept
  rw [ensures_bind, ensures_get]
  cases found : host.findSocket handle with
  | none => exact refused (by decide)
  | some pSock =>
      rcases findSocket_some ok found with ⟨sockId, _, _⟩
      dsimp only
      by_cases busy : host.closing = true ∨ (host.sockTbl pSock).state ≠ .listening
      · rw [if_pos busy]
        exact refused (by decide)
      rw [if_neg busy]
      rcases not_or.mp busy with ⟨open', listening⟩
      have listening := not_not.mp listening
      have settled : Hand.Settled config {} pSock := .of_none sockId rfl
      have fits := ok.slots.sockets pSock settled
      simp only [SocketOk, listening] at fits
      rcases Option.ne_none_iff_exists'.mp fits.2 with ⟨listener, holds⟩
      refine (allocateSocket_ensures ok rfl).bind ?_
      rintro result after (⟨_, rfl, rfl⟩ |
        ⟨id, sockPool, rfl, taken, sockId', inpool, term, noListen, rfl, takenOk⟩)
      · exact refused (by decide)
      have other : pSock ≠ id := by
        rintro rfl
        rw [listening] at inpool
        cases inpool
      have accepts : Accepts host handle := by
        refine ⟨pSock, found, by simpa using open', listening, ?_⟩
        rw [(queue.items_of_get taken).1]
        exact List.cons_ne_nil _ _
      have accepting : HostOk config mode listeners { sock := some id } { host with
          sockPool
          sockTbl := Function.update host.sockTbl id
            { host.sockTbl id with state := .accept1 } } := by
        have changed := takenOk.setSocket rfl
          (show ({ host.sockTbl id with state := .accept1 } : HSocket).handle = _ by simp)
        simpa only [Function.update_idem] using changed
      have referenced : HostOk config mode listeners { sock := some id, refs := [listener] } _ :=
        accepting.addRef (ok.listens.known settled holds)
      refine .step rfl (.step apply_get ?_)
      simp only [Function.update_idem, Function.update_self, Function.update_of_ne other, holds]
      refine .step rfl (.step (audit_eq (by simpa using term)) ?_)
      refine (acceptOn_ensures referenced (by simp) (by simpa using noListen)
        (fun strict => idle strict accepts) (fun exact => makes exact accepts)
        connectCallback rcvCallback (by simp)).mono ?_ fun _ stops => stops
      have items := (queue.items_of_get taken).1
      rintro status last ⟨lastOk, undone, ended⟩
      refine ⟨lastOk, fun bad => ?_, fun good done fails => ?_⟩
      · have undone := undone bad
        have sockTbl := undone.sockTbl
        simp only [Function.update_idem, Function.update_self] at sockTbl
        have advanced :
            ∀ id', (last.sockTbl id').handle ≠ (host.sockTbl id').handle → id' = id := by
          intro id' changed
          by_contra other
          rw [sockTbl, Function.update_of_ne other] at changed
          exact changed rfl
        refine ⟨?_, ?_, fun id' id'' changed changed' =>
          (advanced id' changed).trans (advanced id'' changed').symm, ?_, undone.connItems, ?_⟩
        · intro id'
          rw [sockTbl]
          by_cases same : id' = id
          · rw [same, Function.update_self, inpool, term]
            exact ⟨rfl, rfl, rfl⟩
          · rw [Function.update_of_ne same]
            exact ⟨rfl, rfl, rfl⟩
        · intro id'
          rw [sockTbl]
          by_cases same : id' = id
          · rw [same, Function.update_self]
            exact .inr ⟨inpool, rfl⟩
          · rw [Function.update_of_ne same]
            exact .inl rfl
        · rw [undone.sockItems, items]
          exact List.perm_append_singleton id _
        · rw [undone.connections]
          exact fun _ => rfl
      · have ended := ended good done fails
        rcases ended.notified with ⟨err, bad, notified⟩
        simp only [Function.update_self] at notified
        refine ⟨?_, ended.connItems, id, by rw [items]; exact List.mem_cons_self,
          err, bad, notified⟩
        rw [ended.sockItems, items]
        exact List.perm_append_singleton id _

end Accept

section Connect

/-- A socket without a terminal can be put down. -/
theorem stowUnowned (inHand : hand.sock = some id) (termEmpty : hand.term = none)
    (fits : SocketOk config (host.sockTbl id) (host.connections (host.sockTbl id).term))
    (active : (host.sockTbl id).state ≠ .inpool) (term : (host.sockTbl id).term = invalidTermId)
    (ended : (host.sockTbl id).state.attempting = false) : Stowable config mode hand host id where
  inHand := inHand
  fits := fits
  active := active
  term := .inl ⟨termEmpty, term⟩
  noDiscon _ attempting := absurd (ended.symm.trans attempting) nofun
  secret accepting := by
    rw [accepting] at ended
    cases ended
  connecting connecting := by
    rw [connecting] at ended
    cases ended
  started some := absurd termEmpty some
  quiet attempting := absurd (ended.symm.trans attempting) nofun

/-- A disconnected socket can be put down. -/
theorem stowDisconnected (inHand : hand.sock = some id) (termEmpty : hand.term = none)
    (state : (host.sockTbl id).state = .disconnected)
    (term : (host.sockTbl id).term = invalidTermId) (noListen : (host.sockTbl id).pListen = none) :
    Stowable config mode hand host id := by
  refine stowUnowned inHand termEmpty ?_ (by rw [state]; exact nofun) term (by rw [state]; rfl)
  simp only [SocketOk, state]
  exact ⟨term, noListen⟩

/-- What is left of a failed `Connect` after its socket was taken: the socket is disconnected
again, and the call's arena is retired. -/
structure ConnectUndone (id arena : ℕ) (before after : Host queue) : Prop where
  sockTbl : after.sockTbl = Function.update before.sockTbl id
    { before.sockTbl id with state := .disconnected, port := 0, term := invalidTermId }
  sockPool : after.sockPool = before.sockPool
  connItems : (queue.items after.connPool).Perm (queue.items before.connPool)
  terminals : ∀ conId, (after.connections conId).noRegions = (before.connections conId).noRegions
  retired : after.retired.count arena = before.retired.count arena + 1

theorem connectCleanup_eq (term : (host.sockTbl id).term = invalidTermId) :
    connectCleanup config id arena host = .ok (⟨⟩, { host with
      sockTbl := Function.update host.sockTbl id
        { host.sockTbl id with state := .disconnected, port := 0, term := invalidTermId }
      retired := host.retired ++ [arena]
      events := host.events ++ [.retired arena] }) := by
  unfold connectCleanup
  rw [apply_bind rfl, apply_bind apply_get]
  simp only [Function.update_self, term, ne_eq, not_true, if_false]
  rfl

/-- The clean-up of `Connect` gives a terminal that was not started back. -/
theorem connectCleanup_ensures (attempt : Attempting config mode listeners {} id termId host)
    (secret : (host.connections termId).Secret host.disclosed) :
    Ensures (connectCleanup config id arena)
      (fun _ after => HostOk config mode listeners {} after ∧
        after.sockTbl = Function.update host.sockTbl id
          { host.sockTbl id with state := .disconnected, port := 0, term := invalidTermId } ∧
        after.sockPool = host.sockPool ∧
        queue.items after.connPool = queue.items host.connPool ++ [termId] ∧
        after.connections = Function.update host.connections termId
          (host.connections termId).voidFlds ∧
        after.retired = host.retired ++ [arena])
      (mode.Tolerates config) host := by
  have owns := attempt.carried.owns
  have owned := attempt.carried.owned
  subst owned
  have disconnected : HostOk config mode listeners
      { sock := some id, term := some (host.sockTbl id).term }
      { host with
        sockTbl := Function.update host.sockTbl id
          { host.sockTbl id with state := .disconnected, port := 0 } } :=
    attempt.ok.setSocket rfl rfl
  unfold connectCleanup
  refine .step rfl (.step apply_get ?_)
  simp only [Function.update_self]
  rw [if_pos attempt.carried.inRange.ne]
  refine (freeTerminal_ensures disconnected rfl owns.edges (fun _ => ⟨owns.pQuePair, owns.pCQ⟩)
    (fun outstanding => disconnected.jobs.notStarted attempt.idle outstanding) secret).bind ?_
  rintro _ after ⟨freed, freedOk⟩
  have sockTbl := congrArg Host.sockTbl freed.same
  dsimp only at sockTbl
  have unowned : HostOk config mode listeners { sock := some id }
      { after with
        sockTbl := Function.update after.sockTbl id
          { after.sockTbl id with term := invalidTermId } } := freedOk.setSocket rfl rfl
  have noListen : (Function.update after.sockTbl id
      { after.sockTbl id with term := invalidTermId } id).pListen = none := by
    simpa [sockTbl] using owns.listen
  have down := (unowned.retired arena).putDown
    (stowDisconnected rfl rfl (by simp [sockTbl]) (by simp) noListen) noListen
  refine .step rfl (.of_eq rfl ⟨down, ?_, ?_, ?_, ?_, ?_⟩)
  · simp only [sockTbl, Function.update_self, Function.update_idem]
  · rw [freed.same]
  · exact (queue.items_of_add freed.added).1
  · rw [freed.same]
  · rw [freed.same]

/-- The attempt waits for the peer to answer its hand shake. -/
theorem Attempting.dial (attempt : Attempting config mode listeners hand id termId host)
    (sockEmpty : hand.sock = none) (termEmpty : hand.term = none) (few : hand.ovs.length ≤ 6)
    (state : (host.sockTbl id).state = .connecting) (hr : HRESULT) (arena : ℕ)
    (pReceiver : Option ℕ) :
    Ensures (do
      let ov ← getObj (.onConnAck id) arena pReceiver
      let _ ← prepareHandShakeData config termId replies
      record (.used arena)
      finishCall ov hr (onConnAck config id hr arena replies))
      (fun _ after => HostOk config mode listeners hand after) (mode.Tolerates config) host := by
  have sockId := (attempt.ok.slots.sockInHand id rfl).1
  have room : hand.ovs.length ≤ 8 := Nat.le_trans few (by decide)
  refine (getObj_ensures attempt.ok room pReceiver).bind ?_
  rintro ov taken ⟨took, next, takenOk⟩
  have taking := attempt.took took takenOk
  refine (prepareHandShakeData_ensures takenOk rfl).bind ?_
  rintro _ prepared ⟨preparedOk, disclosed⟩
  have now : Attempting config mode listeners { hand with ovs := ov :: hand.ovs } id termId
      prepared :=
    { ok := preparedOk
      carried := taking.carried.move disclosed.sockTbl (.of_noRegions (disclosed.noRegions termId))
      idle := (congrArg Terminal.pDisconnectCont (disclosed.noRegions termId)).trans taking.idle
      quiet := by
        have func := congrArg Terminal.pConnFunc (disclosed.noRegions termId)
        rw [disclosed.notified]
        exact fun notifier same => taking.quiet notifier (func.symm.trans same) }
  have stateNow : (prepared.sockTbl id).state = .connecting := by
    rw [disclosed.sockTbl, took.sockTbl, state]
  refine .step rfl (ensures_finishCall ?_ ?_)
  · intro _
    have recorded := now.events (prepared.events ++ [.used arena] ++ [.ran ov])
    refine (onConnAck_ensures recorded sockEmpty termEmpty (Nat.succ_le_succ few) stateNow
      disclosed.mem hr arena).bind ?_
    intro _ after afterOk
    exact (freeObj_ensures afterOk rfl).mono (fun _ _ freed => freed.2.2) fun _ stops => stops
  · intro _
    have alone : ∀ {ov job}, prepared.Pends ov job → mode.key job ≠ some (.attempt id) :=
      fun outstanding => preparedOk.jobs.noAttempt rfl outstanding
    have down := (preparedOk.putDown (now.stowable (.inr ⟨stateNow, disclosed.mem⟩))
      now.carried.owns.listen).events (prepared.events ++ [.used arena])
    have sameHand := Hand.putDown { hand with ovs := ov :: hand.ovs } sockEmpty termEmpty
    dsimp only at sameHand down
    rw [sameHand] at down
    have runs : (prepared.overlaps ov).job? = some (.onConnAck id) := by
      rw [disclosed.overlaps ov (takenOk.overlaps.notPending List.mem_cons_self), next]
      rfl
    refine down.pend rfl runs ⟨.of_none sockId sockEmpty, stateNow⟩ ?_ nofun nofun nofun rfl ?_
    · exact fun outstanding _ => alone outstanding
    · exact fun _ _ registers => absurd rfl registers

/-- `Connect` from the allocation of the terminal on. -/
theorem connectOn_ensures (ok : HostOk config mode listeners { sock := some id } host)
    (state : (host.sockTbl id).state = .connecting) (noListen : (host.sockTbl id).pListen = none)
    (idle : mode.strict = true → replies.makesQues config = true → FrontIdle host)
    (low : arena < host.arenas)
    (fresh : ¬host.Awaits arena) (connectCallback rcvCallback : ℕ) {parent : UInt64}
    (parents : parent = (host.sockTbl id).handle) :
    Ensures (do
      let (err, termId) ← allocTerminal config parent replies
      modifySocket id fun sock => { sock with term := termId }
      if termId = invalidTermId then do
        connectCleanup config id arena
        return err
      else do
        let pTerm ← getTerminal config termId
        setNotifiers termId connectCallback rcvCallback
        let connector ← derefPtr pTerm.pConnector "Bind"
        if replies.bindConnector ≠ hOk then do
          connectCleanup config id arena
          return replies.bindConnector
        else do
          let ov ← getObj (.onConnAck id) arena (some connector)
          let _ ← prepareHandShakeData config termId replies
          record (.used arena)
          finishCall ov replies.connect (onConnAck config id replies.connect arena replies)
          return hOk)
      (fun status after => HostOk config mode listeners {} after ∧
        (status ≠ hOk → ConnectUndone id arena host after))
      (mode.Tolerates config) host := by
  have notRetired : ∀ {more : List ℕ}, (∀ other ∈ more, host.Awaits other ∨ host.arenas ≤ other) →
      more.count arena = 0 := by
    intro more from'
    apply List.count_eq_zero.mpr
    intro member
    rcases from' arena member with awaits | new
    · exact fresh awaits
    · exact Nat.not_le_of_lt low new
  refine (allocTerminal_ensures ok rfl rfl (Nat.zero_le _) idle _).bind ?_
  rintro ⟨status, termId⟩ after (⟨bad, invalid, unmade, afterOk, unallocated⟩ |
    ⟨good, made, afterOk, allocated⟩)
  · dsimp only at bad invalid
    dsimp only
    rw [invalid]
    have sockTbl : after.sockTbl = host.sockTbl := by rw [unallocated.same]
    have sockPool : after.sockPool = host.sockPool := by rw [unallocated.same]
    have connections : after.connections = host.connections := by rw [unallocated.same]
    have retired : after.retired = host.retired := by rw [unallocated.same]
    refine .step rfl ?_
    rw [if_pos rfl]
    refine .step (connectCleanup_eq (by simp)) ?_
    have disconnected : HostOk config mode listeners { sock := some id } { after with
        sockTbl := Function.update after.sockTbl id
          { after.sockTbl id with state := .disconnected, port := 0, term := invalidTermId }
        retired := after.retired ++ [arena]
        events := after.events ++ [.retired arena] } :=
      HostOk.setSocket (afterOk.retired arena) rfl rfl
    have down := disconnected.putDown (stowDisconnected rfl rfl (by simp) (by simp)
      (by simpa [sockTbl] using noListen)) (by simpa [sockTbl] using noListen)
    simp only [Function.update_self, Function.update_idem]
    refine ⟨down, fun _ => ⟨?_, ?_, unallocated.connItems, ?_, ?_⟩⟩
    · simp only [sockTbl]
    · exact sockPool
    · intro conId
      rw [connections]
    · rw [List.count_append, List.count_singleton_self, retired]
  · dsimp only at good afterOk allocated
    have inRange := (afterOk.slots.termInHand termId rfl).1
    have attempt : Attempting config mode listeners {} id termId
        (equipped after id termId connectCallback rcvCallback) :=
      allocated.attempting afterOk parents noListen connectCallback rcvCallback
    dsimp only
    refine .step rfl ?_
    rw [if_neg inRange.ne]
    refine ensures_getTerminal inRange (.step rfl ?_)
    refine ensures_derefPtr (fun none => absurd none allocated.pConnector) fun connector _ => ?_
    by_cases noBind : replies.bindConnector ≠ hOk
    · rw [if_pos noBind]
      have secret : ((equipped after id termId connectCallback rcvCallback).connections
          termId).Secret after.disclosed := by
        simp only [equipped, Function.update_self]
        exact allocated.secret
      refine (connectCleanup_ensures attempt secret).bind ?_
      rintro _ last ⟨lastOk, sockTbl, sockPool, connItems, connections, retired⟩
      simp only [equipped, Function.update_self, Function.update_idem] at sockTbl connections
      refine ⟨lastOk, fun _ => ⟨?_, ?_, ?_, ?_, ?_⟩⟩
      · rw [sockTbl, allocated.sockTbl]
      · exact sockPool.trans allocated.sockPool
      · rw [connItems]
        exact allocated.connItems
      · intro conId
        rw [connections]
        by_cases same : conId = termId
        · rw [same, Function.update_self]
          exact allocated.void
        · rw [Function.update_of_ne same]
          exact allocated.others conId same
      · rcases allocated.retired with ⟨more, same, from'⟩
        rw [retired, List.count_append, List.count_singleton_self]
        change after.retired.count arena + 1 = _
        rw [same, List.count_append, notRetired from']
    · rw [if_neg noBind]
      have stateNow : ((equipped after id termId connectCallback rcvCallback).sockTbl id).state =
          .connecting := by
        simp only [equipped, Function.update_self]
        rw [allocated.sockTbl, state]
      have dials : Ensures (do
          let ov ← getObj (.onConnAck id) arena (some connector)
          let _ ← prepareHandShakeData config termId replies
          record (.used arena)
          finishCall ov replies.connect
            (onConnAck config id replies.connect arena replies)) _ _ _ :=
        attempt.dial rfl rfl (Nat.zero_le _) stateNow replies.connect arena (some connector)
      refine ensures_bind.mpr ((ensures_bind.mp dials).mono ?_ fun _ stops => stops)
      intro ov _ dials
      refine ensures_bind.mpr ((ensures_bind.mp dials).mono ?_ fun _ stops => stops)
      intro _ _ dials
      refine ensures_bind.mpr ((ensures_bind.mp dials).mono ?_ fun _ stops => stops)
      intro _ _ dials
      refine dials.bind ?_
      exact fun _ last lastOk => ⟨lastOk, fun bad => absurd rfl bad⟩

/-- No attempt to connect goes on for a socket in another state. -/
theorem noAttempt_of_state (ok : HostOk config mode listeners hand host)
    (state : (host.sockTbl id).state.attempting = false) :
    ∀ {ov job}, host.Pends ov job → mode.key job ≠ some (.attempt id) := by
  intro ov job outstanding key
  have attempting := ((ok.jobs.ready outstanding).attempting key).2
  rw [state] at attempting
  cases attempting

/-- `Connect`. -/
theorem connect_ensures (ok : HostOk config mode listeners {} host)
    (idle : mode.strict = true → Connects host handle → replies.makesQues config = true →
      FrontIdle host)
    (connectCallback rcvCallback : ℕ) :
    Ensures (connect config handle connectCallback rcvCallback replies)
      (fun status after => HostOk config mode listeners {} after ∧
        (status ≠ hOk → Undone host after ∧
          (∀ id, (after.sockTbl id).handle = (host.sockTbl id).handle) ∧
          (after.arenas ≠ host.arenas →
            after.retired.count host.arenas = host.retired.count host.arenas + 1)))
      (mode.Tolerates config) host := by
  unfold connect
  rw [ensures_bind, ensures_get]
  cases found : host.findSocket handle with
  | none => exact ⟨ok, fun _ => ⟨.refl host, fun _ => rfl, fun other => absurd rfl other⟩⟩
  | some pSock =>
      rcases findSocket_some ok found with ⟨sockId, _, _⟩
      dsimp only
      by_cases busy : host.closing = true ∨ (host.sockTbl pSock).state ≠ .disconnected
      · rw [if_pos busy]
        exact ⟨ok, fun _ => ⟨.refl host, fun _ => rfl, fun other => absurd rfl other⟩⟩
      rw [if_neg busy]
      rcases not_or.mp busy with ⟨open', connected⟩
      have state := not_not.mp connected
      have fits := ok.slots.sockets pSock (.of_none sockId rfl)
      simp only [SocketOk, state] at fits
      have picked : HostOk config mode listeners { sock := some pSock } host :=
        ok.pick rfl rfl sockId (by simp [state]) fits.2 (.inl ⟨rfl, fits.1⟩)
          (noAttempt_of_state ok (by rw [state]; rfl))
      have connecting : HostOk config mode listeners { sock := some pSock } { host with
          arenas := host.arenas + 1
          events := host.events ++ [.began host.arenas]
          sockTbl := Function.update host.sockTbl pSock
            { host.sockTbl pSock with state := .connecting } } :=
        HostOk.setSocket (picked.newArena.events _) rfl rfl
      refine .step rfl (.step rfl (.step rfl (.step apply_get ?_)))
      rw [if_neg (by simpa using open')]
      refine .step (audit_eq (by simpa using fits.1)) ?_
      refine (connectOn_ensures connecting (by simp) (by simpa using fits.2)
        (fun strict => idle strict ⟨pSock, found, by simpa using open', state⟩)
        (Nat.lt_succ_self _) ?_ connectCallback rcvCallback
        (by simp)).mono ?_ fun _ stops => stops
      · exact fun awaits => Nat.lt_irrefl _ (ok.awaited awaits)
      rintro status after ⟨afterOk, undone⟩
      refine ⟨afterOk, fun bad => ?_⟩
      have undone := undone bad
      have sockTbl := undone.sockTbl
      simp only [Function.update_idem, Function.update_self] at sockTbl
      have handles : ∀ id, (after.sockTbl id).handle = (host.sockTbl id).handle := by
        intro id
        rw [sockTbl]
        by_cases same : id = pSock
        · rw [same, Function.update_self]
        · rw [Function.update_of_ne same]
      refine ⟨⟨?_, ?_, fun id _ changed => absurd (handles id) changed, ?_, undone.connItems,
        undone.terminals⟩, ?_, fun _ => undone.retired⟩
      · intro id
        rw [sockTbl]
        by_cases same : id = pSock
        · rw [same, Function.update_self, state, fits.1]
          exact ⟨rfl, rfl, rfl⟩
        · rw [Function.update_of_ne same]
          exact ⟨rfl, rfl, rfl⟩
      · exact fun id => .inl (handles id)
      · rw [undone.sockPool]
      · exact handles

end Connect

end Host

end Hermes
