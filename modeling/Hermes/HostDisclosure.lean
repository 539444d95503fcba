import Hermes.HostLinear
import Hermes.HostRegistrations

/-!
# Tokens go to one peer

The tokens of a region are put in a hand shake by `PrepareHandShakeData` alone.  A step
discloses the two regions of one terminal at most, and both for the first time, so no
region's tokens are ever in two hand shakes, although terminals and their regions are
used again after attempts that failed.
-/

namespace Hermes

open Program

variable {queue : CircularQue ℕ} {config : HostConfig} {mode : Mode} {listeners : List ℕ}
  {hand : Hand} {host before middle after : Host queue} {id termId : ℕ} {hr : HRESULT}
  {replies : Replies} {arena : ℕ}

namespace Host

/-- Nothing is disclosed, or the two regions of one terminal, for the first time. -/
def Discloses (before after : Host queue) : Prop :=
  after.disclosed = before.disclosed ∨
    ∃ conId memRegion tagRegion, after.disclosed = before.disclosed ++ [memRegion, tagRegion] ∧
      (after.connections conId).pMemRegion = some memRegion ∧
      (after.connections conId).pTagRegion = some tagRegion ∧
      memRegion ∉ before.disclosed ∧ tagRegion ∉ before.disclosed

theorem Discloses.of_same (same : middle.disclosed = before.disclosed)
    (discloses : Discloses middle after) : Discloses before after := by
  rwa [Discloses, same] at discloses

/-- Any code that discloses nothing. -/
def Scope.secret : Scope := ⟨fun _ => True, fun _ => True, True, False, True⟩

theorem within_secret (ok : HostOk config mode listeners hand host) :
    Within config .secret host :=
  within_of_ok ok (fun _ => trivial) fun _ => trivial

theorem Discloses.then (discloses : Discloses before middle)
    (moves : Moves config .secret middle after) : Discloses before after := by
  have lived := moves.lived trivial
  have same := lived.disclosed id
  rcases discloses with none | ⟨conId, memRegion, tagRegion, more, mem, tag, newMem, newTag⟩
  · exact .inl (same.trans none)
  · exact .inr ⟨conId, memRegion, tagRegion, same.trans more,
      (lived.terminals conId).mem _ mem, (lived.terminals conId).tag _ tag, newMem, newTag⟩

/-- Code after which nothing more is disclosed. -/
theorem Discloses.finish {Result : Type} {code : Code queue Result}
    (discloses : Discloses before middle) (rest : InScopeAt config .secret middle code)
    {fault : Stop → Prop} (stops : ∀ stop, fault stop) :
    Ensures code (fun _ last => Discloses before last) fault middle :=
  rest.ensures.mono (fun _ _ moves => discloses.then moves) fun stop _ => stops stop

/-- Code that discloses nothing. -/
theorem discloses_of {Result : Type} {code : Code queue Result}
    (secret : InScopeAt config .secret host code) :
    Ensures code (fun _ last => Discloses host last) (fun _ => True) host :=
  Discloses.finish (.inl rfl) secret fun _ => trivial

/-- A call whose handler discloses, at once or later. -/
theorem Discloses.call (config : HostConfig) {Result : Type} {result : Result} {ov : ℕ}
    {hr : HRESULT} {handler : Code queue PUnit} (same : middle.disclosed = before.disclosed)
    (handles : Ensures handler (fun _ last => Discloses { middle with
      events := middle.events ++ [.ran ov] } last) (fun _ => True)
      { middle with events := middle.events ++ [.ran ov] }) :
    Ensures (do
      finishCall ov hr handler
      return result) (fun _ last => Discloses before last) (fun _ => True) middle := by
  unfold finishCall
  split
  · refine ensures_bind.mpr (.step rfl (Ensures.bind handles fun _ handled discloses => ?_))
    have frees : InScopeAt config .secret handled (freeObj ov) := inScope_freeObj trivial handled
    exact (discloses.of_same same).finish frees fun _ => trivial
  · exact .inl same

section HandShakes

theorem getObj_terminals {job : AsyncJob} {pReceiver : Option ℕ} :
    Ensures (getObj job arena pReceiver)
      (fun _ after => after.connections = host.connections ∧ after.disclosed = host.disclosed)
      (fun _ => True) host := by
  refine .step apply_get ?_
  cases queue.get host.overlapPool with
  | none => trivial
  | some pair =>
      refine .step rfl (ensures_audit (fun _ => trivial) fun _ => .step rfl (.step rfl ?_))
      exact ⟨rfl, rfl⟩

/-- `StartTerminal` neither records nor discloses a region. -/
theorem startTerminal_regions {handShake : HandShake} :
    Ensures (startTerminal config termId handShake replies)
      (fun _ after => Hermes.SameRegions host.connections after.connections ∧
        after.disclosed = host.disclosed)
      (fun _ => True) host := by
  refine ensures_getTerminal_of (fun _ => trivial) fun _ => ?_
  refine .step rfl (.step rfl (.step rfl (.step rfl ?_)))
  simp only [Function.update_self, Function.update_idem]
  refine getObj_terminals.bind ?_
  rintro ov taken ⟨connections, disclosed⟩
  refine ensures_audit (fun _ => trivial) fun _ => .of_eq rfl ⟨?_, disclosed⟩
  dsimp only
  rw [connections]
  exact Hermes.SameRegions.update rfl rfl

/-- The regions `PrepareHandShakeData` discloses are new. -/
theorem prepareHandShakeData_secret (ok : HostOk config mode listeners hand host)
    (inHand : hand.term = some termId)
    (secret : (host.connections termId).Secret host.disclosed) :
    Ensures (prepareHandShakeData config termId replies)
      (fun _ after => Discloses host after ∧ Within config .secret after) (fun _ => True)
      host := by
  have moves : InScope config .any (prepareHandShakeData config termId replies :
      Code queue HandShake) := inScope_prepareHandShakeData trivial trivial
  have within : Within config .any host := within_of_ok ok (fun _ => trivial) fun _ => trivial
  suffices discloses : Ensures (prepareHandShakeData config termId replies)
      (fun _ after => Discloses host after) (fun _ => True) host by
    refine (discloses.and (moves host).ensures).mono ?_ fun _ stops => stops
    exact fun _ after done => ⟨done.1, { within.moved done.2 with }⟩
  have inRange := (ok.slots.termInHand termId inHand).1
  unfold prepareHandShakeData
  refine ensures_getTerminal inRange (.step (getRcvBuf_eq ok.rings inRange.1 inRange.2) ?_)
  have waits : Ensures (completeRegistrations replies.whileRegions) _ _ host :=
    completeRegistrations_ensures replies.whileRegions ok
  refine Ensures.bind (waits.mono (fun _ _ done => done) fun _ _ => trivial) ?_
  rintro _ after ⟨afterOk, completes⟩
  refine .step apply_get ?_
  split
  case h_1 memRegion tagRegion mem tag =>
    have fresh : ∀ region, (after.connections termId).Records region →
        region ∉ host.disclosed := by
      intro region records disclosed
      rcases completes.records records with recorded | ⟨ov, job, outstanding, registers⟩ | new
      · exact secret region recorded disclosed
      · exact (ok.regions.outstanding outstanding registers).2.1 disclosed
      · exact Nat.not_lt_of_le new (ok.regions.disclosedLt region disclosed)
    refine .step rfl (.inr ⟨termId, memRegion, tagRegion, ?_, mem, tag, ?_, ?_⟩)
    · rw [← completes.disclosed]
    · exact fresh memRegion (.inr mem)
    · exact fresh tagRegion (.inl tag)
  · trivial

end HandShakes

section Attempts

/-- The tokens of an accepted connection are new to its peer. -/
theorem processConnReq_discloses
    (attempt : Attempting config mode listeners hand id termId host)
    (state : (host.sockTbl id).state = .accept1)
    (secret : (host.connections termId).Secret host.disclosed) (few : hand.ovs.length ≤ 7) :
    Ensures (processConnReq config id hr arena replies)
      (fun _ after => Discloses host after) (fun _ => True) host := by
  have sockId := (attempt.ok.slots.sockInHand id rfl).1
  have within : Within config .secret host := within_secret attempt.ok
  have free : FreeAt config .secret host id := fun _ => ⟨sockId, by simp [state]⟩
  have inRange := attempt.carried.inRange
  unfold processConnReq
  refine .step apply_get ?_
  split
  · exact discloses_of (inScope_processConnReqFinal trivial within free)
  split
  · exact discloses_of (inScope_processConnReqFinal trivial within free)
  refine ensures_audit (fun _ => trivial) fun _ => ?_
  dsimp only
  rw [attempt.carried.owned]
  refine ensures_getTerminal inRange (.step rfl ?_)
  have recorded := attempt.ok.events (host.events ++ [.used arena])
  refine ensures_derefPtr (fun _ => trivial) fun connector _ => ?_
  split
  · exact discloses_of (inScope_processConnReqFinal trivial (within_secret recorded) free)
  refine ensures_audit (fun _ => trivial) fun _ => ?_
  have starts : Ensures (startTerminal config termId replies.handShake replies) _ _ _ :=
    startTerminal_ensures recorded rfl (Nat.le_succ_of_le few) (fun _ => attempt.idle) _
  refine Ensures.bind ((starts.mono (fun _ _ done => done.1) fun _ _ => trivial).and
    startTerminal_regions) ?_
  rintro _ begun ⟨begunOk, same, disclosed⟩
  have secret' : (begun.connections termId).Secret begun.disclosed := by
    rw [same.secret, disclosed]
    exact secret
  refine (prepareHandShakeData_secret begunOk rfl secret').bind ?_
  rintro _ prepared ⟨discloses, within⟩
  have discloses' : Discloses host prepared := discloses.of_same disclosed
  have rest : InScopeAt config .secret prepared (do
      record (.used arena)
      let ov ← getObj (.onAccepted id) arena (some connector)
      finishCall ov replies.accept (onConnAccepted config id replies.accept arena replies)) := by
    refine after_still within (inScope_record trivial) fun _ _ within _ => ?_
    refine after_still within (inScope_getObj trivial) fun ov _ within _ => ?_
    exact inScopeAt_finishCall trivial within fun last within _ =>
      inScope_onConnAccepted trivial within fun _ => sockId
  exact discloses'.finish rest fun _ => trivial

theorem onConn_discloses {listener : ℕ} {refs : List ℕ} (held : hand.refs = listener :: refs)
    (attempt : Attempting config mode listeners hand id termId host)
    (state : (host.sockTbl id).state = .accept1)
    (secret : (host.connections termId).Secret host.disclosed) (few : hand.ovs.length ≤ 7) :
    Ensures (onConn config id listener hr arena replies)
      (fun _ after => Discloses host after) (fun _ => True) host := by
  have released : Attempting config mode listeners { hand with refs } id termId
      { host with refs := Function.update host.refs listener (host.refs listener - 1) } :=
    { ok := attempt.ok.releaseRef held
      carried := ⟨rfl, rfl, attempt.carried.owned, attempt.carried.owns⟩
      idle := attempt.idle
      quiet := attempt.quiet }
  unfold onConn
  refine .step rfl ?_
  exact (processConnReq_discloses released state secret few).mono
    (fun _ _ discloses => discloses.of_same rfl) fun _ stops => stops

/-- `Accept` from the allocation of the terminal on. -/
theorem acceptOn_discloses {listener : ℕ} {parent : UInt64}
    (ok : HostOk config openMode listeners { sock := some id, refs := [listener] } host)
    (state : (host.sockTbl id).state = .accept1) (noListen : (host.sockTbl id).pListen = none)
    (parents : parent = (host.sockTbl id).handle) (connectCallback rcvCallback : ℕ) :
    Ensures (do
      let (err, termId) ← allocTerminal config parent replies
      modifySocket id fun sock => { sock with term := termId }
      if termId = invalidTermId then do
        acceptCleanup config id
        return err
      else do
        let _ ← getTerminal config termId
        setNotifiers termId connectCallback rcvCallback
        let arena ← getNewArena
        record (.began arena)
        let ov ← getObj (.onConn id listener) arena (some listener)
        finishCall ov replies.getConnectionRequest
          (onConn config id listener replies.getConnectionRequest arena replies)
        return hOk)
      (fun _ after => Discloses host after) (fun _ => True) host := by
  have allocates : Ensures (allocTerminal config parent replies) _ (openMode.Tolerates config)
      host := allocTerminal_ensures ok rfl rfl (Nat.zero_le _) nofun _
  refine Ensures.bind (allocates.mono (fun _ _ done => done) fun _ _ => trivial) ?_
  rintro ⟨status, termId⟩ after (⟨_, invalid, _, afterOk, unallocated⟩ |
    ⟨_, _, afterOk, allocated⟩)
  · dsimp only at invalid
    dsimp only
    rw [invalid]
    have disclosed : after.disclosed = host.disclosed := by rw [unallocated.same]
    have sockTbl : after.sockTbl = host.sockTbl := by rw [unallocated.same]
    have sockId := (afterOk.slots.sockInHand id rfl).1
    refine .step rfl ?_
    rw [if_pos rfl]
    have free : (after.sockTbl id).state ≠ .connected := by simp [sockTbl, state]
    have parts : InScopeAt config .secret after (modifySocket id fun sock =>
        { sock with term := invalidTermId }) :=
      inScope_setField (within_secret afterOk) (fun _ => free) ⟨rfl, rfl⟩ (.inr trivial)
    have within := (within_secret afterOk).moved (parts.of_ok rfl)
    have cleaned : ∀ {middle : Host queue}, Within config .secret middle →
        (middle.sockTbl id).state ≠ .connected → middle.disclosed = host.disclosed →
          Ensures (do
            acceptCleanup config id
            return status) (fun _ last => Discloses host last) (fun _ => True) middle := by
      intro middle within free disclosed
      have cleans : InScopeAt config .secret middle (do
          acceptCleanup config id
          return status) :=
        (inScope_acceptCleanup within fun _ => ⟨sockId, free⟩).bind
          fun _ last _ => inScope_pure status last
      have unchanged : Discloses host middle := .inl disclosed
      exact unchanged.finish cleans fun _ => trivial
    exact cleaned within (by simpa using free) disclosed
  · dsimp only at afterOk allocated
    have inRange := (afterOk.slots.termInHand termId rfl).1
    have attempt : Attempting config openMode listeners { refs := [listener] } id termId
        (equipped after id termId connectCallback rcvCallback) :=
      allocated.attempting afterOk parents noListen connectCallback rcvCallback
    dsimp only
    refine .step rfl ?_
    rw [if_neg inRange.ne]
    refine ensures_getTerminal inRange (.step rfl (.step rfl (.step rfl ?_)))
    have stateNow : ((equipped after id termId connectCallback rcvCallback).sockTbl id).state =
        .accept1 := by
      simp only [equipped, Function.update_self]
      rw [allocated.sockTbl, state]
    have secret : ((equipped after id termId connectCallback rcvCallback).connections
        termId).Secret after.disclosed := by
      simp only [equipped, Function.update_self]
      exact allocated.secret
    have began := attempt.newArena.events (after.events ++ [.began after.arenas])
    have room : (0 : ℕ) ≤ 8 := by decide
    have gets : Ensures (getObj (.onConn id listener) after.arenas (some listener)) _
        (openMode.Tolerates config) _ := getObj_ensures began.ok room (some listener)
    refine Ensures.bind (gets.mono (fun _ _ done => done) fun _ _ => trivial) ?_
    rintro ov taken ⟨took, _, takenOk⟩
    have now := began.took took takenOk
    have disclosed : taken.disclosed = host.disclosed := took.disclosed.trans allocated.disclosed
    have stateTaken : (taken.sockTbl id).state = .accept1 := by rw [took.sockTbl, stateNow]
    have secretTaken : (taken.connections termId).Secret taken.disclosed := by
      rw [took.connections, took.disclosed]
      exact secret
    refine Discloses.call config disclosed ?_
    exact onConn_discloses rfl (now.events _) stateTaken secretTaken (Nat.le_add_left 1 6)

/-- `Accept` discloses when its request is there at once. -/
theorem accept_discloses (ok : HostOk config openMode listeners {} host) (handle : UInt64)
    (connectCallback rcvCallback : ℕ) :
    Ensures (accept config handle connectCallback rcvCallback replies)
      (fun _ after => Discloses host after) (fun _ => True) host := by
  have quiet : ∀ {Result : Type} {result : Result} {after : Host queue},
      after.disclosed = host.disclosed →
        Ensures (pure result : Code queue Result) (fun _ last => Discloses host last)
          (fun _ => True) after :=
    fun same => .inl same
  unfold accept
  refine .step apply_get ?_
  cases found : host.findSocket handle with
  | none => exact quiet rfl
  | some pSock =>
      rcases findSocket_some ok found with ⟨sockId, _, _⟩
      dsimp only
      split
      · exact quiet rfl
      case isFalse open' =>
        have listening := not_not.mp (not_or.mp open').2
        have settled : Hand.Settled config {} pSock := .of_none sockId rfl
        have fits := ok.slots.sockets pSock settled
        simp only [SocketOk, listening] at fits
        rcases Option.ne_none_iff_exists'.mp fits.2 with ⟨listener, holds⟩
        refine (allocateSocket_ensures ok rfl).bind ?_
        rintro result after (⟨_, rfl, rfl⟩ |
          ⟨id, sockPool, rfl, taken, sockId', inpool, term, noListen, rfl, takenOk⟩)
        · exact quiet rfl
        have other : pSock ≠ id := by
          rintro rfl
          rw [listening] at inpool
          cases inpool
        have accepting : HostOk config openMode listeners { sock := some id } { host with
            sockPool
            sockTbl := Function.update host.sockTbl id
              { host.sockTbl id with state := .accept1 } } := by
          have changed := takenOk.setSocket rfl
            (show ({ host.sockTbl id with state := .accept1 } : HSocket).handle = _ by simp)
          simpa only [Function.update_idem] using changed
        have referenced : HostOk config openMode listeners
            { sock := some id, refs := [listener] } _ :=
          accepting.addRef (ok.listens.known settled holds)
        refine .step rfl (.step apply_get ?_)
        simp only [Function.update_idem, Function.update_self, Function.update_of_ne other, holds]
        refine .step rfl (.step (audit_eq (by simpa using term)) ?_)
        refine (acceptOn_discloses referenced (by simp) (by simpa using noListen) (by simp)
          connectCallback rcvCallback).mono (fun _ _ discloses => ?_) fun _ stops => stops
        exact discloses.of_same rfl

/-- `Connect` from the allocation of the terminal on. -/
theorem connectOn_discloses (ok : HostOk config openMode listeners { sock := some id } host)
    (state : (host.sockTbl id).state = .connecting) (noListen : (host.sockTbl id).pListen = none)
    {parent : UInt64} (parents : parent = (host.sockTbl id).handle)
    (connectCallback rcvCallback : ℕ) :
    Ensures (do
      let (err, termId) ← allocTerminal config parent replies
      modifySocket id fun sock => { sock with term := termId }
      if termId = invalidTermId then do
        connectCleanup config id arena
        return err
      else do
        let pTerm ← getTerminal config termId
        setNotifiers termId connectCallback rcvCallback
        let connector ← derefPtr pTerm.pConnector "Bind"
        if replies.bindConnector ≠ hOk then do
          connectCleanup config id arena
          return replies.bindConnector
        else do
          let ov ← getObj (.onConnAck id) arena (some connector)
          let _ ← prepareHandShakeData config termId replies
          record (.used arena)
          finishCall ov replies.connect (onConnAck config id replies.connect arena replies)
          return hOk)
      (fun _ after => Discloses host after) (fun _ => True) host := by
  have sockId := (ok.slots.sockInHand id rfl).1
  have cleaned : ∀ {middle : Host queue} (err : StatusCode), Within config .secret middle →
      (middle.sockTbl id).state = .connecting → middle.disclosed = host.disclosed →
        Ensures (do
          connectCleanup config id arena
          return err) (fun _ last => Discloses host last) (fun _ => True) middle := by
    intro middle err within connecting disclosed
    have cleans : InScopeAt config .secret middle (do
        connectCleanup config id arena
        return err) :=
      (inScope_connectCleanup trivial within (fun _ => sockId) (fun _ => connecting) trivial).bind
        fun _ last _ => inScope_pure err last
    have unchanged : Discloses host middle := .inl disclosed
    exact unchanged.finish cleans fun _ => trivial
  have allocates : Ensures (allocTerminal config parent replies) _ (openMode.Tolerates config)
      host := allocTerminal_ensures ok rfl rfl (Nat.zero_le _) nofun _
  refine Ensures.bind (allocates.mono (fun _ _ done => done) fun _ _ => trivial) ?_
  rintro ⟨status, termId⟩ after (⟨_, invalid, _, afterOk, unallocated⟩ |
    ⟨_, _, afterOk, allocated⟩)
  · dsimp only at invalid
    dsimp only
    rw [invalid]
    have disclosed : after.disclosed = host.disclosed := by rw [unallocated.same]
    have sockTbl : after.sockTbl = host.sockTbl := by rw [unallocated.same]
    have parts : InScopeAt config .secret after (modifySocket id fun sock =>
        { sock with term := invalidTermId }) :=
      inScope_setField (within_secret afterOk) (fun _ => by simp [sockTbl, state]) ⟨rfl, rfl⟩
        (.inr trivial)
    have within := (within_secret afterOk).moved (parts.of_ok rfl)
    refine .step rfl ?_
    rw [if_pos rfl]
    exact cleaned status within (by simp [sockTbl, state]) disclosed
  · dsimp only at afterOk allocated
    have inRange := (afterOk.slots.termInHand termId rfl).1
    have attempt : Attempting config openMode listeners {} id termId
        (equipped after id termId connectCallback rcvCallback) :=
      allocated.attempting afterOk parents noListen connectCallback rcvCallback
    have stateNow : ((equipped after id termId connectCallback rcvCallback).sockTbl id).state =
        .connecting := by
      simp only [equipped, Function.update_self]
      rw [allocated.sockTbl, state]
    have secret : ((equipped after id termId connectCallback rcvCallback).connections
        termId).Secret after.disclosed := by
      simp only [equipped, Function.update_self]
      exact allocated.secret
    dsimp only
    refine .step rfl ?_
    rw [if_neg inRange.ne]
    refine ensures_getTerminal inRange (.step rfl ?_)
    refine ensures_derefPtr (fun _ => trivial) fun connector _ => ?_
    split
    · exact cleaned replies.bindConnector (within_secret attempt.ok) stateNow allocated.disclosed
    have room : (0 : ℕ) ≤ 8 := by decide
    have gets : Ensures (getObj (.onConnAck id) arena (some connector)) _
        (openMode.Tolerates config) _ := getObj_ensures attempt.ok room (some connector)
    refine Ensures.bind (gets.mono (fun _ _ done => done) fun _ _ => trivial) ?_
    rintro ov taken ⟨took, _, takenOk⟩
    have secretTaken : (taken.connections termId).Secret taken.disclosed := by
      rw [took.connections, took.disclosed]
      exact secret
    refine (prepareHandShakeData_secret takenOk rfl secretTaken).bind ?_
    rintro _ prepared ⟨discloses, within⟩
    have rest : InScopeAt config .secret prepared (do
        record (.used arena)
        finishCall ov replies.connect (onConnAck config id replies.connect arena replies)
        return hOk) := by
      refine after_still within (inScope_record trivial) fun _ _ within _ => ?_
      refine AdvancesAt.bind (inScopeAt_finishCall trivial within fun last within _ =>
        inScope_onConnAck trivial within fun _ => sockId) fun _ last _ => inScope_pure hOk last
    have discloses' : Discloses host prepared :=
      discloses.of_same (took.disclosed.trans allocated.disclosed)
    exact discloses'.finish rest fun _ => trivial

/-- `Connect` discloses its hand shake. -/
theorem connect_discloses (ok : HostOk config openMode listeners {} host) (handle : UInt64)
    (connectCallback rcvCallback : ℕ) :
    Ensures (connect config handle connectCallback rcvCallback replies)
      (fun _ after => Discloses host after) (fun _ => True) host := by
  have quiet : ∀ {Result : Type} {result : Result},
      Ensures (pure result : Code queue Result) (fun _ last => Discloses host last)
        (fun _ => True) host := .inl rfl
  unfold connect
  refine .step apply_get ?_
  cases found : host.findSocket handle with
  | none => exact quiet
  | some pSock =>
      rcases findSocket_some ok found with ⟨sockId, _, _⟩
      dsimp only
      split
      · exact quiet
      case isFalse open' =>
        have state := not_not.mp (not_or.mp open').2
        have fits := ok.slots.sockets pSock (.of_none sockId rfl)
        simp only [SocketOk, state] at fits
        have picked : HostOk config openMode listeners { sock := some pSock } host :=
          ok.pick rfl rfl sockId (by simp [state]) fits.2 (.inl ⟨rfl, fits.1⟩)
            (noAttempt_of_state ok (by rw [state]; rfl))
        have connecting : HostOk config openMode listeners { sock := some pSock } { host with
            arenas := host.arenas + 1
            events := host.events ++ [.began host.arenas]
            sockTbl := Function.update host.sockTbl pSock
              { host.sockTbl pSock with state := .connecting } } :=
          HostOk.setSocket (picked.newArena.events _) rfl rfl
        refine .step rfl (.step rfl (.step rfl (.step apply_get ?_)))
        rw [if_neg (by simpa using (not_or.mp open').1)]
        refine .step (audit_eq (by simpa using fits.1)) ?_
        refine (connectOn_discloses connecting (by simp) (by simpa using fits.2) (by simp)
          connectCallback rcvCallback).mono (fun _ _ discloses => ?_) fun _ stops => stops
        exact discloses.of_same rfl

/-- A completion discloses when it is the one of a connection request. -/
theorem run_discloses (ok : HostOk config openMode listeners {} host) (ov : ℕ) :
    Ensures (run config ov hr replies) (fun _ after => Discloses host after) (fun _ => True)
      host := by
  by_cases member : ov ∈ host.pending
  · refine .step (unpend_eq member) (ensures_audit (fun _ => trivial) fun _ => .step apply_get ?_)
    refine ensures_derefPtr (fun _ => trivial) fun next found => ?_
    rcases next with ⟨job, arena⟩
    have outstanding : host.Pends ov job := ⟨member, congrArg (Option.map Prod.fst) found⟩
    have ready := ok.jobs.ready outstanding
    have freed : InScope config .secret (freeObj ov : Code queue PUnit) := inScope_freeObj trivial
    have handled : ∀ {after : Host queue}, after.disclosed = host.disclosed →
        InScopeAt config .secret after (runJob config job arena hr replies) →
          Ensures (do
            runJob config job arena hr replies
            freeObj ov) (fun _ last => Discloses host last) (fun _ => True) after := by
      intro after disclosed inScope
      have unchanged : Discloses host after := .inl disclosed
      exact unchanged.finish (inScope.bind fun _ last _ => freed last) fun _ => trivial
    have within : Within config .secret { host with
        pending := host.pending.erase ov, events := host.events ++ [.ran ov] } :=
      (within_secret ok).moved (.of_tables trivial rfl (List.prefix_append _ _) rfl)
    refine .step rfl ?_
    cases job
    case onTagRegistered => exact handled rfl (inScope_onTagRegistered trivial _)
    case onMemRegistered =>
      exact handled rfl (inScope_onMemRegistered trivial (inScope_pure _) _)
    case onConn id listener =>
      rcases attempting_of_onConn ok outstanding with ⟨attempt, state, secret⟩
      refine (onConn_discloses rfl (attempt.events _) state secret (Nat.le_add_left 1 6)).bind ?_
      intro _ after discloses
      exact (discloses.of_same rfl).finish (freed after) fun _ => trivial
    case onConnAck id =>
      exact handled rfl (inScope_onConnAck trivial within fun _ => ready.1.1)
    case onAccepted id =>
      exact handled rfl (inScope_onConnAccepted trivial within fun _ => ready.1)
    case onDisconNotified => exact handled rfl (inScope_onDisconNotified _ _)
    case verbCompletion => exact handled rfl (inScope_blocked _)
  · rw [run, ensures_bind, unpend, ensures_bind, ensures_get, if_neg member]
    trivial

end Attempts

section Steps

/-- Two hosts with the same disclosed regions. -/
def SameDisclosed (before after : Host queue) : Prop :=
  after.disclosed = before.disclosed

instance : Std.Refl (SameDisclosed : Host queue → Host queue → Prop) where
  refl _ := rfl

instance : IsTrans (Host queue) SameDisclosed where
  trans _ _ _ left right := Eq.trans right left

/-- Sending puts nothing in a hand shake. -/
theorem undisclosed_send (handle : UInt64) (req : SndReq) :
    Advances SameDisclosed Stop.PoolSound (send config handle req : Code queue StatusCode) :=
  advances_send (fun moves => (moves.lived trivial).disclosed id) fun _ _ => rfl

/-- The end of a connection puts nothing in a hand shake. -/
theorem undisclosed_closeTerminal (termId : ℕ) (notices : List StatusCode) :
    Advances SameDisclosed Stop.PoolSound
      (closeTerminal config termId notices : Code queue PUnit) := by
  apply advances_closeTerminal fun moves => (moves.lived trivial).disclosed id
  case clears => exact fun _ _ => rfl
  case parts => exact fun _ _ => rfl
  case frees =>
    rintro id host _ ⟨sockPool, _, rfl⟩
    rfl

theorem step_discloses {action : HostAction} (ok : HostOk config openMode listeners {} before)
    (stepped : step config before action = .ok after) : Discloses before after := by
  rcases step_eq_ok.mp stepped with ⟨done, performed⟩
  have returned : ∀ {Result : Type} {code : Code queue Result},
      Ensures code (fun _ last => Discloses before last) (fun _ => True) before →
        Ensures (code >>= fun _ => (pure ⟨⟩ : Code queue PUnit))
          (fun _ last => Discloses before last) (fun _ => True) before :=
    fun discloses => discloses.bind fun _ _ done => done
  have same : ∀ {Result : Type} {code : Code queue Result}, 
      Advances SameDisclosed Stop.PoolSound code →
        Ensures code (fun _ last => Discloses before last) (fun _ => True) before := by
    intro Result code advances
    exact (advances before).ensures.mono (fun _ _ same => .inl same) fun _ _ => trivial
  have within : Within config .secret before := within_secret ok
  have performs : Ensures (perform config action) (fun _ last => Discloses before last)
      (fun _ => True) before := by
    cases action
    case createSocket => exact returned (discloses_of (inScope_createSocket within))
    case listen handle port replies =>
      exact returned (discloses_of (inScope_listen within handle port))
    case accept handle connectCallback rcvCallback replies =>
      exact returned (accept_discloses ok handle connectCallback rcvCallback)
    case connect handle connectCallback rcvCallback replies =>
      exact returned (connect_discloses ok handle connectCallback rcvCallback)
    case send handle req => exact returned (same (undisclosed_send handle req))
    case closeSocket handle err =>
      exact discloses_of (inScope_closeSocket within handle)
    case complete ov hr replies => exact run_discloses ok ov
    case shutdown => exact .inl rfl
    case destroySocket id =>
      refine .step apply_get ?_
      split
      case isTrue destroys =>
        rcases Option.isSome_iff_exists.mp destroys.2 with ⟨pSock, found⟩
        exact discloses_of (inScope_destroySocket within fun _ =>
          (sockId_of_getSocket ok found).2)
      · trivial
    case closeTerminal term notices => exact same (undisclosed_closeTerminal term notices)
  exact performs.of_ok performed

end Steps

end Host

section Runs

variable {setup : Setup}

/-- The two regions of a terminal differ. -/
theorem Host.Granted.apart (granted : host.Granted config) {conId memRegion tagRegion : ℕ}
    (mem : (host.connections conId).pMemRegion = some memRegion)
    (tag : (host.connections conId).pTagRegion = some tagRegion) : memRegion ≠ tagRegion := by
  rintro rfl
  have same := granted.once _ _ memRegion (granted.mem conId memRegion mem)
    (granted.tag conId memRegion tag) rfl rfl
  cases same

theorem disclosed_nodup
    (reachable : (hostMachine queue setup).Reachable (fun _ _ => True) host) :
    host.disclosed.Nodup := by
  have nodup : (hostMachine queue setup).Reachable (fun _ _ => True) host ∧
      host.disclosed.Nodup := by
    refine reachable.invariant (fun host =>
      (hostMachine queue setup).Reachable (fun _ _ => True) host ∧ host.disclosed.Nodup) ?_ ?_
    · intro first made
      rcases Host.factory_started made with ⟨_, _, _, _, started⟩
      rcases started.rest with ⟨_, _, _, same⟩
      have disclosed : first.disclosed = [] := by
        rw [same]
        rfl
      exact ⟨.of_start made, disclosed ▸ List.nodup_nil⟩
    · rintro before action after ⟨reached, nodup⟩ _ stepped
      have next := reached.tail trivial stepped
      refine ⟨next, ?_⟩
      rcases hostOk_of_any reached with ⟨listeners, ok⟩
      rcases Host.step_discloses ok stepped with same |
        ⟨conId, memRegion, tagRegion, more, mem, tag, newMem, newTag⟩
      · rwa [same]
      · have apart := (Host.orderly_of_reachable next).granted.apart mem tag
        rw [more, List.nodup_append]
        refine ⟨nodup, by simp [apart], ?_⟩
        rintro region old _ new rfl
        rcases List.mem_pair.mp new with rfl | rfl
        · exact newMem old
        · exact newTag old
  exact nodup.2

/-- No region's tokens are ever put in two hand shakes, although a terminal is used again with its
regions after a failed attempt: a step discloses nothing, or both regions of one terminal for the
first time, and a terminal in the pool has no region that was disclosed. -/
theorem tokens_disclosed_once (queue : CircularQue ℕ) (setup : Setup) {host : Host queue}
    (reachable : (hostMachine queue setup).Reachable (fun _ _ => True) host) :
    host.disclosed.Nodup ∧
    (∀ conId ∈ queue.items host.connPool, (host.connections conId).Secret host.disclosed) ∧
    ∀ action after, Host.step setup.config host action = .ok after →
      Host.Discloses host after := by
  rcases hostOk_of_any reachable with ⟨listeners, ok⟩
  exact ⟨disclosed_nodup reachable, ok.regions.secretPool,
    fun _ _ stepped => Host.step_discloses ok stepped⟩

/-- A terminal registers its regions, its attempt fails, and another one uses both again. -/
def sampleReused : List HostAction :=
  [.createSocket, .connect sampleHandle 5 6 { sampleRegistered with bindConnector := ndCanceled },
    .connect sampleHandle 5 6 {}]

theorem tokens_disclosed_once_reused :
    ∃ host : Host (boundedQueue ℕ), host.disclosed = [4, 3] ∧ host.disclosed.Nodup ∧
      Host.Discloses host { host with closing := true } := by
  have passes : (sampleRun sampleReused).toOption.any (fun host => host.disclosed = [4, 3]) =
      true := by decide +kernel
  rcases sampleRun_reaches (fun _ _ _ => trivial) passes with ⟨host, reachable, disclosed⟩
  have once := tokens_disclosed_once (boundedQueue ℕ) (sampleSetup 8192 1) reachable
  exact ⟨host, of_decide_eq_true disclosed, once.1, once.2.2 .shutdown _ rfl⟩

/-- What was put in a hand shake stays known. -/
theorem Host.Discloses.extends (discloses : Host.Discloses before after) :
    before.disclosed <+: after.disclosed := by
  rcases discloses with same | ⟨_, _, _, more, _⟩
  · rw [same]
  · exact ⟨_, more.symm⟩

theorem disclosed_of_run
    (reachable : (hostMachine queue setup).Reachable (fun _ _ => True) before)
    (run : (hostMachine queue setup).Run (fun _ _ => True) before after) :
    before.disclosed <+: after.disclosed := by
  have both : (hostMachine queue setup).Reachable (fun _ _ => True) after ∧
      before.disclosed <+: after.disclosed := by
    induction run with
    | refl => exact ⟨reachable, List.prefix_rfl⟩
    | tail _ _ stepped ih =>
        rcases ih with ⟨reached, more⟩
        rcases hostOk_of_any reached with ⟨listeners, ok⟩
        exact ⟨reached.tail trivial stepped, more.trans (Host.step_discloses ok stepped).extends⟩
  exact both.2

/-- No region whose tokens were ever put in a hand shake is recorded in a terminal of the pool, so
none is when a terminal is taken from it again.  A terminal that a step leaves in the pool, but for
`TerminalCloser`, keeps the regions it had, and none of them was ever in a hand shake. -/
theorem pooled_regions_secret (queue : CircularQue ℕ) (setup : Setup) {earlier host : Host queue}
    (reachable : (hostMachine queue setup).Reachable (fun _ _ => True) earlier)
    (run : (hostMachine queue setup).Run (fun _ _ => True) earlier host) :
    (∀ region ∈ earlier.disclosed, ∀ conId ∈ queue.items host.connPool,
      ¬(host.connections conId).Records region) ∧
    (∀ conId rest, queue.get host.connPool = some (conId, rest) →
      ∀ region, (host.connections conId).Records region → region ∉ host.disclosed) ∧
    ∀ action after, Host.step setup.config host action = .ok after → action.Plain →
      ∀ conId ∈ queue.items after.connPool, ∀ region, (host.connections conId).Records region →
        (after.connections conId).Records region ∧ region ∉ after.disclosed := by
  have reached := reachable.trans run
  rcases hostOk_of_any reached with ⟨listeners, ok⟩
  refine ⟨?_, ?_, ?_⟩
  · intro region disclosed conId free records
    have known : region ∈ host.disclosed := (disclosed_of_run reachable run).mem disclosed
    exact ok.regions.secretPool conId free region records known
  · intro conId rest taken region records
    have free : conId ∈ queue.items host.connPool := by simp [(queue.items_of_get taken).1]
    exact ok.regions.secretPool conId free region records
  · intro action after stepped plain conId back region records
    have kept : (after.connections conId).Records region := by
      have keeps := Host.step_keeps ok plain stepped
      exact records.imp (keeps.tag conId region) (keeps.mem conId region)
    rcases hostOk_of_any (reached.tail trivial stepped) with ⟨listeners', ok'⟩
    exact ⟨kept, ok'.regions.secretPool conId back region kept⟩

/-- A terminal that comes back with two regions, and is taken again with them. -/
theorem pooled_regions_secret_reused :
    ∃ host : Host (boundedQueue ℕ), (host.connections 1).pMemRegion = some 4 ∧
      (host.connections 1).pTagRegion = some 3 ∧ 4 ∉ host.disclosed ∧ 3 ∉ host.disclosed := by
  have passes : (sampleRun (sampleReused.take 2)).toOption.any (fun host =>
      ((boundedQueue ℕ).get host.connPool).map Prod.fst = some 1 ∧
        (host.connections 1).pMemRegion = some 4 ∧ (host.connections 1).pTagRegion = some 3) =
      true := by decide +kernel
  rcases sampleRun_reaches (fun _ _ _ => trivial) passes with ⟨host, reachable, holds⟩
  rcases of_decide_eq_true holds with ⟨front, mem, tag⟩
  rcases Option.map_eq_some_iff.mp front with ⟨⟨conId, rest⟩, taken, same⟩
  cases same
  have secret := (pooled_regions_secret _ _ reachable (.refl host)).2.1 1 rest taken
  exact ⟨host, mem, tag, secret 4 (.inr mem), secret 3 (.inl tag)⟩

end Runs

end Hermes
