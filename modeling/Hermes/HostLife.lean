import Hermes.HostTables
import Hermes.HostMoves

/-!
# The life of a socket

Every operation but `Send` and the closing of a terminal, and every completion, stays in
its scope: a slot is either freed, or its socket has the same handle and lives on from
state to state, a connected one is not touched, and no terminal but the socket's own is.
-/

namespace Hermes

open Program

variable {queue : CircularQue ℕ} {config : HostConfig}

namespace Host

variable {scope : Scope} {host before after : Host queue} {id pSock arena : ℕ}
  {err : StatusCode} {hr : HRESULT} {replies : Replies} {Result Next : Type}

section Rules

/-- What lets code find its way without leaving its scope: it may touch all sockets that are not
connected, and their terminals. -/
structure Within (config : HostConfig) (scope : Scope) (host : Host queue) : Prop where
  invalid : scope.terms invalidTermId
  pool : scope.lives → ∀ conId ∈ queue.items host.connPool, scope.terms conId
  free : ∀ {id}, (scope.lives → (host.sockTbl id).state ≠ .connected) → scope.socks id
  owned : scope.lives → ∀ {id}, config.SockId id → scope.socks id →
    scope.terms (host.sockTbl id).term
  capacity : scope.lives → queue.getCapacity host.sockPool = 2 * config.maxConnection
  index : scope.lives → ∀ {id}, config.SockId id → handleToId (host.sockTbl id).handle = id
  calm : ¬scope.lives → ∀ conId, scope.terms conId

theorem within_calm (host : Host queue) : Within config .calm host :=
  ⟨trivial, False.elim, fun _ => trivial, False.elim, False.elim, False.elim, fun _ _ => trivial⟩

/-- A scope with all sockets and terminals. -/
theorem within_of_ok {mode : Mode} {listeners : List ℕ} {hand : Hand}
    (ok : HostOk config mode listeners hand host) (socks : ∀ id, scope.socks id)
    (terms : ∀ conId, scope.terms conId) : Within config scope host where
  invalid := terms _
  pool _ _ _ := terms _
  free _ := socks _
  owned _ _ _ _ := terms _
  capacity _ := ok.sockCapacity
  index _ _ sockId := handleToId_sock ok sockId
  calm _ := terms

theorem Within.moved (within : Within config scope before)
    (moves : Moves config scope before after) :
    Within config scope after where
  invalid := within.invalid
  pool lives conId member := by
    rcases (moves.lived lives).connPool conId member with old | inScope
    · exact within.pool lives conId old
    · exact inScope
  free {id} state := by
    by_cases lives : scope.lives
    · by_contra outside
      refine outside (within.free fun _ => ?_)
      rw [← ((moves.lived lives).socks id outside).1]
      exact state lives
    · exact within.free fun live => absurd live lives
  owned lives id sockId inScope := by
    rcases (moves.lived lives).owned id with same | inScope'
    · rw [same]
      exact within.owned lives sockId inScope
    · exact inScope'
  capacity lives := (moves.lived lives).sockPool.trans (within.capacity lives)
  index lives _ sockId := ((moves.lived lives).sockets _).index.trans (within.index lives sockId)
  calm := within.calm

/-- The terminal of a socket in scope. -/
theorem Within.terms (within : Within config scope host) (sockId : scope.lives → config.SockId id)
    (inScope : scope.socks id) : scope.terms (host.sockTbl id).term := by
  by_cases lives : scope.lives
  · exact within.owned lives (sockId lives) inScope
  · exact within.calm lives _

/-- The code goes on in its scope. -/
theorem after_step {code : Code queue Result} {next : Result → Code queue Next}
    (within : Within config scope host) (first : InScopeAt config scope host code)
    (rest : ∀ result after, Within config scope after → code host = .ok (result, after) →
      InScopeAt config scope after (next result)) :
    InScopeAt config scope host (code >>= next) :=
  first.bind fun result after returned =>
    rest result after (within.moved (first.of_ok returned)) returned

/-- After code that leaves the sockets alone. -/
theorem after_still {code : Code queue Result} {next : Result → Code queue Next}
    (within : Within config scope host) (first : InScope config scope.still code)
    (rest : ∀ result after, Within config scope after →
      (scope.lives → after.sockTbl = host.sockTbl) → InScopeAt config scope after (next result)) :
    InScopeAt config scope host (code >>= next) := by
  have moves : InScopeAt config scope host code :=
    (first host).mono (fun _ moved => moved.of_still) fun _ stops => stops
  refine after_step within moves fun result after within returned => ?_
  refine rest result after within fun lives => ?_
  exact funext fun id => ((((first host).of_ok returned).lived lives).socks id False.elim).1

theorem getSocket_some (found : host.getSocket id = some pSock) : pSock = id := by
  unfold getSocket at found
  split at found
  · exact (Option.some.inj found).symm
  · cases found

theorem Within.sockId (within : Within config scope host) (lives : scope.lives)
    (found : host.getSocket id = some pSock) : config.SockId id := by
  unfold getSocket at found
  rw [within.capacity lives] at found
  split at found
  case isTrue inside => exact inside
  case isFalse => cases found

theorem Within.findSocket (within : Within config scope host) {handle : UInt64}
    (found : host.findSocket handle = some pSock) (lives : scope.lives) : config.SockId pSock := by
  unfold Host.findSocket at found
  cases slot : host.getSocket (handleToId handle) with
  | none =>
      rw [slot] at found
      cases found
  | some id =>
      rw [slot] at found
      dsimp only at found
      split at found
      · cases found
        rw [getSocket_some slot]
        exact within.sockId lives slot
      · cases found

end Rules

section Sockets

/-- The socket goes to another state. -/
theorem inScope_setState (within : Within config scope host) {change : HSocket → HSocket}
    (same : (change (host.sockTbl id)).handle = (host.sockTbl id).handle ∧
      (change (host.sockTbl id)).term = (host.sockTbl id).term)
    (next : (host.sockTbl id).state.Next (change (host.sockTbl id)).state) :
    InScopeAt config scope host (modifySocket id change) := by
  have free : (host.sockTbl id).state ≠ .connected := by
    intro connected
    rw [connected] at next
    cases next
  exact .setSocket (within.free fun _ => free) (fun _ => same.1) (fun _ => .single next)
    (fun _ _ => same.2) fun _ => .inl same.2

/-- Another field of a socket that is not connected changes. -/
theorem inScope_setField (within : Within config scope host)
    (free : scope.lives → (host.sockTbl id).state ≠ .connected) {change : HSocket → HSocket}
    (same : (change (host.sockTbl id)).handle = (host.sockTbl id).handle ∧
      (change (host.sockTbl id)).state = (host.sockTbl id).state)
    (term : (change (host.sockTbl id)).term = (host.sockTbl id).term ∨
      scope.terms (change (host.sockTbl id)).term) :
    InScopeAt config scope host (modifySocket id change) := by
  refine .setSocket (within.free free) (fun _ => same.1) (fun _ => ?_)
    (fun lives connected => absurd connected (free lives)) fun _ => term
  rw [same.2]
  exact .refl

/-- A socket is allocated. -/
theorem inScope_allocateSocket (within : Within config scope host) :
    Ensures (allocateSocket : Code queue (StatusCode × Option ℕ))
      (fun result after => Moves config scope host after ∧
        ∀ id, result.2 = some id → (after.sockTbl id).state = .disconnected ∧
          (scope.lives → config.SockId id))
      scope.Fault host := by
  refine .step apply_get ?_
  cases taken : queue.get host.sockPool with
  | none => exact ⟨.refl host, by simp⟩
  | some pair =>
      have moved : Moves config scope host { host with sockPool := pair.2 } :=
        .setSockPool (queue.items_of_get taken).2
      refine .step rfl (ensures_derefPtr (fun _ => fault_of_ne (by simp)) fun pSock found => ?_)
      cases getSocket_some found
      refine ensures_audit (fun _ => fault_assert (by simp [poolChecks])) fun inpool => ?_
      refine ensures_audit (fun _ => fault_assert (by simp [poolChecks])) fun _ => ?_
      refine ensures_audit (fun _ => fault_assert (by simp [poolChecks])) fun _ => ?_
      have sets : InScopeAt config scope { host with sockPool := pair.2 } (modifySocket pair.1
          fun sock => { sock with state := .disconnected } : Code queue PUnit) :=
        inScope_setState (within.moved moved) ⟨rfl, rfl⟩ (by rw [inpool]; exact .allocated)
      refine .step rfl (.of_eq rfl ⟨trans_of _ moved (sets.of_ok rfl), ?_⟩)
      rintro id (⟨⟩)
      exact ⟨by simp, fun lives => within.sockId lives found⟩

theorem freeSocket_frees :
    Ensures (freeSocket id) (fun _ after => SlotFreed id host after) scope.Fault host := by
  refine .step apply_get (ensures_derefPtr (fun _ => fault_of_ne (by simp)) fun pSock found => ?_)
  cases getSocket_some found
  refine ensures_audit (fun _ => fault_assert (by simp [poolChecks])) fun _ => ?_
  generalize fresh : (host.sockTbl id).handle + 0x100000000 = handle
  refine .step rfl (.step rfl (ensures_audit (fun _ => fault_assert (by simp [poolChecks]))
    fun _ => ?_))
  dsimp only
  cases added : queue.add host.sockPool id with
  | none => exact fault_assert (by simp [poolChecks])
  | some sockPool =>
      refine .of_eq rfl ⟨sockPool, (queue.items_of_add added).2, ?_⟩
      rw [fresh]

/-- A slot is freed whose socket is not connected. -/
theorem inScope_freeSocket (within : Within config scope host)
    (free : scope.lives → (host.sockTbl id).state ≠ .connected) :
    InScopeAt config scope host (freeSocket id) :=
  freeSocket_frees.mono (fun _ _ freed => .freed freed (within.free free) free)
    fun _ stops => stops

/-- The handler of a call that has ended runs at once. -/
theorem inScopeAt_finishCall (asyncs : scope.asyncs) (within : Within config scope host) {ov : ℕ}
    {handler : Code queue PUnit} (handles : ∀ after, Within config scope after →
      (scope.lives → after.sockTbl = host.sockTbl) → InScopeAt config scope after handler) :
    InScopeAt config scope host (finishCall ov hr handler) := by
  unfold finishCall
  split
  · refine after_still within (inScope_record asyncs) fun _ after within same => ?_
    exact (handles after within same).bind fun _ last _ => inScope_freeObj asyncs last
  · exact inScope_pend asyncs host

/-- A socket is parted from its terminal and freed. -/
theorem inScope_partAndFree (within : Within config scope host) {handle : UInt64}
    (free : scope.lives → (host.sockTbl id).state ≠ .connected ∧ handleToId handle = id)
    {next : PUnit → Code queue Result} (rest : ∀ done, InScope config scope (next done)) :
    InScopeAt config scope host (do
      modifySocket id fun sock => { sock with term := invalidTermId }
      let done ← freeSocket (handleToId handle)
      next done) := by
  refine after_step within (inScope_setField within (fun lives => (free lives).1) ⟨rfl, rfl⟩
    (.inr within.invalid)) fun _ after within returned => ?_
  cases returned
  refine (inScope_freeSocket within fun lives => ?_).bind fun done last _ => rest done last
  rw [(free lives).2]
  simpa using (free lives).1

end Sockets

section Listening

theorem inScope_createSocket (within : Within config scope host) :
    InScopeAt config scope host (createSocket : Code queue (StatusCode × UInt64)) := by
  refine .step apply_get ?_
  split
  · exact inScope_pure _ host
  refine Ensures.bind (inScope_allocateSocket within) fun result after allocated => ?_
  rcases result with ⟨err, none | pSock⟩
  · exact allocated.1
  · refine AdvancesAt.after ?_ allocated.1
    exact .step apply_get (((inScope_deliver _).bind fun _ => inScope_pure _) after)

theorem inScope_listenCleanup (within : Within config scope host)
    (state : (host.sockTbl id).state = .startToListen) :
    InScopeAt config scope host (listenCleanup id : Code queue PUnit) := by
  refine after_step within (inScope_setState within ⟨rfl, rfl⟩ (by rw [state]; exact .listenFailed))
    fun _ after within returned => ?_
  cases returned
  refine .step apply_get ?_
  split
  · refine after_still within (inScope_release _) fun _ last within same => ?_
    refine inScope_setField within (fun lives => ?_) ⟨rfl, rfl⟩ (.inl rfl)
    rw [same lives]
    simp
  · exact inScope_pure _ _

/-- `Listen` leaves the state alone until it listens. -/
theorem inScope_startToListen (within : Within config scope host)
    (state : (host.sockTbl id).state = .startToListen) (port : UInt16) :
    Ensures (startToListen id port replies : Code queue StatusCode)
      (fun err after => Moves config scope host after ∧
        (err ≠ hOk → (after.sockTbl id).state = .startToListen))
      scope.Fault host := by
  have inScope : scope.socks id := within.free fun _ => by simp [state]
  have sets : ∀ state' port, SocketState.startToListen.Lives state' →
      Moves config scope host (listening host id state' port) := by
    intro state' port lives
    have moved : Moves config scope host { host with
        sockTbl := Function.update host.sockTbl id
          { host.sockTbl id with pListen := some host.objects, state := state', port } } :=
      .setSocket inScope (fun _ => rfl) (fun _ => by rwa [state]) (fun _ _ => rfl) fun _ => .inl rfl
    refine trans_of _ moved ?_
    exact .of_same rfl rfl (Nat.le_succ _) List.prefix_rfl
  have started : Ensures (startToListen id port replies) _ scope.Fault host :=
    startToListen_ensures state
  refine started.mono ?_ fun _ stops => stops
  rintro err after (⟨_, rfl⟩ | ⟨_, port, rfl⟩ | ⟨good, rfl⟩)
  · exact ⟨.refl _, fun _ => state⟩
  · exact ⟨sets _ _ .refl, fun _ => by simp [listening]⟩
  · exact ⟨sets _ _ (.single .listens), fun bad => absurd good bad⟩

theorem inScope_listen (within : Within config scope host) (handle : UInt64) (port : UInt16) :
    InScopeAt config scope host (listen handle port replies : Code queue StatusCode) := by
  refine .step apply_get ?_
  cases host.findSocket handle with
  | none => exact inScope_pure _ host
  | some pSock =>
      dsimp only
      split
      · exact inScope_pure _ host
      case isFalse open' =>
        have state := not_not.mp (not_or.mp open').2
        refine after_step within (inScope_setState within ⟨rfl, rfl⟩
          (by rw [state]; exact .startsToListen)) fun _ after within returned => ?_
        cases returned
        refine Ensures.bind (inScope_startToListen within (by simp) port)
          fun err last started => ?_
        refine AdvancesAt.after ?_ started.1
        split
        case isTrue bad =>
          exact (inScope_listenCleanup (within.moved started.1) (started.2 bad)).bind
            fun _ last _ => inScope_pure _ last
        · exact inScope_pure _ last

end Listening

section Accepting

variable (asyncs : scope.asyncs)
include asyncs

theorem inScope_onConnAccepted (within : Within config scope host)
    (sockId : scope.lives → config.SockId id) :
    InScopeAt config scope host (onConnAccepted config id hr arena replies) := by
  have final : ∀ err, InScope config scope
      (onConnAcceptedFinal config id err arena : Code queue PUnit) :=
    fun _ => inScope_onConnAcceptedFinal asyncs
  unfold onConnAccepted
  split
  · exact final hr host
  refine .step apply_get ?_
  refine ensures_audit (fun _ => fault_assert (by simp [poolChecks])) fun state => ?_
  have inScope : scope.terms (host.sockTbl id).term := by
    refine within.terms sockId (within.free fun _ => ?_)
    rcases state with state | state
    all_goals simp [state]
  refine after_step within (inScope_setState within ⟨rfl, rfl⟩ ?_)
    fun _ agreed within returned => ?_
  · rcases state with state | state
    · rw [state]
      exact .acceptAgreed
    · rw [state]
      exact .connectAgreed
  cases returned
  refine after_still within (inScope_getTerminal _) fun pTerm after within same => ?_
  refine after_still within (inScope_derefPtr _ _) fun connector after within same' => ?_
  split
  · exact final _ after
  have located : InScope config scope.still
      (modifyTerminal (host.sockTbl id).term fun term =>
        { term with rmtIpAddr := replies.peerIp, rmtPort := replies.peerPort } :
          Code queue PUnit) :=
    inScope_modifyTerminal inScope (fun _ _ => .of_traffic rfl) fun _ => rfl
  refine after_still within located fun _ after within same'' => ?_
  split
  · exact final _ after
  have free : scope.lives → (after.sockTbl id).state ≠ .connected := by
    intro lives
    rw [same'' lives, same' lives, same lives]
    simp
  refine after_step within (inScope_setField within free ⟨rfl, rfl⟩ (.inl rfl))
    fun _ after within _ => ?_
  refine after_still within (inScope_audit (by simp [poolChecks])) fun _ after within _ => ?_
  refine after_still within (inScope_derefPtr _ _) fun continuation after within _ => ?_
  refine after_still within (inScope_getObj asyncs) fun ov after within _ => ?_
  refine after_still within (inScope_finishCall asyncs (inScope_onDisconNotified _))
    fun _ after within _ => ?_
  refine .step apply_get ?_
  refine ensures_audit (fun _ => fault_assert (by simp [poolChecks])) fun agreed => ?_
  refine after_step within (inScope_setState within ⟨rfl, rfl⟩ (by rw [agreed]; exact .connected))
    fun _ after _ _ => ?_
  refine .step apply_get (((inScope_derefPtr _ _).bind fun notifier => ?_) after)
  exact (inScope_notify _ _ _).bind fun _ => inScope_retire asyncs

/-- A socket the code may work with. -/
def FreeAt (config : HostConfig) (scope : Scope) (host : Host queue) (id : ℕ) : Prop :=
  scope.lives → config.SockId id ∧ (host.sockTbl id).state ≠ .connected

theorem inScope_processConnReqFinal (within : Within config scope host)
    (free : FreeAt config scope host id) :
    InScopeAt config scope host (processConnReqFinal config id err arena) := by
  have inScope := within.terms (fun lives => (free lives).1)
    (within.free fun lives => (free lives).2)
  have index := fun lives => within.index lives (free lives).1
  refine .step apply_get (after_still within (inScope_getTerminal _) fun pT after within same => ?_)
  dsimp only
  split
  · exact ((inScope_post _ _).bind fun _ => inScope_retire asyncs) after
  have freed : ∀ middle : Host queue, Within config scope middle →
      (scope.lives → middle.sockTbl = host.sockTbl) → InScopeAt config scope middle (do
        freeTerminal config (host.sockTbl id).term
        modifySocket id fun sock => { sock with term := invalidTermId }
        let done ← freeSocket (handleToId (host.sockTbl id).handle)
        retire arena) := by
    intro middle within same
    refine after_still within (inScope_freeTerminal inScope) fun _ last within same' => ?_
    refine inScope_partAndFree within (fun lives => ⟨?_, index lives⟩)
      fun _ => inScope_retire asyncs
    rw [same' lives, same lives]
    exact (free lives).2
  split
  · refine after_still within (inScope_notify _ _ _) fun _ middle within same' => ?_
    exact freed middle within fun lives => (same' lives).trans (same lives)
  · exact freed after within same

theorem inScope_processConnReq (discloses : scope.discloses) (within : Within config scope host)
    (free : FreeAt config scope host id) :
    InScopeAt config scope host (processConnReq config id hr arena replies) := by
  have sockId := fun lives => (free lives).1
  have inScope := within.terms sockId (within.free fun lives => (free lives).2)
  refine .step apply_get ?_
  split
  · exact inScope_processConnReqFinal asyncs within free
  split
  · exact inScope_processConnReqFinal asyncs within free
  refine after_still within (inScope_audit (by simp [poolChecks])) fun _ _ within same => ?_
  refine after_still within (inScope_getTerminal _) fun pTerm _ within same' => ?_
  refine after_still within (inScope_record asyncs) fun _ _ within same'' => ?_
  refine after_still within (inScope_derefPtr _ _) fun connector last within same3 => ?_
  split
  · refine inScope_processConnReqFinal asyncs within fun lives => ?_
    rw [same3 lives, same'' lives, same' lives, same lives]
    exact free lives
  refine after_still within (inScope_audit (by simp [poolChecks])) fun _ _ within _ => ?_
  refine after_still within (inScope_startTerminal asyncs inScope) fun _ _ within _ => ?_
  refine after_still within (inScope_prepareHandShakeData asyncs discloses)
    fun _ _ within _ => ?_
  refine after_still within (inScope_record asyncs) fun _ _ within _ => ?_
  refine after_still within (inScope_getObj asyncs) fun ov _ within _ => ?_
  exact inScopeAt_finishCall asyncs within fun last within _ =>
    inScope_onConnAccepted asyncs within sockId

theorem inScope_onConn (discloses : scope.discloses) (within : Within config scope host)
    (free : FreeAt config scope host id) (pListen : ℕ) :
    InScopeAt config scope host (onConn config id pListen hr arena replies) := by
  refine after_still within (inScope_release _) fun _ after within same => ?_
  refine inScope_processConnReq asyncs discloses within fun lives => ?_
  rw [same lives]
  exact free lives

omit asyncs in
theorem inScope_acceptCleanup (within : Within config scope host)
    (free : FreeAt config scope host id) :
    InScopeAt config scope host (acceptCleanup config id) := by
  have inScope := within.terms (fun lives => (free lives).1)
    (within.free fun lives => (free lives).2)
  have index := fun lives => within.index lives (free lives).1
  refine .step apply_get ?_
  dsimp only
  split
  · refine after_still within (inScope_freeTerminal inScope) fun _ after within same => ?_
    refine after_step within (inScope_setField within (fun lives => ?_) ⟨rfl, rfl⟩
      (.inr within.invalid)) fun _ last within returned => ?_
    · rw [same lives]
      exact (free lives).2
    · cases returned
      refine inScope_freeSocket within fun lives => ?_
      rw [index lives]
      simpa [same lives] using (free lives).2
  · refine inScope_freeSocket within fun lives => ?_
    rw [index lives]
    exact (free lives).2

theorem inScope_accept (discloses : scope.discloses) (lives : scope.lives)
    (within : Within config scope host) (handle : UInt64) (connectCallback rcvCallback : ℕ) :
    InScopeAt config scope host
      (accept config handle connectCallback rcvCallback replies) := by
  refine .step apply_get ?_
  cases host.findSocket handle with
  | none => exact inScope_pure _ host
  | some pSock =>
      dsimp only
      split
      · exact inScope_pure _ host
      refine Ensures.bind (inScope_allocateSocket within) fun result after allocated => ?_
      rcases result with ⟨err, none | pConnect⟩
      · exact allocated.1
      rcases allocated.2 pConnect rfl with ⟨state, sockId⟩
      refine AdvancesAt.after ?_ allocated.1
      refine after_step (within.moved allocated.1) (inScope_setState (within.moved allocated.1)
        ⟨rfl, rfl⟩ (by rw [state]; exact .accepts)) fun _ accepting within returned => ?_
      cases returned
      have free : ∀ later : Host queue, later.sockTbl = Function.update after.sockTbl pConnect
          { after.sockTbl pConnect with state := .accept1 } →
            FreeAt config scope later pConnect := by
        intro later same lives
        rw [same]
        exact ⟨sockId lives, by simp⟩
      have cleans : ∀ (later : Host queue) (err : StatusCode), Within config scope later →
          FreeAt config scope later pConnect → InScopeAt config scope later (do
            acceptCleanup config pConnect
            return err) :=
        fun later err within free => (inScope_acceptCleanup within free).bind fun _ last _ =>
          inScope_pure _ last
      refine .step apply_get ?_
      dsimp only
      split
      · exact cleans _ _ within (free _ rfl)
      refine after_still within (inScope_addRef _) fun _ first within same => ?_
      refine after_still within (inScope_audit (by simp [poolChecks]))
        fun _ second within same' => ?_
      have allocates : ∀ parent : UInt64,
          Ensures (allocTerminal config parent replies) _ scope.still.Fault second :=
        fun _ =>
          inScope_allocTerminal asyncs within.invalid (within.pool lives)
      refine Ensures.bind (allocates _) fun result third taken => ?_
      have unchanged : third.sockTbl = Function.update after.sockTbl pConnect
          { after.sockTbl pConnect with state := .accept1 } := by
        have still : third.sockTbl = second.sockTbl :=
          funext fun id => ((taken.1.lived lives).socks id False.elim).1
        exact still.trans ((same' lives).trans (same lives))
      refine AdvancesAt.after ?_ taken.1.of_still
      have within := within.moved taken.1.of_still
      refine after_step within
        (inScope_setField within (fun lives => (free third unchanged lives).2)
        ⟨rfl, rfl⟩ (.inr taken.2)) fun _ owned within returned => ?_
      cases returned
      have free' : ∀ later : Host queue, later.sockTbl = Function.update third.sockTbl pConnect
          { third.sockTbl pConnect with term := result.2 } →
            FreeAt config scope later pConnect := by
        intro later same lives
        rw [same]
        simpa using free third unchanged lives
      split
      · exact cleans _ _ within (free' _ rfl)
      refine after_still within (inScope_getTerminal _) fun _ _ within same => ?_
      refine after_still within (inScope_setNotifiers taken.2) fun _ _ within same' => ?_
      refine after_still within (inScope_getNewArena asyncs) fun arena _ within same'' => ?_
      refine after_still within (inScope_record asyncs) fun _ _ within same3 => ?_
      refine after_still within (inScope_getObj asyncs) fun ov _ within same4 => ?_
      refine AdvancesAt.bind (inScopeAt_finishCall asyncs within fun last within same5 => ?_)
        fun _ last _ => inScope_pure _ last
      refine inScope_onConn asyncs discloses within (free' last ?_) _
      rw [same5 lives, same4 lives, same3 lives, same'' lives, same' lives, same lives]

end Accepting

section Closing

/-- `TryCloseSocket` frees sockets that are not connected. -/
theorem inScope_tryCloseSocket (within : Within config scope host)
    (sockId : scope.lives → config.SockId id) :
    InScopeAt config scope host (tryCloseSocket config id err) := by
  have index := fun lives => within.index lives (sockId lives)
  refine .step apply_get ?_
  dsimp only
  have freed : ∀ after : Host queue, Within config scope after →
      (scope.lives → (after.sockTbl id).state = .stopping) → InScopeAt config scope after (do
        freeSocket (handleToId (host.sockTbl id).handle)
        return true) := by
    intro after within state
    refine (inScope_freeSocket within fun lives => ?_).bind fun _ last _ => inScope_pure _ last
    rw [index lives, state lives]
    simp
  split
  case h_1 state =>
    refine after_step within (inScope_setState within ⟨rfl, rfl⟩ (by rw [state]; exact .stops))
      fun _ after within returned => ?_
    cases returned
    exact freed _ within fun _ => by simp
  case h_2 =>
    refine ((inScope_audit (by simp [poolChecks])).bind fun _ => ?_) host
    refine (inScope_getTerminal _).bind fun pTerm => (inScope_derefPtr _ _).bind fun _ => ?_
    exact (inScope_post _ _).bind fun _ => inScope_pure _
  case h_3 state =>
    refine ensures_audit (fun _ => fault_assert (by simp [poolChecks])) fun _ => ?_
    refine after_step within (inScope_setState within ⟨rfl, rfl⟩
      (by rw [state]; exact .stopsListening)) fun _ middle within returned => ?_
    cases returned
    refine after_still within (inScope_releasePtr _) fun _ last within same => ?_
    refine freed last within fun lives => ?_
    rw [same lives]
    simp
  case h_4 => exact inScope_pure _ host

theorem inScope_closeLoop (rounds : ℕ) (within : Within config scope host)
    (sockId : scope.lives → config.SockId id) :
    InScopeAt config scope host (closeLoop config id err rounds) := by
  induction rounds generalizing host with
  | zero => exact inScope_fail _ _ host
  | succ rounds ih =>
      refine .step apply_get ?_
      split
      · exact inScope_pure _ host
      refine after_step within (inScope_tryCloseSocket within sockId) fun done after within _ => ?_
      split
      · exact inScope_pure _ after
      · exact ih within

theorem inScope_closeSocket (within : Within config scope host) (handle : UInt64) :
    InScopeAt config scope host (closeSocket config handle err) := by
  refine .step apply_get ?_
  cases found : host.findSocket handle with
  | none => exact inScope_pure _ host
  | some pSock => exact inScope_closeLoop _ within (within.findSocket found)

theorem inScope_destroySocket (within : Within config scope host)
    (sockId : scope.lives → config.SockId id) :
    InScopeAt config scope host (destroySocket config id) := by
  refine .step apply_get ?_
  split
  · exact inScope_pure _ host
  · exact (inScope_tryCloseSocket within sockId).bind fun _ after _ => inScope_pure _ after

end Closing

section Connecting

/-- `OnConnAck` never gets past its catch block. -/
theorem inScope_onConnAckCatch (within : Within config scope host) :
    InScopeAt config scope host (onConnAckCatch config id err) :=
  .step apply_get ((inScope_closeSocket within _).bind fun _ after _ => inScope_fail _ _ after)

variable (asyncs : scope.asyncs)
include asyncs

theorem inScope_onConnAck (within : Within config scope host)
    (sockId : scope.lives → config.SockId id) :
    InScopeAt config scope host (onConnAck config id hr arena replies) := by
  unfold onConnAck
  split
  · exact inScope_onConnAckCatch within
  refine .step apply_get ?_
  refine ensures_audit (fun _ => fault_assert (by simp [poolChecks])) fun state => ?_
  have inScope := within.terms sockId (within.free fun _ => by simp [state])
  refine after_step within (inScope_setState within ⟨rfl, rfl⟩
    (by rw [state]; exact .acknowledged)) fun _ _ within _ => ?_
  refine after_still within (inScope_getTerminal _) fun pTerm _ within _ => ?_
  refine after_still within (inScope_record asyncs) fun _ _ within _ => ?_
  refine after_still within (inScope_derefPtr _ _) fun connector _ within _ => ?_
  split
  · exact inScope_onConnAckCatch within
  refine after_still within (inScope_audit (by simp [poolChecks])) fun _ _ within _ => ?_
  refine after_still within (inScope_startTerminal asyncs inScope) fun _ _ within _ => ?_
  refine after_still within (inScope_getObj asyncs) fun ov _ within _ => ?_
  exact inScopeAt_finishCall asyncs within fun last within _ =>
    inScope_onConnAccepted asyncs within sockId

theorem inScope_connectCleanup (within : Within config scope host)
    (sockId : scope.lives → config.SockId id)
    (state : scope.lives → (host.sockTbl id).state = .connecting) (lives : scope.lives) :
    InScopeAt config scope host (connectCleanup config id arena) := by
  refine after_step within (inScope_setState within ⟨rfl, rfl⟩
    (by rw [state lives]; exact .connectFailed)) fun _ after within returned => ?_
  cases returned
  have free : scope.lives → ((Function.update host.sockTbl id
      { host.sockTbl id with state := .disconnected, port := 0 }) id).state ≠ .connected := by
    simp
  refine .step apply_get ?_
  split
  · have inScope := within.terms sockId (within.free free)
    refine after_still within (inScope_freeTerminal inScope) fun _ last within same => ?_
    refine AdvancesAt.bind (inScope_setField within (fun lives => ?_) ⟨rfl, rfl⟩
      (.inr within.invalid)) fun _ last _ => inScope_retire asyncs last
    rw [same lives]
    exact free lives
  · exact inScope_retire asyncs _

theorem inScope_connect (discloses : scope.discloses) (lives : scope.lives)
    (within : Within config scope host) (handle : UInt64) (connectCallback rcvCallback : ℕ) :
    InScopeAt config scope host
      (connect config handle connectCallback rcvCallback replies) := by
  refine .step apply_get ?_
  cases found : host.findSocket handle with
  | none => exact inScope_pure _ host
  | some pSock =>
      dsimp only
      split
      · exact inScope_pure _ host
      case isFalse open' =>
        have state := not_not.mp (not_or.mp open').2
        have sockId := within.findSocket found
        refine after_step within (inScope_setState within ⟨rfl, rfl⟩
          (by rw [state]; exact .connects)) fun _ first within returned => ?_
        cases returned
        have cleaned : ∀ (later : Host queue) (arena : ℕ) (err : StatusCode),
            Within config scope later → (later.sockTbl pSock).state = .connecting →
              InScopeAt config scope later (do
                connectCleanup config pSock arena
                return err) :=
          fun later arena err within state =>
            (inScope_connectCleanup asyncs within sockId (fun _ => state) lives).bind
              fun _ last _ => inScope_pure _ last
        refine after_still within (inScope_getNewArena asyncs)
          fun arena second within same => ?_
        refine after_still within (inScope_record asyncs)
          fun _ third within same' => .step apply_get ?_
        have connecting : (third.sockTbl pSock).state = .connecting := by
          rw [same' lives, same lives]
          simp
        split
        · exact cleaned third _ _ within connecting
        refine after_still within (inScope_audit (by simp [poolChecks]))
          fun _ fourth within same => ?_
        have allocates : ∀ parent : UInt64,
            Ensures (allocTerminal config parent replies) _ scope.still.Fault fourth :=
          fun _ =>
            inScope_allocTerminal asyncs within.invalid (within.pool lives)
        refine Ensures.bind (allocates _) fun result fifth taken => ?_
        have connecting' : (fifth.sockTbl pSock).state = .connecting := by
          rw [((taken.1.lived lives).socks pSock False.elim).1, same lives, connecting]
        refine AdvancesAt.after ?_ taken.1.of_still
        have within := within.moved taken.1.of_still
        refine after_step within (inScope_setField within (fun _ => by simp [connecting'])
          ⟨rfl, rfl⟩ (.inr taken.2)) fun _ owned within returned => ?_
        cases returned
        split
        · exact cleaned _ _ _ within (by simpa using connecting')
        refine after_still within (inScope_getTerminal _) fun pTerm _ within same => ?_
        refine after_still within (inScope_setNotifiers taken.2) fun _ _ within same' => ?_
        refine after_still within (inScope_derefPtr _ _) fun connector _ within same'' => ?_
        split
        · refine cleaned _ _ _ within ?_
          rw [same'' lives, same' lives, same lives]
          simpa using connecting'
        refine after_still within (inScope_getObj asyncs) fun ov _ within _ => ?_
        refine after_still within (inScope_prepareHandShakeData asyncs discloses)
          fun _ _ within _ => ?_
        refine after_still within (inScope_record asyncs) fun _ _ within _ => ?_
        refine AdvancesAt.bind (inScopeAt_finishCall asyncs within fun last within _ =>
          inScope_onConnAck asyncs within sockId) fun _ last _ => inScope_pure _ last

end Connecting

section Steps

variable {mode : Mode} {listeners : List ℕ} (asyncs : scope.asyncs) (discloses : scope.discloses)
include asyncs discloses

/-- A completion goes on with a socket that is not connected. -/
theorem inScope_run (ok : HostOk config mode listeners {} host)
    (within : Within config scope host) (ov : ℕ) :
    InScopeAt config scope host (run config ov hr replies) := by
  by_cases member : ov ∈ host.pending
  · refine .step (unpend_eq member) ?_
    refine ensures_audit (fun _ => fault_assert (by simp [poolChecks])) fun _ => .step apply_get ?_
    refine ensures_derefPtr (fun _ => fault_of_ne (by simp)) fun next found => ?_
    rcases next with ⟨job, arena⟩
    have outstanding : host.Pends ov job := ⟨member, congrArg (Option.map Prod.fst) found⟩
    have ready := ok.jobs.ready outstanding
    have handled : ∀ {after : Host queue}, Within config scope after →
        (scope.lives → after.sockTbl = host.sockTbl) →
          InScopeAt config scope after (runJob config job arena hr replies) := by
      intro after within same
      cases job
      case onTagRegistered => exact inScope_onTagRegistered asyncs after
      case onMemRegistered =>
        exact inScope_onMemRegistered asyncs (inScope_pure _) after
      case onConn id listener =>
        refine inScope_onConn asyncs discloses within (fun lives => ⟨ready.1.1, ?_⟩) listener
        rw [same lives]
        simp [ready.2.1]
      case onConnAck id => exact inScope_onConnAck asyncs within fun _ => ready.1.1
      case onAccepted id => exact inScope_onConnAccepted asyncs within fun _ => ready.1
      case onDisconNotified => exact inScope_onDisconNotified _ after
      case verbCompletion => exact inScope_blocked after
    have moved : Moves config scope.still host { host with pending := host.pending.erase ov } :=
      .of_tables asyncs rfl List.prefix_rfl rfl
    have whole : InScopeAt config scope
        { host with pending := host.pending.erase ov } (do
          record (.ran ov)
          runJob config job arena hr replies
          freeObj ov) := by
      refine after_still (within.moved moved.of_still) (inScope_record asyncs)
        fun _ after within same => ?_
      exact (handled within same).bind fun _ last _ => inScope_freeObj asyncs last
    exact whole.after moved.of_still
  · rw [InScopeAt, AdvancesAt, run, ensures_bind, unpend, ensures_bind, ensures_get,
      if_neg member]
    exact fault_of_ne (by simp)

/-- What a step does that neither sends nor closes a terminal. -/
theorem inScope_perform (lives : scope.lives) (ok : HostOk config mode listeners {} host)
    (within : Within config scope host) {action : HostAction} (plain : action.Plain)
    (quiet : ∀ handle req, action ≠ .send handle req) :
    InScopeAt config scope host (perform config action) := by
  have done : ∀ {Result : Type} {code : Code queue Result},
      InScopeAt config scope host code →
        InScopeAt config scope host (code >>= fun _ => (pure ⟨⟩ : Code queue PUnit)) :=
    fun inScope => inScope.bind fun _ after _ => inScope_pure _ after
  cases action
  case createSocket => exact done (inScope_createSocket within)
  case listen handle port replies => exact done (inScope_listen within handle port)
  case accept handle connectCallback rcvCallback replies =>
    exact done (inScope_accept asyncs discloses lives within handle connectCallback rcvCallback)
  case connect handle connectCallback rcvCallback replies =>
    exact done (inScope_connect asyncs discloses lives within handle connectCallback rcvCallback)
  case send handle req => exact absurd rfl (quiet handle req)
  case closeSocket handle err => exact inScope_closeSocket within handle
  case complete ov hr replies => exact inScope_run asyncs discloses ok within ov
  case shutdown =>
    have shuts : InScope config scope
        (modify fun host => { host with closing := true } : Code queue PUnit) :=
      inScope_modify (fun _ => rfl) (fun _ => rfl) (fun _ => le_rfl) fun _ => List.prefix_rfl
    exact shuts host
  case destroySocket id =>
    refine .step apply_get ?_
    split
    case isTrue destroys =>
      rcases Option.isSome_iff_exists.mp destroys.2 with ⟨pSock, found⟩
      exact inScope_destroySocket within fun _ => (sockId_of_getSocket ok found).2
    · exact inScope_blocked host
  case closeTerminal term => exact absurd plain id

end Steps

section Rules

variable {relation : Host queue → Host queue → Prop} [Std.Refl relation]
  [IsTrans (Host queue) relation]

/-- Code that only works with terminals. -/
def Scope.terminals : Scope := ⟨fun _ => False, fun _ => True, False, False, True⟩

/-- What `Send` moves along when queueing a request does. -/
theorem advances_send {handle : UInt64} {req : SndReq}
    (moves : ∀ {before after}, Moves config .terminals before after → relation before after)
    (queues : ∀ host conId, relation host { host with
      connections := Function.update host.connections conId
        ((host.connections conId).sendLocked req).1 }) :
    Advances relation Stop.PoolSound (send config handle req : Code queue StatusCode) := by
  have sound : ∀ stop, Scope.terminals.Fault stop → stop.PoolSound :=
    fun _ stops => stops.resolve_left id
  apply advances_ite (advances_pure _)
  intro host
  refine .step apply_get ?_
  cases host.findSocket handle with
  | none => exact advances_pure _ host
  | some pSock =>
      dsimp only
      split
      · exact advances_pure _ host
      split
      · exact advances_pure _ host
      have gets : InScope config .terminals
          (getTerminal config (host.sockTbl pSock).term : Code queue Terminal) :=
        inScope_getTerminal _
      refine AdvancesAt.bind ((gets host).mono (fun _ moved => moves moved) sound)
        fun pTerm after _ => ?_
      refine ensures_audit (fun _ => poolSound_assert (by simp [poolChecks])) fun _ => ?_
      exact .step rfl (.of_eq rfl (queues _ _))

omit [Std.Refl relation] in
/-- What the end of a connection moves along when its parts do. -/
theorem advances_closeTerminal {termId : ℕ} {notices : List StatusCode}
    (moves : ∀ {before after}, Moves config .terminals before after → relation before after)
    (clears : ∀ host conId, relation host { host with
      connections := Function.update host.connections conId
        { host.connections conId with pMemRegion := none, pTagRegion := none } })
    (parts : ∀ host id, relation host { host with
      sockTbl := Function.update host.sockTbl id { host.sockTbl id with term := invalidTermId } })
    (frees : ∀ {id before after}, SlotFreed id before after → relation before after) :
    Advances relation Stop.PoolSound
      (closeTerminal config termId notices : Code queue PUnit) := by
  have quietly : ∀ {Result : Type} {code : Code queue Result},
      InScope config .terminals code → Advances relation Stop.PoolSound code :=
    fun inScope host =>
      (inScope host).mono (fun _ moved => moves moved) fun _ stops => stops.resolve_left id
  refine (quietly (inScope_getTerminal termId)).bind fun pTerm => ?_
  apply advances_ite (advances_throw (poolSound_of_ne (by simp)))
  refine (quietly (inScope_notifyAny _ _ _)).bind fun _ => ?_
  refine (quietly (inScope_releaseAny _)).bind fun _ => ?_
  refine (quietly (inScope_releaseAny _)).bind fun _ => ?_
  refine Advances.bind (advances_modify fun host => clears host termId) fun _ => ?_
  have freed : InScope config .terminals (freeTerminal config termId : Code queue PUnit) :=
    inScope_freeTerminal trivial
  refine (quietly freed).bind fun _ => ?_
  refine Advances.bind (advances_modify fun host => parts host _) fun _ host => ?_
  have slot : Ensures (freeSocket (handleToId pTerm.handle)) _ Scope.calm.Fault host :=
    freeSocket_frees
  exact slot.mono (fun _ _ freed => frees freed) fun _ stops => stops.resolve_left id

end Rules

section Elapsed

/-- The slots of the socket table live on or are freed, and notifications are only added. -/
structure Elapsed (before after : Host queue) : Prop where
  sockets : ∀ id, before.frees id < after.frees id ∨
    after.frees id = before.frees id ∧ (after.sockTbl id).handle = (before.sockTbl id).handle ∧
      (before.sockTbl id).state.Lives (after.sockTbl id).state
  buffers : after.buffers = before.buffers
  notified : before.notified <+: after.notified

instance : Std.Refl (Elapsed : Host queue → Host queue → Prop) where
  refl _ := ⟨fun _ => .inr ⟨rfl, rfl, .refl⟩, rfl, List.prefix_rfl⟩

instance : IsTrans (Host queue) Elapsed where
  trans first second third left right := by
    refine ⟨fun id => ?_, right.buffers.trans left.buffers, left.notified.trans right.notified⟩
    rcases left.sockets id with freed | ⟨frees, handle, lives⟩
    · rcases right.sockets id with freed' | ⟨frees', _⟩
      · exact .inl (freed.trans freed')
      · exact .inl (frees' ▸ freed)
    · rcases right.sockets id with freed' | ⟨frees', handle', lives'⟩
      · exact .inl (frees ▸ freed')
      · exact .inr ⟨frees'.trans frees, handle'.trans handle, lives.trans lives'⟩

theorem Moves.elapsed (moves : Moves config scope before after) (lives : scope.lives) :
    Elapsed before after where
  sockets id := by
    rcases ((moves.lived lives).sockets id).life with ⟨frees, handle, lives, _⟩ | ⟨freed, _⟩
    · exact .inr ⟨frees, handle, lives⟩
    · exact .inl freed
  buffers := moves.buffers
  notified := moves.notified

theorem elapsed_step {mode : Mode} {listeners : List ℕ} {action : HostAction}
    (ok : HostOk config mode listeners {} before)
    (stepped : step config before action = .ok after) :
    Elapsed before after := by
  rcases step_eq_ok.mp stepped with ⟨done, performed⟩
  have elapsed : ∀ {first second : Host queue}, Moves config .terminals first second →
      Elapsed first second := fun moves => moves.elapsed trivial
  have within : Within config .any before := within_of_ok ok (fun _ => trivial) fun _ => trivial
  have plainly : action.Plain → (∀ handle req, action ≠ .send handle req) →
      Elapsed before after := fun plain quiet =>
    ((inScope_perform trivial trivial trivial ok within plain quiet).of_ok performed).elapsed
      trivial
  cases action
  case send handle req =>
    have sends : Advances Elapsed Stop.PoolSound
        (perform config (.send handle req) : Code queue PUnit) := by
      refine Advances.bind (advances_send elapsed fun _ _ => ?_) fun _ => advances_pure _
      exact ⟨fun _ => .inr ⟨rfl, rfl, .refl⟩, rfl, List.prefix_rfl⟩
    exact (sends before).of_ok performed
  case closeTerminal term notices =>
    have closes : Advances Elapsed Stop.PoolSound
        (closeTerminal config term notices : Code queue PUnit) := by
      apply advances_closeTerminal elapsed
      case clears => exact fun _ _ => ⟨fun _ => .inr ⟨rfl, rfl, .refl⟩, rfl, List.prefix_rfl⟩
      case parts =>
        refine fun host id => ⟨fun id' => .inr ⟨rfl, ?_⟩, rfl, List.prefix_rfl⟩
        by_cases same : id' = id
        · subst same
          simp only [Function.update_self, true_and]
          exact .refl
        · simp only [Function.update_of_ne same, true_and]
          exact .refl
      case frees =>
        rintro id host _ ⟨sockPool, _, rfl⟩
        refine ⟨fun id' => ?_, rfl, List.prefix_rfl⟩
        by_cases same : id' = id
        · subst same
          exact .inl (by simp)
        · simp only [Function.update_of_ne same, true_and]
          exact .inr .refl
    exact (closes before).of_ok performed
  all_goals exact plainly trivial (by simp)

end Elapsed

end Host

section Runs

variable {setup : Setup} {host before after : Host queue}

/-- Every reachable state satisfies the invariant for any steps. -/
theorem hostOk_of_any {host : Host queue}
    (reachable : (hostMachine queue setup).Reachable (fun _ _ => True) host) :
    ∃ listeners, HostOk setup.config openMode listeners {} host :=
  hostOk_of_reachable (reachable.mono fun _ => Host.admits_openMode)

theorem elapsed_of_run
    (reachable : (hostMachine queue setup).Reachable (fun _ _ => True) before)
    (run : (hostMachine queue setup).Run (fun _ _ => True) before after) :
    Host.Elapsed before after := by
  refine run.advances (fun host => (hostMachine queue setup).Reachable (fun _ _ => True) host)
    (fun holds admitted stepped => holds.tail admitted stepped) ?_ reachable
  intro host action next holds _ stepped
  rcases hostOk_of_any holds with ⟨listeners, ok⟩
  exact Host.elapsed_step ok stepped

/-- In every run each slot of the socket table is freed, or keeps its handle and goes from state to
state as `Next` says: a socket that is connected, or listens, stays so until it is freed. -/
theorem socket_life (queue : CircularQue ℕ) (setup : Setup) {before after : Host queue}
    (reachable : (hostMachine queue setup).Reachable (fun _ _ => True) before)
    (run : (hostMachine queue setup).Run (fun _ _ => True) before after) {id : ℕ}
    (sockId : setup.config.SockId id) :
    (after.sockTbl id).handle = handleOf id (after.frees id) ∧
    (before.frees id < after.frees id ∨
      after.frees id = before.frees id ∧
        (before.sockTbl id).state.Lives (after.sockTbl id).state ∧
        ((before.sockTbl id).state = .connected → (after.sockTbl id).state = .connected) ∧
        ((before.sockTbl id).state = .listening → (after.sockTbl id).state = .listening)) := by
  rcases hostOk_of_any (reachable.trans run) with ⟨listeners, ok⟩
  refine ⟨ok.slots.handles id sockId, ?_⟩
  rcases (elapsed_of_run reachable run).sockets id with freed | ⟨frees, _, lives⟩
  · exact .inl freed
  refine .inr ⟨frees, lives, ?_, ?_⟩
  · intro connected
    rw [connected] at lives
    exact lives.of_connected
  · intro listening
    rw [listening] at lives
    rcases lives.cases_head with same | ⟨state, next, rest⟩
    · exact same.symm
    -- a socket that stops is freed before the step ends
    cases next
    have stopping : (after.sockTbl id).state = .stopping := by
      rcases rest.cases_head with same | ⟨state, next, _⟩
      · exact same.symm
      · cases next
    have fits := ok.slots.sockets id (.of_none sockId rfl)
    simp [SocketOk, stopping] at fits

/-- A socket listens before and after an accept begins. -/
theorem socket_life_listening :
    ∃ before after : Host (boundedQueue ℕ),
      (before.sockTbl 1).state = .listening ∧ (before.frees 1 < after.frees 1 ∨
        after.frees 1 = before.frees 1 ∧ (after.sockTbl 1).state = .listening) := by
  have passes : (sampleRun sampleListen).toOption.any
      (fun host => (host.sockTbl 1).state = .listening ∧
        (Host.step (sampleSetup 8192 1).config host
          (.accept sampleHandle 5 6 {})).toOption.isSome = true) = true := by decide +kernel
  rcases sampleRun_reaches (fun _ _ _ => trivial) passes with ⟨before, reachable, holds⟩
  rcases of_decide_eq_true holds with ⟨listening, steps⟩
  cases stepped : Host.step (sampleSetup 8192 1).config before (.accept sampleHandle 5 6 {}) with
  | error stop =>
      rw [stepped] at steps
      cases steps
  | ok after =>
      have sockId : (sampleSetup 8192 1).config.SockId 1 := ⟨by decide, by decide⟩
      have life := socket_life (boundedQueue ℕ) (sampleSetup 8192 1) reachable
        (.single trivial stepped) sockId
      refine ⟨before, after, listening, life.2.imp_right ?_⟩
      rintro ⟨frees, _, _, stays⟩
      exact ⟨frees, stays listening⟩

end Runs

end Hermes
