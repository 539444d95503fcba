import Hermes.HostRegistrations

/-!
# When the overlapped objects run out

The pool of overlapped objects has 1024 of them for any number of connections.  It is
enough for up to 256 connections as long as a terminal gets new queues only when the
registrations of the attempts before have completed.  Otherwise one connection is too
many: each attempt that fails leaves the two objects of its registrations behind.
-/

namespace Hermes

open Program

variable {queue : CircularQue ℕ} {setup : Setup} {host : Host queue}

/-- In every run of settled steps with up to 256 connections the pool of overlapped objects has an
object left whenever one is needed: at most three of them are held for each connection, and one
more. -/
theorem overlap_pool_suffices (queue : CircularQue ℕ) (setup : Setup)
    (small : setup.config.maxConnection ≤ 256) {host : Host queue}
    (reachable : (hostMachine queue setup).Reachable
      (Host.Admits setup.config settledMode) host) :
    host.pending.length + (queue.items host.overlapPool).length = kibi ∧
    host.pending.length ≤ 3 * setup.config.maxConnection + 1 ∧
    queue.items host.overlapPool ≠ [] ∧
    ∀ action, Host.Admits setup.config settledMode host action →
      Host.step setup.config host action ≠ .error (.abort (.assert "Resource pool empty!")) := by
  rcases hostOk_of_reachable reachable with ⟨listeners, ok⟩
  have held : host.pending.length + (queue.items host.overlapPool).length = kibi := by
    have all := ok.overlaps.all.length_eq
    simp only [List.nil_append, List.length_append, List.length_range] at all
    omega
  have bound : host.pending.length ≤ 3 * setup.config.maxConnection + 1 :=
    ok.pending_length rfl rfl
  refine ⟨held, bound, ?_, ?_⟩
  · intro empty
    rw [empty, List.length_nil, kibi] at held
    omega
  · intro action admitted stopped
    exact (Host.asserts_of_settled reachable admitted stopped).2.2 small rfl

/-- The pool with one connection whose first attempt has failed. -/
theorem overlap_pool_suffices_reused :
    ∃ host : Host (boundedQueue ℕ), host.pending.length = 1 ∧
      host.pending.length + ((boundedQueue ℕ).items host.overlapPool).length = kibi := by
  rcases sampleSettled_reaches with ⟨host, reachable, _, _, pending⟩
  have suffices' := overlap_pool_suffices (boundedQueue ℕ) (sampleSetup 8192 1) (by decide)
    reachable
  exact ⟨host, by rw [pending]; rfl, suffices'.1⟩

namespace Host

section Attempts

variable {config : HostConfig} {ov ov' conId : ℕ} {first second : queue.Que}

/-- The provider completes no registration and lets no connector be bound. -/
def stalledReplies : Replies := { bindConnector := ndCanceled }

/-- The assertion of `ObjectPool::Alloc`. -/
def poolEmpty : Stop := .abort (.assert "Resource pool empty!")

/-- What an attempt that fails leaves as it was. -/
def lasting (host : Host queue) :=
  (host.closing, host.sockTbl, host.sockPool, host.buffers)

theorem getObj_eq {job : AsyncJob} {arena : ℕ} {pReceiver : Option ℕ}
    (taken : queue.get host.overlapPool = some (ov, first)) (blank : host.overlaps ov = {}) :
    getObj job arena pReceiver host = .ok (ov, { host with
      overlapPool := first
      overlaps := Function.update host.overlaps ov ⟨pReceiver, some (job, arena)⟩
      events := host.events ++ [.took ov job arena] }) := by
  rw [getObj, apply_bind apply_get]
  simp only [taken]
  rw [apply_bind (apply_set _), apply_bind (audit_eq blank)]
  rfl

/-- Both registrations take an object and keep it. -/
theorem createMemRegions_stalled (fit : RingsFit config host) (inRange : config.TermId conId)
    (unset : (host.connections conId).pMemRegion = none)
    (taken : queue.get host.overlapPool = some (ov, first))
    (taken' : queue.get first = some (ov', second))
    (blank : host.overlaps ov = {}) (blank' : host.overlaps ov' = {}) (other : ov' ≠ ov) :
    Ensures (createMemRegions config conId stalledReplies)
      (fun _ after => after.overlapPool = second ∧
        (∀ object, object ≠ ov → object ≠ ov' → after.overlaps object = host.overlaps object) ∧
        after.connPool = host.connPool ∧ after.lasting = host.lasting ∧
        after.connections = host.connections)
      (fun _ => False) host := by
  unfold createMemRegions
  refine ensures_getTerminal inRange ?_
  rw [if_neg (not_not.mpr unset)]
  refine .step (getBufPair_eq fit inRange.1 inRange.2) (.step rfl ?_)
  rw [if_neg (by decide)]
  refine .step rfl (.step (getObj_eq taken blank) (.step rfl (.step rfl (.step rfl ?_))))
  rw [if_neg (by decide)]
  have blankNow : Function.update host.overlaps ov
      ⟨some host.objects, some (.onTagRegistered conId host.objects, host.arenas)⟩ ov' = {} :=
    (Function.update_of_ne other _ _).trans blank'
  refine .step rfl (.step (getObj_eq taken' blankNow) (.step rfl (.of_eq rfl ?_)))
  refine ⟨rfl, fun object notFirst notSecond => ?_, rfl, rfl, rfl⟩
  simp [notFirst, notSecond]

/-- The record of a terminal that has its queues and nothing else. -/
structure Supplied (config : HostConfig) (terminal : Terminal) : Prop where
  edges : terminal.rcvEnd.trailingEdge = UInt64.ofNat config.bufSize ∧
    terminal.sndEnd.trailingEdge = UInt64.ofNat config.bufSize
  void : terminal.voidFlds = {}
  queues : ∃ pQuePair pCQ pConnector, terminal.pQuePair = some pQuePair ∧
    terminal.pCQ = some pCQ ∧ terminal.pConnector = some pConnector

theorem prepare_stalled {fault : Stop → Prop} (void : host.connections 1 = {}) :
    Ensures (prepare (sampleSetup 8192 1).config 1 stalledReplies)
      (fun err after => err = hOk ∧ after.overlapPool = host.overlapPool ∧
        after.overlaps = host.overlaps ∧ after.connPool = host.connPool ∧
        after.lasting = host.lasting ∧
        Supplied (sampleSetup 8192 1).config (after.connections 1))
      fault host := by
  unfold prepare
  refine .step apply_get (.step (audit_eq (by simp [void])) (.of_eq rfl ?_))
  refine ⟨rfl, rfl, rfl, rfl, rfl, ⟨rfl, rfl⟩, ?_, _, _, _, rfl, rfl, rfl⟩
  exact Eq.trans rfl (congrArg Terminal.voidFlds void)

/-- The only terminal goes to an attempt that registers its regions. -/
theorem allocTerminal_stalled (fit : RingsFit (sampleSetup 8192 1).config host)
    {parent : UInt64} {connPool : queue.Que}
    (front : queue.get host.connPool = some (1, connPool)) (void : host.connections 1 = {})
    (taken : queue.get host.overlapPool = some (ov, first))
    (taken' : queue.get first = some (ov', second))
    (blank : host.overlaps ov = {}) (blank' : host.overlaps ov' = {}) (other : ov' ≠ ov) :
    Ensures (allocTerminal (sampleSetup 8192 1).config parent stalledReplies)
      (fun result after => result = (hOk, 1) ∧ after.overlapPool = second ∧
        (∀ object, object ≠ ov → object ≠ ov' → after.overlaps object = host.overlaps object) ∧
        after.connPool = connPool ∧ after.lasting = host.lasting ∧
        Supplied (sampleSetup 8192 1).config (after.connections 1))
      (fun _ => False) host := by
  have inRange : (sampleSetup 8192 1).config.TermId 1 := ⟨le_rfl, le_rfl⟩
  unfold allocTerminal
  refine .step apply_get ?_
  simp only [front]
  refine .step rfl (ensures_getTerminal inRange (.step (audit_eq (by simp [void])) ?_))
  have prepares : Ensures (prepare (sampleSetup 8192 1).config 1 stalledReplies) _ (fun _ => False)
      { host with connPool } := prepare_stalled void
  refine prepares.bind ?_
  rintro _ prepared ⟨rfl, overlapPool, overlaps, sameConn, lasting, queued⟩
  rw [if_neg (by decide)]
  have buffers : prepared.buffers = host.buffers := congrArg (·.2.2.2) lasting
  have creates : Ensures (createMemRegions (sampleSetup 8192 1).config 1 stalledReplies) _
      (fun _ => False) prepared :=
    createMemRegions_stalled ⟨fit.small, by rw [buffers]; exact fit.size⟩ inRange
      (congrArg Terminal.pMemRegion queued.void) (by rw [overlapPool]; exact taken) taken'
      (by rw [overlaps]; exact blank) (by rw [overlaps]; exact blank') other
  refine creates.bind ?_
  rintro _ after ⟨pool, kept, sameConn', lasting', connections⟩
  refine .step rfl
    (.of_eq rfl ⟨rfl, pool, ?_, sameConn'.trans sameConn, lasting'.trans lasting, ?_⟩)
  · intro object notFirst notSecond
    exact (kept object notFirst notSecond).trans (congrFun overlaps object)
  · simp only [Function.update_self, connections]
    exact { queued with }

theorem cleanup_stalled (queued : Supplied (sampleSetup 8192 1).config (host.connections 1)) :
    Ensures (cleanup 1)
      (fun _ after => after.overlapPool = host.overlapPool ∧ after.overlaps = host.overlaps ∧
        after.connPool = host.connPool ∧ after.lasting = host.lasting ∧ after.connections 1 = {})
      (fun _ => False) host := by
  rcases queued.queues with ⟨pQuePair, pCQ, pConnector, quePair, cq, connector⟩
  unfold cleanup
  refine .step apply_get ?_
  simp only [connector, quePair, cq]
  refine .step rfl (.of_eq rfl ⟨rfl, rfl, rfl, rfl, ?_⟩)
  simpa using queued.void

theorem freeTerminal_stalled {connPool : queue.Que}
    (queued : Supplied (sampleSetup 8192 1).config (host.connections 1))
    (back : queue.add host.connPool 1 = some connPool) :
    Ensures (freeTerminal (sampleSetup 8192 1).config 1)
      (fun _ after => after.overlapPool = host.overlapPool ∧ after.overlaps = host.overlaps ∧
        after.connPool = connPool ∧ after.lasting = host.lasting ∧ after.connections 1 = {})
      (fun _ => False) host := by
  unfold freeTerminal
  refine ensures_getTerminal ⟨le_rfl, le_rfl⟩ (.step (audit_eq ?_) ?_)
  · rw [queued.edges.1, queued.edges.2]
    decide
  refine (cleanup_stalled queued).bind ?_
  rintro _ after ⟨overlapPool, overlaps, same, lasting, void⟩
  refine .step apply_get ?_
  rw [← same] at back
  simp only [back]
  exact .of_eq rfl ⟨overlapPool, overlaps, rfl, lasting, void⟩

/-- After `count` failed attempts of the sample's only connection: the objects their registrations
took are not back. -/
structure Stalled (state : SocketState) (count : ℕ) (host : Host queue) : Prop where
  fit : RingsFit (sampleSetup 8192 1).config host
  closing : host.closing = false
  sock : host.sockTbl 1 = { state, handle := sampleHandle }
  sockets : queue.getCapacity host.sockPool = 2
  front : queue.items host.connPool = [1] ∧ queue.getCapacity host.connPool = 1
  terminal : host.connections 1 = {}
  pool : queue.items host.overlapPool = List.range' (2 * count) (kibi - 2 * count)
  blank : ∀ ov, 2 * count ≤ ov → host.overlaps ov = {}

theorem range'_pair {count : ℕ} (room : count < 512) :
    List.range' (2 * count) (kibi - 2 * count) = 2 * count :: (2 * count + 1) ::
      List.range' (2 * (count + 1)) (kibi - 2 * (count + 1)) := by
  have more : kibi - 2 * count = (kibi - 2 * (count + 1)) + 1 + 1 := by
    rw [kibi]
    omega
  rw [more, List.range'_succ, List.range'_succ]
  rfl

theorem connectCleanup_stalled {arena : ℕ} {connPool : queue.Que}
    (sock : host.sockTbl 1 = { state := .connecting, handle := sampleHandle, term := 1 })
    (queued : Supplied (sampleSetup 8192 1).config (host.connections 1))
    (back : queue.add host.connPool 1 = some connPool) :
    Ensures (connectCleanup (sampleSetup 8192 1).config 1 arena)
      (fun _ after => after.overlapPool = host.overlapPool ∧ after.overlaps = host.overlaps ∧
        after.connPool = connPool ∧ after.closing = host.closing ∧
        after.sockPool = host.sockPool ∧ after.buffers = host.buffers ∧
        after.sockTbl 1 = { state := .disconnected, handle := sampleHandle } ∧
        after.connections 1 = {})
      (fun _ => False) host := by
  have sockNow : Function.update host.sockTbl 1
      { host.sockTbl 1 with state := .disconnected, port := 0 } 1 =
        { state := .disconnected, handle := sampleHandle, term := 1 } := by
    rw [Function.update_self, sock]
  unfold connectCleanup
  refine .step rfl (.step apply_get ?_)
  dsimp only
  rw [if_pos (by rw [sockNow]; decide)]
  simp only [sockNow]
  have frees : Ensures (freeTerminal (sampleSetup 8192 1).config 1) _ (fun _ => False) { host with
      sockTbl := Function.update host.sockTbl 1
        { host.sockTbl 1 with state := .disconnected, port := 0 } } :=
    freeTerminal_stalled queued back
  refine frees.bind ?_
  rintro _ after ⟨overlapPool, overlaps, same, lasting, void⟩
  simp only [Host.lasting, Prod.mk.injEq] at lasting
  rcases lasting with ⟨closing, sockTbl, sockPool, buffers⟩
  refine .step rfl (.of_eq rfl ⟨overlapPool, overlaps, same, closing, sockPool, buffers, ?_, void⟩)
  simp [sockTbl, sock]

/-- `Connect` from the allocation of the terminal on. -/
def stalledAttempt (parent : UInt64) (arena : ℕ) : Code queue StatusCode := do
  let (err, termId) ← allocTerminal (sampleSetup 8192 1).config parent stalledReplies
  modifySocket 1 fun sock => { sock with term := termId }
  if termId = invalidTermId then do
    connectCleanup (sampleSetup 8192 1).config 1 arena
    return err
  else do
    let pTerm ← getTerminal (sampleSetup 8192 1).config termId
    setNotifiers termId 5 6
    let connector ← derefPtr pTerm.pConnector "Bind"
    if stalledReplies.bindConnector ≠ hOk then do
      connectCleanup (sampleSetup 8192 1).config 1 arena
      return stalledReplies.bindConnector
    else do
      let ov ← getObj (.onConnAck 1) arena (some connector)
      let _ ← prepareHandShakeData (sampleSetup 8192 1).config termId stalledReplies
      record (.used arena)
      finishCall ov stalledReplies.connect
        (onConnAck (sampleSetup 8192 1).config 1 stalledReplies.connect arena stalledReplies)
      return hOk

/-- With two objects left the attempt takes both and leaves them behind. -/
theorem stalledAttempt_fails {count arena : ℕ} {parent : UInt64}
    (stalled : Stalled .connecting count host) (room : count < 512) :
    Ensures (stalledAttempt parent arena)
      (fun _ after => Stalled .disconnected (count + 1) after) (fun _ => False) host := by
  unfold stalledAttempt
  rcases queue.get_cons (stalled.pool.trans (range'_pair room)) with ⟨first, taken, items, _⟩
  rcases queue.get_cons items with ⟨second, taken', items', _⟩
  rcases queue.get_cons stalled.front.1 with ⟨connPool, front, empty, capacity⟩
  refine (allocTerminal_stalled stalled.fit front stalled.terminal taken taken'
    (stalled.blank _ le_rfl) (stalled.blank _ (Nat.le_succ _)) (Nat.succ_ne_self _)).bind ?_
  rintro _ after ⟨rfl, pool, kept, sameConn, lasting, queued⟩
  simp only [Host.lasting, Prod.mk.injEq] at lasting
  rcases lasting with ⟨closing, sockTbl, sockPool, buffers⟩
  rcases queued.queues with ⟨_, _, _, _, _, connector⟩
  refine .step rfl ?_
  rw [if_neg (by decide)]
  refine ensures_getTerminal ⟨le_rfl, le_rfl⟩ (.step rfl ?_)
  refine ensures_derefPtr (fun null => ?_) fun _ _ => ?_
  · cases connector.symm.trans null
  rw [if_pos (by decide)]
  have room' : (queue.items after.connPool).length < queue.getCapacity after.connPool := by
    simp [sameConn, empty, capacity, stalled.front.2]
  rcases queue.add_room room' 1 with ⟨refilled, back, front', capacity'⟩
  have cleans : ∀ {middle : Host queue}, middle.connPool = after.connPool →
      middle.sockTbl 1 = { state := .connecting, handle := sampleHandle, term := 1 } →
      Supplied (sampleSetup 8192 1).config (middle.connections 1) →
        Ensures (connectCleanup (sampleSetup 8192 1).config 1 arena) _ (fun _ => False) middle :=
    fun same sock queued => connectCleanup_stalled sock queued (by rw [same]; exact back)
  refine Ensures.bind (cleans rfl ?_ ?_) ?_
  · simp [sockTbl, stalled.sock]
  · simp only [Function.update_self]
    exact { queued with }
  rintro _ last ⟨overlapPool, overlaps, sameConn', closing', sockPool', buffers', sock, void⟩
  refine .of_eq rfl ?_
  constructor
  case fit =>
    refine ⟨stalled.fit.small, (congrArg Span.size (buffers'.trans buffers)).trans ?_⟩
    exact stalled.fit.size
  case closing => exact closing'.trans (closing.trans stalled.closing)
  case sock => exact sock
  case sockets =>
    exact (congrArg queue.getCapacity (sockPool'.trans sockPool)).trans stalled.sockets
  case front =>
    rw [sameConn', front', capacity', sameConn, empty, capacity]
    exact ⟨rfl, stalled.front.2⟩
  case terminal => exact void
  case pool => rw [overlapPool]; exact (congrArg queue.items pool).trans items'
  case blank =>
    intro ov later
    rw [overlaps]
    refine (kept ov ?_ ?_).trans (stalled.blank ov ?_)
    all_goals omega

/-- Without an object left the registration of the tag region stops the process. -/
theorem createMemRegions_stops (fit : RingsFit config host) (inRange : config.TermId conId)
    (unset : (host.connections conId).pMemRegion = none)
    (empty : queue.get host.overlapPool = none) :
    Ensures (createMemRegions config conId stalledReplies) (fun _ _ => False)
      (· = poolEmpty) host := by
  unfold createMemRegions
  refine ensures_getTerminal inRange ?_
  rw [if_neg (not_not.mpr unset)]
  refine .step (getBufPair_eq fit inRange.1 inRange.2) (.step rfl ?_)
  rw [if_neg (by decide)]
  refine .step rfl (ensures_bind.mpr ?_)
  unfold getObj
  refine .step apply_get ?_
  simp only [empty]
  exact ensures_throw.mpr rfl

theorem stalledAttempt_stops {arena : ℕ} {parent : UInt64}
    (stalled : Stalled .connecting 512 host) :
    Ensures (stalledAttempt parent arena) (fun _ _ => False)
      (· = poolEmpty) host := by
  have inRange : (sampleSetup 8192 1).config.TermId 1 := ⟨le_rfl, le_rfl⟩
  rcases queue.get_cons stalled.front.1 with ⟨connPool, front, _, _⟩
  have allocates : Ensures (allocTerminal (sampleSetup 8192 1).config parent stalledReplies)
      (fun _ _ => False) (· = poolEmpty) host := by
    unfold allocTerminal
    refine .step apply_get ?_
    simp only [front]
    refine .step rfl (ensures_getTerminal inRange ?_)
    refine .step (audit_eq (by simp [stalled.terminal])) ?_
    have prepares : Ensures (prepare (sampleSetup 8192 1).config 1 stalledReplies) _
        (· = poolEmpty) { host with connPool } := prepare_stalled stalled.terminal
    refine prepares.bind ?_
    rintro _ prepared ⟨rfl, overlapPool, _, _, lasting, queued⟩
    rw [if_neg (by decide)]
    have buffers : prepared.buffers = host.buffers := congrArg (·.2.2.2) lasting
    have creates : Ensures (createMemRegions (sampleSetup 8192 1).config 1 stalledReplies)
        (fun _ _ => False) (· = poolEmpty) prepared := by
      refine createMemRegions_stops ⟨stalled.fit.small, by rw [buffers]; exact stalled.fit.size⟩
        inRange (congrArg Terminal.pMemRegion queued.void) (queue.get_nil ?_)
      rw [overlapPool]
      exact stalled.pool
    exact creates.bind fun _ _ => False.elim
  unfold stalledAttempt
  exact allocates.bind fun _ _ => False.elim

/-- `Connect` comes to its attempt. -/
theorem Stalled.connect {count : ℕ} {post : Host queue → Prop}
    {fault : Stop → Prop} (stalled : Stalled .disconnected count host)
    (attempts : ∀ parent arena {middle : Host queue}, Stalled .connecting count middle →
      Ensures (stalledAttempt parent arena) (fun _ => post) fault middle) :
    Ensures (perform (sampleSetup 8192 1).config (.connect sampleHandle 5 6 stalledReplies))
      (fun _ => post) fault host := by
  have found : host.findSocket sampleHandle = some 1 := by
    have gets : host.getSocket 1 = some 1 := by simp [getSocket, stalled.sockets]
    simp [findSocket, show handleToId sampleHandle = 1 from rfl, gets, stalled.sock]
  have performs : Ensures (Host.connect (sampleSetup 8192 1).config sampleHandle 5 6
      stalledReplies) (fun _ => post) fault host := by
    unfold Host.connect
    refine .step apply_get ?_
    simp only [found]
    rw [if_neg (by simp [stalled.closing, stalled.sock])]
    refine .step rfl (.step rfl (.step rfl (.step apply_get ?_)))
    rw [if_neg (by simp [stalled.closing])]
    refine .step (audit_eq (by simp [stalled.sock])) (attempts _ _ ?_)
    refine { stalled with fit := ⟨stalled.fit.small, stalled.fit.size⟩, sock := ?_ }
    simp [stalled.sock]
  exact performs.bind fun _ _ done => done

end Attempts

section Shortage

theorem items_bounded (items : List ℕ) (size : ℕ) : (boundedQueue ℕ).items (items, size) = items :=
  rfl

/-- Up to 512 attempts fail and leave their objects behind. -/
theorem stalled_reached {count : ℕ} (few : count ≤ 512) :
    ∃ host : Host (boundedQueue ℕ),
      (hostMachine (boundedQueue ℕ) (sampleSetup 8192 1)).Reachable
        (fun _ action => action.Plain) host ∧ Stalled .disconnected count host := by
  induction count with
  | zero =>
      have plain : HostAction.createSocket.Plain := trivial
      have made : Host.step (sampleSetup 8192 1).config sampleHost .createSocket =
          .ok _ := rfl
      refine ⟨_, (Machine.Reachable.of_start sampleHost_made).tail plain made, ?_⟩
      constructor
      case fit => exact ⟨by decide, rfl⟩
      case pool =>
        have whole : sampleHost.overlapPool = (List.range kibi, kibi) := rfl
        have items : (boundedQueue ℕ).items sampleHost.overlapPool = List.range kibi := by
          rw [whole]
          exact items_bounded _ _
        exact items.trans (by rw [List.range_eq_range', Nat.mul_zero, Nat.sub_zero])
      case front => exact ⟨rfl, rfl⟩
      case blank => exact fun _ _ => rfl
      all_goals rfl
  | succ count ih =>
      rcases ih (Nat.le_of_succ_le few) with ⟨host, reachable, stalled⟩
      have plain : (HostAction.connect sampleHandle 5 6 stalledReplies).Plain := trivial
      have connects := stalled.connect fun parent arena middle now =>
        stalledAttempt_fails now (Nat.lt_of_succ_le few)
      cases performed : perform (sampleSetup 8192 1).config
        (.connect sampleHandle 5 6 stalledReplies) host with
      | error stop => exact (connects.of_error performed).elim
      | ok pair =>
          have stepped : Host.step (sampleSetup 8192 1).config host
              (.connect sampleHandle 5 6 stalledReplies) = .ok pair.2 :=
            step_eq_ok.mpr ⟨pair.1, performed⟩
          exact ⟨pair.2, reachable.tail plain stepped, connects.of_ok performed⟩

end Shortage

end Host

/-- One connection is enough to exhaust the pool: after 512 attempts that fail while their
registrations are outstanding the next one stops the process. -/
theorem overlap_pool_exhausted :
    ∃ host : Host (boundedQueue ℕ),
      (hostMachine (boundedQueue ℕ) (sampleSetup 8192 1)).Reachable
        (fun _ action => action.Plain) host ∧
      (boundedQueue ℕ).items host.overlapPool = [] ∧
      Host.step (sampleSetup 8192 1).config host
        (.connect sampleHandle 5 6 { bindConnector := ndCanceled }) =
          .error (.abort (.assert "Resource pool empty!")) := by
  rcases Host.stalled_reached le_rfl with ⟨host, reachable, stalled⟩
  refine ⟨host, reachable, stalled.pool, ?_⟩
  have connects := stalled.connect fun parent arena middle now => Host.stalledAttempt_stops now
  cases performed : Host.perform (sampleSetup 8192 1).config
    (.connect sampleHandle 5 6 Host.stalledReplies) host with
  | ok pair => exact (connects.of_ok performed).elim
  | error stop =>
      refine Host.step_eq_error.mpr (performed.trans ?_)
      rw [connects.of_error performed]
      rfl

end Hermes
