import Hermes.HostDemand

/-!
# What the code below the operations does

One lemma for each function of the tables, the overlapped objects, the regions and the
terminals: from a state that satisfies the invariant it returns in such a state, or
stops for one of the reasons the mode tolerates.
-/

namespace Hermes

open Program

/-- The assertions of a second initialization of a region. -/
def duplicateInit : List String :=
  ["Duplicate init of tag mem region.", "Duplicate init of buffer mem region."]

/-- The assertions that can fail: those about the peer and the provider, running out of
terminals, and what the mode does not exclude. -/
def Mode.Excuses (config : HostConfig) (mode : Mode) (text : String) : Prop :=
  text ∈ ["Exhausted connection!", "Rmote protocol mismatch!", "Local address mismatch!",
    "Notification error not handled! We don't expect immediate return either!",
    "Pending status not expected after IOCP notification!"] ∨
  (mode.strict = false ∧ text ∈ duplicateInit) ∨
  (¬(mode.closers = false ∧ mode.strict = true ∧ config.maxConnection ≤ 256) ∧
    text = "Resource pool empty!") ∨
  (mode.loose = true ∧ text ∉ duplicateInit)

/-- The fails that can happen: those of a registration, and that of `CloseSocket` for a socket in
transition. -/
def expectedFails : List String :=
  ["Failed to register tag region.", "Failed to register buffer region.",
    "Failed creating memory region.", "Socket in transition state for too long: %d"]

/-- Why a step may stop. -/
def Mode.Tolerates (config : HostConfig) (mode : Mode) : Stop → Prop
  | .blocked => True
  | .abort (.fail _ text) => text ∈ expectedFails
  | .abort (.assert text) => mode.Excuses config text
  | .abort .bounds | .abort (.undefined _) => mode.loose = true

variable {queue : CircularQue ℕ} {config : HostConfig} {mode : Mode} {listeners : List ℕ}
  {hand : Hand} {host : Host queue} {id conId ov : ℕ} {job : AsyncJob} {arena : ℕ}
  {replies : Replies}

theorem Mode.tolerates_loose (loose : mode.loose = true) {text : String}
    (other : text ∉ duplicateInit) : mode.Tolerates config (.abort (.assert text)) :=
  .inr (.inr (.inr ⟨loose, other⟩))

namespace Host

section Rules

variable {Result : Type} {post : Result → Host queue → Prop} {fault : Stop → Prop}

theorem audit_eq {condition : Prop} [Decidable condition] {text : String} (holds : condition) :
    audit condition text host = .ok (⟨⟩, host) :=
  audit_eq_ok.mpr ⟨holds, rfl⟩

/-- After an assertion that may fail. -/
theorem ensures_audit {condition : Prop} [Decidable condition] {text : String}
    {next : PUnit → Code queue Result} (fails : ¬condition → fault (.abort (.assert text)))
    (holds : condition → Ensures (next ⟨⟩) post fault host) :
    Ensures (audit condition text >>= next) post fault host := by
  by_cases condition' : condition
  · exact .step (audit_eq condition') (holds condition')
  · rw [ensures_bind, audit, if_neg condition']
    exact fails condition'

theorem ensures_fail {status : StatusCode} {text : String} (expected : text ∈ expectedFails) :
    Ensures (fail status text : Code queue Result) post (mode.Tolerates config) host :=
  expected

/-- After the use of an object through a pointer that may be null. -/
theorem ensures_derefPtr {Object : Type} {pointer : Option Object} {text : String}
    {next : Object → Code queue Result} (null : pointer = none → fault (.abort (.undefined text)))
    (some : ∀ object, pointer = some object → Ensures (next object) post fault host) :
    Ensures (derefPtr pointer text >>= next) post fault host := by
  cases pointer with
  | none => exact null rfl
  | some object => exact some object rfl

theorem ensures_getTerminal {next : Terminal → Code queue Result} (inRange : config.TermId conId)
    (continues : Ensures (next (host.connections conId)) post fault host) :
    Ensures (getTerminal config conId >>= next) post fault host :=
  .step (getTerminal_eq inRange.1 inRange.2) continues

end Rules

section Sockets

theorem getSocket_eq (ok : HostOk config mode listeners hand host) (sockId : config.SockId id) :
    host.getSocket id = some id := by
  rw [getSocket, ok.sockCapacity]
  exact if_pos sockId

theorem sockId_of_getSocket (ok : HostOk config mode listeners hand host) {pSock : ℕ}
    (found : host.getSocket id = some pSock) : pSock = id ∧ config.SockId id := by
  rw [getSocket, ok.sockCapacity] at found
  split at found
  · exact ⟨(Option.some.inj found).symm, by assumption⟩
  · cases found

theorem handleToId_sock (ok : HostOk config mode listeners hand host) (sockId : config.SockId id) :
    handleToId (host.sockTbl id).handle = id := by
  rw [ok.slots.handles id sockId]
  apply handleToId_handleOf
  have few := ok.sane.few
  have high := sockId.2
  omega

/-- A socket is taken from the pool, or there is none. -/
theorem allocateSocket_ensures (ok : HostOk config mode listeners hand host)
    (empty : hand.sock = none) {fault : Stop → Prop} :
    Ensures allocateSocket
      (fun result after => queue.items host.sockPool = [] ∧
          result = (eNotSufficientBuffer, none) ∧ after = host ∨
        ∃ id sockPool, result = (hOk, some id) ∧
          queue.get host.sockPool = some (id, sockPool) ∧
          config.SockId id ∧ (host.sockTbl id).state = .inpool ∧
          (host.sockTbl id).term = invalidTermId ∧ (host.sockTbl id).pListen = none ∧
          after = { host with
            sockPool
            sockTbl := Function.update host.sockTbl id
              { host.sockTbl id with state := .disconnected } } ∧
          HostOk config mode listeners { hand with sock := some id } after)
      fault host := by
  unfold allocateSocket
  rw [ensures_bind, ensures_get]
  cases taken : queue.get host.sockPool with
  | none => exact .inl ⟨queue.items_of_get_none taken, rfl, rfl⟩
  | some pair =>
      rcases pair with ⟨id, sockPool⟩
      rcases queue.items_of_get taken with ⟨items, _⟩
      have member : id ∈ queue.items host.sockPool := by
        rw [items]
        exact List.mem_cons_self
      have sockId := ok.slots.sockIds id member
      have settled : hand.Settled config id := .of_none sockId empty
      have state := (ok.slots.pooled id settled).mp member
      have void := SocketOk.unowned (ok.slots.sockets id settled) state
      have taken' := ok.takeSocket empty taken
      dsimp only
      refine .step (apply_set _) ?_
      rw [getSocket_eq ok sockId]
      refine .step rfl ?_
      refine .step (audit_eq state) (.step (audit_eq void) ?_)
      refine .step (audit_eq (handleToId_sock ok sockId)) (.step rfl ?_)
      exact .inr ⟨id, sockPool, rfl, rfl, sockId, state, void.1, void.2, rfl,
        taken'.setSocket rfl rfl⟩

/-- The socket in hand is freed. -/
theorem freeSocket_eq (ok : HostOk config mode listeners hand host) (inHand : hand.sock = some id)
    (active : (host.sockTbl id).state ≠ .inpool) (term : (host.sockTbl id).term = invalidTermId)
    (listen : (host.sockTbl id).pListen = none) :
    ∃ sockPool, queue.add host.sockPool id = some sockPool ∧
      freeSocket id host = .ok (⟨⟩,
        { host with
          sockTbl := Function.update host.sockTbl id
            { host.sockTbl id with
              state := .inpool, handle := (host.sockTbl id).handle + 0x100000000 }
          frees := Function.update host.frees id (host.frees id + 1)
          sockPool }) ∧
      HostOk config mode listeners { hand with sock := none }
        { host with
          sockTbl := Function.update host.sockTbl id
            { host.sockTbl id with
              state := .inpool, handle := (host.sockTbl id).handle + 0x100000000 }
          frees := Function.update host.frees id (host.frees id + 1)
          sockPool } := by
  rcases ok.slots.sockInHand id inHand with ⟨sockId, _⟩
  rcases ok.sockRoom inHand with ⟨sockPool, added⟩
  have handle : (host.sockTbl id).handle + 0x100000000 = handleOf id (host.frees id + 1) := by
    rw [ok.slots.handles id sockId, handleOf_succ]
  have lower : handleToId ((host.sockTbl id).handle + 0x100000000) = id := by
    rw [handle]
    apply handleToId_handleOf
    have few := ok.sane.few
    have high := sockId.2
    omega
  refine ⟨sockPool, added, ?_, ok.returnSocket inHand rfl term listen handle added⟩
  unfold freeSocket
  rw [apply_bind apply_get, getSocket_eq ok sockId, apply_bind rfl, apply_bind (audit_eq active),
    apply_bind rfl, apply_bind rfl, apply_bind (audit_eq lower)]
  rw [added]
  rfl

end Sockets

section Overlaps

/-- Nothing changes but overlapped objects that are not with the provider, and histories of objects
and regions. -/
structure Took (before after : Host queue) : Prop where
  same : after = { before with
    overlapPool := after.overlapPool, overlaps := after.overlaps, registered := after.registered
    events := after.events }
  kept : ∀ ov ∈ before.pending, after.overlaps ov = before.overlaps ov

theorem Took.sockTbl {before after : Host queue} (took : Took before after) :
    after.sockTbl = before.sockTbl := by rw [took.same]

theorem Took.connections {before after : Host queue} (took : Took before after) :
    after.connections = before.connections := by rw [took.same]

theorem Took.pending {before after : Host queue} (took : Took before after) :
    after.pending = before.pending := by rw [took.same]

theorem Took.objects {before after : Host queue} (took : Took before after) :
    after.objects = before.objects := by rw [took.same]

theorem Took.arenas {before after : Host queue} (took : Took before after) :
    after.arenas = before.arenas := by rw [took.same]

theorem Took.disclosed {before after : Host queue} (took : Took before after) :
    after.disclosed = before.disclosed := by rw [took.same]

theorem Took.notified {before after : Host queue} (took : Took before after) :
    after.notified = before.notified := by rw [took.same]

theorem Took.pends {before after : Host queue} (took : Took before after) :
    after.Pends ov job ↔ before.Pends ov job := by
  rw [Pends, took.pending]
  exact and_congr_right fun member => by rw [took.kept ov member]

/-- An overlapped object is taken from the pool. -/
theorem getObj_ensures (ok : HostOk config mode listeners hand host) (few : hand.ovs.length ≤ 8)
    (pReceiver : Option ℕ) :
    Ensures (getObj job arena pReceiver)
      (fun ov after => Took host after ∧ after.overlaps ov = ⟨pReceiver, some (job, arena)⟩ ∧
        HostOk config mode listeners { hand with ovs := ov :: hand.ovs } after)
      (mode.Tolerates config) host := by
  unfold getObj
  rw [ensures_bind, ensures_get]
  cases taken : queue.get host.overlapPool with
  | none =>
      have empty := queue.items_of_get_none taken
      have total := ok.overlaps.all.length_eq
      rw [empty, List.nil_append, List.length_append, List.length_range] at total
      refine .inr (.inr (.inl ⟨?_, rfl⟩))
      rintro ⟨noClosers, strict, small⟩
      have demand := ok.pending_length noClosers strict
      have size : kibi = 1024 := rfl
      omega
  | some pair =>
      rcases pair with ⟨ov, overlapPool⟩
      rcases queue.items_of_get taken with ⟨items, _⟩
      have member : ov ∈ queue.items host.overlapPool := by
        rw [items]
        exact List.mem_cons_self
      have notPending : ov ∉ host.pending := by
        intro pending
        exact (List.nodup_append.mp ok.overlaps.nodup).2.2 ov member ov
          (List.mem_append_right _ pending) rfl
      dsimp only
      refine .step (apply_set _) (.step (audit_eq (ok.overlaps.blank ov member)) ?_)
      refine .step rfl (.step rfl
        ⟨⟨rfl, ?_⟩, Function.update_self _ _ _, .events (ok.getObj taken ?_) _⟩)
      · intro ov' pending
        apply Function.update_of_ne
        intro same
        exact notPending (same ▸ pending)
      · exact nofun

/-- An overlapped object in hand is free again. -/
theorem freeObj_ensures (ok : HostOk config mode listeners hand host) {ovs : List ℕ}
    (top : hand.ovs = ov :: ovs) {fault : Stop → Prop} :
    Ensures (freeObj ov)
      (fun _ after => Took host after ∧
        after.overlaps = Function.update host.overlaps ov {} ∧
          HostOk config mode listeners { hand with ovs } after)
      fault host := by
  rcases ok.overlapRoom top with ⟨overlapPool, added⟩
  have member : ov ∈ hand.ovs := by
    rw [top]
    exact List.mem_cons_self
  unfold freeObj
  refine .step apply_get (.step (audit_eq (.inl ?_)) (.step rfl ?_))
  · exact ok.overlaps.taken ov (List.mem_append_left _ member)
  · rw [added]
    refine .step rfl (.of_eq rfl ⟨⟨rfl, ?_⟩, rfl, (ok.freeObj top added).events _⟩)
    intro ov' pending
    apply Function.update_of_ne
    intro same
    exact ok.overlaps.notPending member (same ▸ pending)

theorem unpend_eq (member : ov ∈ host.pending) :
    unpend ov host = .ok (⟨⟩, { host with pending := host.pending.erase ov }) := by
  unfold unpend
  rw [apply_bind apply_get, if_pos member]
  rfl

/-- An operation that completes was outstanding. -/
theorem ensures_unpend {Result : Type} {post : Result → Host queue → Prop}
    {next : PUnit → Code queue Result}
    (continues : ov ∈ host.pending → Ensures (next ⟨⟩) post (mode.Tolerates config)
      { host with pending := host.pending.erase ov }) :
    Ensures (unpend ov >>= next) post (mode.Tolerates config) host := by
  by_cases member : ov ∈ host.pending
  · exact .step (unpend_eq member) (continues member)
  · rw [ensures_bind, unpend, ensures_bind, ensures_get, if_neg member]
    exact trivial

end Overlaps

section Regions

/-- What registering regions leaves alone: everything but the regions, the overlapped objects and
the arenas of the registrations. -/
structure Calm (before after : Host queue) : Prop where
  sockTbl : after.sockTbl = before.sockTbl
  noRegions : ∀ conId, (after.connections conId).noRegions = (before.connections conId).noRegions
  mem : ∀ conId, (before.connections conId).pMemRegion ≠ none →
    (after.connections conId).pMemRegion ≠ none
  records : ∀ {conId region}, (after.connections conId).Records region →
    (before.connections conId).Records region ∨
      (∃ ov job, before.Pends ov job ∧ job.region? = some region) ∨ before.objects ≤ region
  connPool : after.connPool = before.connPool
  sockPool : after.sockPool = before.sockPool
  closing : after.closing = before.closing
  frees : after.frees = before.frees
  delivered : after.delivered = before.delivered
  calls : after.calls = before.calls
  notified : after.notified = before.notified
  disclosed : after.disclosed = before.disclosed
  posts : after.posts = before.posts
  objects : before.objects ≤ after.objects
  refs : ∀ object < before.objects, after.refs object = before.refs object
  pends : ∀ {ov job}, job.region? = none → (after.Pends ov job ↔ before.Pends ov job)
  registers : ∀ {ov job region}, after.Pends ov job → job.region? = some region →
    before.Pends ov job ∨ before.objects ≤ region
  arenas : before.arenas ≤ after.arenas
  awaits : ∀ {arena}, after.Awaits arena → before.Awaits arena ∨ before.arenas ≤ arena
  retired : ∃ more, after.retired = before.retired ++ more ∧
    ∀ arena ∈ more, before.Awaits arena ∨ before.arenas ≤ arena

/-- What completing registrations does: there are fewer of them, and regions are recorded. -/
structure Completes (before after : Host queue) : Prop extends Calm before after where
  fewer : ∀ {ov job}, after.Pends ov job → before.Pends ov job
  memFrom : ∀ {conId}, (after.connections conId).pMemRegion ≠ none →
    (before.connections conId).pMemRegion ≠ none ∨
      ∃ ov region, before.Pends ov (.onMemRegistered conId region)
  sameObjects : after.objects = before.objects
  pending : ∀ ov ∈ after.pending, ov ∈ before.pending
  overlaps : ∀ ov, ov ∉ before.pending → after.overlaps ov = before.overlaps ov

theorem Calm.refl (host : Host queue) : Calm host host where
  sockTbl := rfl
  noRegions _ := rfl
  mem _ some := some
  records records := .inl records
  connPool := rfl
  sockPool := rfl
  closing := rfl
  frees := rfl
  delivered := rfl
  calls := rfl
  notified := rfl
  disclosed := rfl
  posts := rfl
  objects := Nat.le_refl _
  refs _ _ := rfl
  pends _ := Iff.rfl
  registers outstanding _ := .inl outstanding
  arenas := Nat.le_refl _
  awaits awaits := .inl awaits
  retired := ⟨[], by simp, nofun⟩

theorem Calm.trans {first second third : Host queue} (left : Calm first second)
    (right : Calm second third) : Calm first third where
  sockTbl := right.sockTbl.trans left.sockTbl
  noRegions conId := (right.noRegions conId).trans (left.noRegions conId)
  mem conId some := right.mem conId (left.mem conId some)
  records records := by
    rcases right.records records with middle | ⟨ov, job, outstanding, registers⟩ | new
    · exact left.records middle
    · rcases left.registers outstanding registers with before | new
      · exact .inr (.inl ⟨ov, job, before, registers⟩)
      · exact .inr (.inr new)
    · exact .inr (.inr (left.objects.trans new))
  connPool := right.connPool.trans left.connPool
  sockPool := right.sockPool.trans left.sockPool
  closing := right.closing.trans left.closing
  frees := right.frees.trans left.frees
  delivered := right.delivered.trans left.delivered
  calls := right.calls.trans left.calls
  notified := right.notified.trans left.notified
  disclosed := right.disclosed.trans left.disclosed
  posts := right.posts.trans left.posts
  objects := left.objects.trans right.objects
  refs object low := (right.refs object (Nat.lt_of_lt_of_le low left.objects)).trans
    (left.refs object low)
  pends other := (right.pends other).trans (left.pends other)
  registers outstanding registers := by
    rcases right.registers outstanding registers with middle | new
    · exact left.registers middle registers
    · exact .inr (left.objects.trans new)
  arenas := left.arenas.trans right.arenas
  awaits awaits := by
    rcases right.awaits awaits with middle | new
    · exact left.awaits middle
    · exact .inr (left.arenas.trans new)
  retired := by
    rcases left.retired with ⟨more, same, from'⟩
    rcases right.retired with ⟨more', same', from''⟩
    refine ⟨more ++ more', by rw [same', same, List.append_assoc], ?_⟩
    intro arena member
    rcases List.mem_append.mp member with old | new
    · exact from' arena old
    · rcases from'' arena new with middle | new
      · exact left.awaits middle
      · exact .inr (left.arenas.trans new)

theorem Completes.refl (host : Host queue) : Completes host host :=
  { Calm.refl host with
    fewer := fun outstanding => outstanding
    memFrom := fun some => .inl some
    sameObjects := rfl
    pending := fun _ member => member
    overlaps := fun _ _ => rfl }

theorem Completes.trans {first second third : Host queue} (left : Completes first second)
    (right : Completes second third) : Completes first third :=
  { left.toCalm.trans right.toCalm with
    fewer := fun outstanding => left.fewer (right.fewer outstanding)
    memFrom := by
      intro conId some
      rcases right.memFrom some with middle | ⟨ov, region, outstanding⟩
      · exact left.memFrom middle
      · exact .inr ⟨ov, region, left.fewer outstanding⟩
    sameObjects := right.sameObjects.trans left.sameObjects
    pending := fun ov member => left.pending ov (right.pending ov member)
    overlaps := fun ov outside =>
      (right.overlaps ov fun member => outside (left.pending ov member)).trans
        (left.overlaps ov outside) }

/-- Registering regions discloses none. -/
theorem Calm.secret {before after : Host queue} (calm : Calm before after)
    (ok : HostOk config mode listeners hand before)
    (secret : (before.connections conId).Secret before.disclosed) :
    (after.connections conId).Secret after.disclosed := by
  rw [calm.disclosed]
  intro region records member
  rcases calm.records records with old | ⟨ov, job, outstanding, registers⟩ | new
  · exact secret region old member
  · exact (ok.regions.outstanding outstanding registers).2.1 member
  · exact Nat.not_le_of_lt (ok.regions.disclosedLt region member) new

/-- What the completion of one registration leaves alone. -/
theorem completes_record (ok : HostOk config mode listeners hand host) {region : ℕ}
    (outstanding : host.Pends ov job) (registers : job.region? = some region) {terminal : Terminal}
    (noRegions : terminal.noRegions = (host.connections conId).noRegions)
    (records : ∀ {region'}, terminal.Records region' →
      (host.connections conId).Records region' ∨ region' = region)
    (mem : (host.connections conId).pMemRegion ≠ none → terminal.pMemRegion ≠ none)
    (memFrom : terminal.pMemRegion ≠ none → (host.connections conId).pMemRegion ≠ none ∨
      job = .onMemRegistered conId region)
    {retired : List ℕ} (retires : ∃ more, retired = host.retired ++ more ∧
      ∀ arena ∈ more, host.Awaits arena) (overlapPool : queue.Que)
    (registered : List (ℕ × Registration)) (events : List ArenaEvent) :
    Completes host
      { host with
        pending := host.pending.erase ov
        connections := Function.update host.connections conId terminal
        overlapPool
        overlaps := Function.update host.overlaps ov {}
        retired
        registered
        events } := by
  have other : ∀ {ov'}, ov' ∈ host.pending.erase ov → ov' ≠ ov ∧ ov' ∈ host.pending :=
    fun member => (ok.overlaps.pendingNodup.mem_erase_iff).mp member
  have fewer : ∀ {ov' job'},
      ov' ∈ host.pending.erase ov → (Function.update host.overlaps ov {} ov').job? = some job' →
        ov' ≠ ov ∧ host.Pends ov' job' := by
    intro ov' job' member runs
    rcases other member with ⟨different, before⟩
    rw [Function.update_of_ne different] at runs
    exact ⟨different, before, runs⟩
  have awaits : ∀ {arena}, Host.Awaits
      { host with
        pending := host.pending.erase ov
        overlaps := Function.update host.overlaps ov {} } arena → host.Awaits arena := by
    rintro arena ⟨ov', member, job', runs, registers'⟩
    rcases other member with ⟨different, before⟩
    refine ⟨ov', before, job', ?_, registers'⟩
    rw [← runs]
    exact congrArg HOverlap.pNext (Function.update_of_ne different _ _).symm
  refine ⟨?_, fun outstanding => (fewer outstanding.1 outstanding.2).2, ?memFrom, rfl,
    fun _ member => List.mem_of_mem_erase member, ?overlaps⟩
  case overlaps =>
    intro ov' outside
    apply Function.update_of_ne
    intro same
    exact outside (same ▸ outstanding.1)
  case memFrom =>
    intro conId' some
    by_cases same : conId' = conId
    · rw [same] at some ⊢
      change (Function.update host.connections conId terminal conId).pMemRegion ≠ none at some
      rw [Function.update_self] at some
      rcases memFrom some with before | runs
      · exact .inl before
      · rw [runs] at outstanding
        exact .inr ⟨ov, region, outstanding⟩
    · change (Function.update host.connections conId terminal conId').pMemRegion ≠ none at some
      rw [Function.update_of_ne same] at some
      exact .inl some
  constructor
  case noRegions =>
    intro conId'
    by_cases same : conId' = conId
    · rw [same]
      exact (congrArg Terminal.noRegions (Function.update_self _ _ _)).trans noRegions
    · exact congrArg Terminal.noRegions (Function.update_of_ne same _ _)
  case mem =>
    intro conId' some
    by_cases same : conId' = conId
    · rw [same] at some ⊢
      change (Function.update host.connections conId terminal conId).pMemRegion ≠ none
      rw [Function.update_self]
      exact mem some
    · change (Function.update host.connections conId terminal conId').pMemRegion ≠ none
      rwa [Function.update_of_ne same]
  case records =>
    intro conId' region' records'
    change (Function.update host.connections conId terminal conId').Records region' at records'
    by_cases same : conId' = conId
    · rw [same, Function.update_self] at records'
      rw [same]
      refine (records records').imp_right fun equal => .inl ⟨ov, job, outstanding, ?_⟩
      rw [equal, registers]
    · rw [Function.update_of_ne same] at records'
      exact .inl records'
  case pends =>
    intro ov' job' noRegion
    constructor
    · rintro ⟨member, runs⟩
      exact (fewer member runs).2
    · intro before
      have different : ov' ≠ ov := by
        intro same
        rw [same] at before
        rw [Option.some.inj (before.2.symm.trans outstanding.2), registers] at noRegion
        cases noRegion
      refine ⟨(ok.overlaps.pendingNodup.mem_erase_iff).mpr ⟨different, before.1⟩, ?_⟩
      change (Function.update host.overlaps ov {} ov').job? = _
      rw [Function.update_of_ne different]
      exact before.2
  case registers =>
    rintro ov' job' region' ⟨member, runs⟩ _
    exact .inl (fewer member runs).2
  case awaits => exact fun awaits' => .inl (awaits awaits')
  case retired =>
    rcases retires with ⟨more, same, from'⟩
    exact ⟨more, same, fun arena member => .inl (from' arena member)⟩
  case objects => exact Nat.le_refl _
  case arenas => exact Nat.le_refl _
  case refs => exact fun _ _ => rfl
  all_goals rfl

theorem onTagRegistered_ensures {region : ℕ} {hr : HRESULT}
    (free : mode.strict = true → (host.connections conId).pTagRegion = none) :
    Ensures (onTagRegistered conId region hr)
      (fun _ after => after = { host with
        connections := Function.update host.connections conId
          { host.connections conId with pTagRegion := some region } })
      (mode.Tolerates config) host := by
  unfold onTagRegistered
  by_cases success : hr ≠ ndSuccess
  · rw [if_pos success]
    exact ensures_fail (by decide)
  · rw [if_neg success, ensures_bind, ensures_get]
    refine ensures_audit ?_ fun _ => .of_eq rfl rfl
    intro some
    cases strict : mode.strict with
    | true => exact absurd (free strict) some
    | false => exact .inr (.inl ⟨strict, by decide⟩)

/-- The buffer region is registered after other code has run. -/
theorem onMemRegistered_ensures {region : ℕ} {hr : HRESULT} {waiting : Code queue PUnit}
    {meanwhile : Host queue → Prop}
    (waits : Ensures waiting (fun _ => meanwhile) (mode.Tolerates config) host)
    (free : ∀ after, meanwhile after → mode.strict = true →
      (after.connections conId).pMemRegion = none) :
    Ensures (onMemRegistered conId region arena hr waiting)
      (fun _ last => ∃ after, meanwhile after ∧ (after.connections conId).pTagRegion ≠ none ∧
        last = { after with
          connections := Function.update after.connections conId
            { after.connections conId with pMemRegion := some region }
          retired := after.retired ++ [arena]
          events := after.events ++ [.retired arena] })
      (mode.Tolerates config) host := by
  unfold onMemRegistered
  by_cases success : hr ≠ ndSuccess
  · rw [if_pos success]
    exact ensures_fail (by decide)
  · rw [if_neg success]
    refine waits.bind ?_
    intro _ after reached
    rw [ensures_bind, ensures_get]
    by_cases untagged : (after.connections conId).pTagRegion = none
    · rw [if_pos untagged]
      exact trivial
    · rw [if_neg untagged]
      refine ensures_audit ?_ fun _ => .of_eq rfl ⟨after, reached, untagged, rfl⟩
      intro some
      cases strict : mode.strict with
      | true => exact absurd (free after reached strict) some
      | false => exact .inr (.inl ⟨strict, by decide⟩)

/-- One registration completes while other code waits. -/
theorem completeRegistration_ensures (ok : HostOk config mode listeners hand host) (hr : HRESULT) :
    Ensures (completeRegistration ov hr)
      (fun _ after => HostOk config mode listeners hand after ∧ Completes host after)
      (mode.Tolerates config) host := by
  unfold completeRegistration
  apply ensures_unpend
  intro member
  apply ensures_audit (fun _ => .inl (by decide))
  intro _
  refine .step rfl (.step apply_get ?_)
  dsimp only
  cases next : (host.overlaps ov).pNext with
  | none => exact absurd next (ok.overlaps.taken ov (List.mem_append_right _ member))
  | some pair =>
      rcases pair with ⟨job, arena⟩
      have outstanding : host.Pends ov job := ⟨member, congrArg (Option.map Prod.fst) next⟩
      cases job
      case onTagRegistered conId region =>
        dsimp only
        refine (onTagRegistered_ensures ?_).bind ?_
        · exact (ok.jobs.ready outstanding).2
        rintro _ _ rfl
        refine (freeObj_ensures ((ok.recordTag outstanding).events _) rfl).mono ?_
          fun _ stops => stops
        rintro _ after ⟨took, overlaps, done⟩
        refine ⟨done, ?_⟩
        rw [took.same, overlaps]
        apply completes_record ok outstanding rfl
        · rfl
        · exact HostOk.records_setTag
        · exact fun mem => mem
        · exact fun mem => .inl mem
        · exact ⟨[], by simp, nofun⟩
      case onMemRegistered conId region =>
        dsimp only
        refine (onMemRegistered_ensures (ensures_pure.mpr rfl) ?_).bind ?_
        · rintro _ rfl
          exact (ok.jobs.ready outstanding).2
        · rintro _ _ ⟨_, rfl, tagged, rfl⟩
          have recorded := ((ok.recordMem outstanding tagged).events
            (host.events ++ [.ran ov])).retired arena
          refine (freeObj_ensures recorded rfl).mono ?_ fun _ stops => stops
          rintro _ after ⟨took, overlaps, done⟩
          refine ⟨done, ?_⟩
          rw [took.same, overlaps]
          apply completes_record ok outstanding rfl
          · rfl
          · exact HostOk.records_setMem
          · exact fun _ => nofun
          · exact fun _ => .inr rfl
          · refine ⟨[arena], rfl, ?_⟩
            intro arena' member'
            rw [List.mem_singleton.mp member']
            exact ⟨ov, member, _, next, by simp [AsyncJob.region?]⟩
      all_goals exact trivial

theorem completeRegistrations_ensures (completions : List (ℕ × HRESULT)) :
    ∀ {host : Host queue}, HostOk config mode listeners hand host →
      Ensures (completeRegistrations completions)
        (fun _ after => HostOk config mode listeners hand after ∧ Completes host after)
        (mode.Tolerates config) host := by
  induction completions with
  | nil => exact fun {host} ok => ⟨ok, .refl host⟩
  | cons completion rest ih =>
      intro host ok
      refine (completeRegistration_ensures ok completion.2).bind ?_
      rintro _ middle ⟨ok, calm⟩
      refine (ih ok).mono ?_ fun _ stops => stops
      rintro _ after ⟨ok, calm'⟩
      exact ⟨ok, calm.trans calm'⟩

end Regions

end Host

end Hermes
