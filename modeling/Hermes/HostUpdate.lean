import Hermes.HostTransport

/-!
# What keeps the invariant of the library

One lemma for each thing the code does to the library's state: a change of what it has
in hand, slots moving between the pools, the tables and the hand, overlapped objects
taken, given to the provider and given back, objects and their references, regions,
notifications.
-/

namespace Hermes

variable {queue : CircularQue ℕ} {config : HostConfig} {mode : Mode} {listeners : List ℕ}
  {hand : Hand} {host : Host queue} {id conId ov : ℕ}

theorem Hand.Settled.update {id' : ℕ} (settled : hand.Settled config id')
    (inHand : hand.sock = some id) {sockTbl : ℕ → HSocket} {sock : HSocket} :
    Function.update sockTbl id sock id' = sockTbl id' := by
  apply Function.update_of_ne
  intro same
  exact settled.2 (by rw [inHand, same])

/-- A socket in hand, with its terminal if it has one, can be put down. -/
structure Stowable (config : HostConfig) (mode : Mode) (hand : Hand) (host : Host queue) (id : ℕ) :
    Prop where
  inHand : hand.sock = some id
  fits : SocketOk config (host.sockTbl id) (host.connections (host.sockTbl id).term)
  active : (host.sockTbl id).state ≠ .inpool
  term : hand.term = none ∧ (host.sockTbl id).term = invalidTermId ∨
    hand.term = some (host.sockTbl id).term
  noDiscon : mode.loose = false → (host.sockTbl id).state.attempting = true →
    ∀ ov, ¬host.Pends ov (.onDisconNotified (host.sockTbl id).term)
  secret : (host.sockTbl id).state = .accept1 →
    (host.connections (host.sockTbl id).term).pDisconnectCont = none →
      (host.connections (host.sockTbl id).term).Secret host.disclosed
  connecting : (host.sockTbl id).state = .connecting →
    (host.connections (host.sockTbl id).term).pMemRegion ≠ none
  started : hand.term ≠ none →
    (host.connections (host.sockTbl id).term).pDisconnectCont ≠ none →
      (host.connections (host.sockTbl id).term).pMemRegion ≠ none
  quiet : (host.sockTbl id).state.attempting = true → ∀ notifier,
    (host.connections (host.sockTbl id).term).pConnFunc = some notifier →
      ∀ entry ∈ host.notified, entry.notifier.call ≠ notifier.call

/-- What the terminal's disconnect continuation may become: operations that rely on it find one,
and a new one is not another terminal's. -/
structure Continues (config : HostConfig) (mode : Mode) (host : Host queue) (conId : ℕ)
    (terminal : Terminal) : Prop where
  begun : ∀ {ov job}, host.Pends ov job →
    mode.key job = some (.discon conId) ∨ mode.key job = some (.verb conId) →
      (host.connections conId).pDisconnectCont ≠ none → terminal.pDisconnectCont ≠ none
  own : ∀ continuation, terminal.pDisconnectCont = some continuation →
    (host.connections conId).pDisconnectCont = some continuation ∨
      continuation < host.arenas ∧ ∀ conId', config.TermId conId' →
        (host.connections conId').pDisconnectCont ≠ some continuation

theorem Continues.of_same {terminal : Terminal}
    (same : terminal.pDisconnectCont = (host.connections conId).pDisconnectCont) :
    Continues config mode host conId terminal where
  begun _ _ begun := by rwa [same]
  own _ holds := .inl (same ▸ holds)

namespace HostOk

section Hand

theorem posts (ok : HostOk config mode listeners hand host) (posts : List (ℕ × StatusCode)) :
    HostOk config mode listeners hand { host with posts } :=
  { ok with }

theorem retired (ok : HostOk config mode listeners hand host) (arena : ℕ) :
    HostOk config mode listeners hand
      { host with retired := host.retired ++ [arena], events := host.events ++ [.retired arena] } :=
  { ok with }

theorem events (ok : HostOk config mode listeners hand host) (events : List ArenaEvent) :
    HostOk config mode listeners hand { host with events } :=
  { ok with }

theorem registered (ok : HostOk config mode listeners hand host)
    (registered : List (ℕ × Registration)) :
    HostOk config mode listeners hand { host with registered } :=
  { ok with }

theorem newArena (ok : HostOk config mode listeners hand host) :
    HostOk config mode listeners hand { host with arenas := host.arenas + 1 } :=
  { ok with
    continuations := ok.continuations.transport (Nat.le_succ _) fun holds => holds
    awaited := fun awaits => Nat.lt_succ_of_lt (ok.awaited awaits) }

theorem closing (ok : HostOk config mode listeners hand host) (closing : Bool) :
    HostOk config mode listeners hand { host with closing } :=
  { ok with }

/-- A socket in hand changes. -/
theorem setSocket (ok : HostOk config mode listeners hand host) (inHand : hand.sock = some id)
    {sock : HSocket} (handle : sock.handle = (host.sockTbl id).handle) :
    HostOk config mode listeners hand
      { host with sockTbl := Function.update host.sockTbl id sock } := by
  have jobs : JobsOk config mode hand host.Pends (Function.update host.sockTbl id sock)
      host.connections := by
    apply ok.jobs.transport (fun outstanding => outstanding)
    intro _ _ _ ready
    apply ready.transport
    · intro id' _ settled
      rw [settled.update inHand]
      exact ⟨settled, rfl, rfl⟩
    · exact fun _ _ begun => begun
    · intro _ id' conId _ settled
      rw [settled.update inHand]
      exact fun term attempting => ⟨settled, term, attempting⟩
    · exact fun _ _ _ _ none => none
    · exact fun _ _ _ _ none => none
  have regions : RegionsOk config hand host.Pends (Function.update host.sockTbl id sock)
      host.connections (queue.items host.connPool) host.disclosed host.objects := by
    apply ok.regions.transport (fun outstanding _ => outstanding) (.refl _)
      (fun _ member => .inl member) (Nat.le_refl _)
    · intro id' settled
      rw [settled.update inHand]
      exact .inl ⟨settled, rfl, rfl, rfl⟩
    · exact fun _ notInHand begun => .inl ⟨notInHand, begun⟩
  have log : LogOk config mode hand (Function.update host.sockTbl id sock)
      host.connections host.calls
      host.notified := by
    apply ok.log.transport (fun func => func)
    intro id' settled attempting
    rw [settled.update inHand] at attempting ⊢
    exact .inl ⟨settled, attempting, rfl⟩
  have listens : CountsOk config mode hand listeners
      (Function.update host.sockTbl id sock) host.connections host.overlaps host.pending host.refs
      host.objects := by
    refine ok.listens.map fun leaked listens => ?_
    refine listens.regrip rfl ?_ ?_ (fun _ _ apart => apart)
    · intro id' listener settled holds
      rw [settled.update inHand] at holds
      exact ⟨settled, holds⟩
    · intro id' listener settled holds
      rw [settled.update inHand]
      exact ⟨settled, holds⟩
  exact { ok with slots := ok.slots.setSocket inHand handle, jobs, regions, log, listens }

/-- A terminal in hand changes, but not its regions. -/
theorem setTerminalLogged (ok : HostOk config mode listeners hand host)
    (inHand : hand.term = some conId)
    {terminal : Terminal} (tag : terminal.pTagRegion = (host.connections conId).pTagRegion)
    (mem : terminal.pMemRegion = (host.connections conId).pMemRegion)
    {calls : ℕ} (log : LogOk config mode hand host.sockTbl
      (Function.update host.connections conId terminal) calls host.notified)
    (continues : Continues config mode host conId terminal)
    (apart : terminal.Apart listeners host.objects) :
    HostOk config mode listeners hand
      { host with connections := Function.update host.connections conId terminal, calls } := by
  have same : SameRegions host.connections (Function.update host.connections conId terminal) :=
    .update tag mem
  have settledTerm : ∀ {id}, hand.Settled config id →
      Function.update host.connections conId terminal (host.sockTbl id).term =
        host.connections (host.sockTbl id).term :=
    fun settled => Function.update_of_ne (ok.slots.notInHand inHand settled) _ _
  have other : ∀ {conId'}, hand.term ≠ some conId' →
      Function.update host.connections conId terminal conId' = host.connections conId' := by
    intro conId' notInHand
    apply Function.update_of_ne
    intro equal
    exact notInHand (by rw [inHand, equal])
  have slots : SlotsOk config hand host.sockTbl (Function.update host.connections conId terminal)
      host.frees (queue.items host.sockPool) (queue.items host.connPool) :=
    ok.slots.setTerminal fun conId' notInHand => by rw [other notInHand]
  have jobs : JobsOk config mode hand host.Pends host.sockTbl
      (Function.update host.connections conId terminal) := by
    apply ok.jobs.transport (fun outstanding => outstanding)
    intro _ _ outstanding ready
    apply ready.transport
    · intro id _ settled
      rw [settledTerm settled]
      exact ⟨settled, rfl, rfl⟩
    · intro conId' key begun'
      by_cases equal : conId' = conId
      · rw [equal] at key begun'
        rw [equal, Function.update_self]
        exact continues.begun outstanding key begun'
      · rwa [Function.update_of_ne equal]
    · exact fun _ id _ _ settled term attempting => ⟨settled, term, attempting⟩
    · exact fun conId' _ _ _ none => by rw [(same conId').1, none]
    · exact fun conId' _ _ _ none => by rw [(same conId').2, none]
  have regions : RegionsOk config hand host.Pends host.sockTbl
      (Function.update host.connections conId terminal) (queue.items host.connPool)
      host.disclosed host.objects := by
    apply ok.regions.transport (fun outstanding _ => outstanding) same
      (fun _ member => .inl member) (Nat.le_refl _)
    · intro id settled
      rw [settledTerm settled]
      exact .inl ⟨settled, rfl, rfl, rfl⟩
    · intro conId' _ notInHand begun'
      rw [other notInHand] at begun'
      exact .inl ⟨notInHand, begun'⟩
  have registers : mode.strict = true → RegistersOk config mode hand host.Pends
      (Function.update host.connections conId terminal) (queue.items host.connPool) := by
    intro strict
    exact (ok.registers strict).transport (fun _ => Iff.rfl) same rfl fun outside _ => .inl outside
  have listens : CountsOk config mode hand listeners host.sockTbl
      (Function.update host.connections conId terminal) host.overlaps host.pending host.refs
      host.objects := by
    refine ok.listens.map fun leaked listens => ?_
    refine listens.regrip rfl (fun settled holds => ⟨settled, holds⟩)
      (fun settled holds => ⟨settled, holds⟩) ?_
    intro conId' _ before
    by_cases equal : conId' = conId
    · rw [equal, Function.update_self]
      exact apart
    · rwa [Function.update_of_ne equal]
  exact
    { ok with
      slots, jobs, regions, registers, log, listens
      continuations := ok.continuations.update continues.own }

/-- A terminal in hand changes, but not its regions, and it gets no notifier. -/
theorem setTerminal (ok : HostOk config mode listeners hand host) (inHand : hand.term = some conId)
    {terminal : Terminal} (tag : terminal.pTagRegion = (host.connections conId).pTagRegion)
    (mem : terminal.pMemRegion = (host.connections conId).pMemRegion)
    (func : ∀ notifier, terminal.pConnFunc = some notifier →
      (host.connections conId).pConnFunc = some notifier)
    (continues : Continues config mode host conId terminal)
    (apart : terminal.Apart listeners host.objects) :
    HostOk config mode listeners hand
      { host with connections := Function.update host.connections conId terminal } := by
  apply ok.setTerminalLogged inHand tag mem ?_ continues apart
  apply ok.log.transport
  · intro conId' notifier func'
    by_cases equal : conId' = conId
    · rw [equal, Function.update_self] at func'
      rw [equal]
      exact func notifier func'
    · rwa [Function.update_of_ne equal] at func'
  · exact fun settled attempting => .inl ⟨settled, attempting, rfl⟩

/-- A terminal in hand gets the notifier of one more call. -/
theorem setNotifier (ok : HostOk config mode listeners hand host) (inHand : hand.term = some conId)
    {terminal : Terminal} (tag : terminal.pTagRegion = (host.connections conId).pTagRegion)
    (mem : terminal.pMemRegion = (host.connections conId).pMemRegion) {object : ℕ}
    (func : terminal.pConnFunc = some ⟨object, host.calls⟩)
    (continues : Continues config mode host conId terminal)
    (apart : terminal.Apart listeners host.objects) :
    HostOk config mode listeners hand
      { host with
        connections := Function.update host.connections conId terminal
        calls := host.calls + 1 } := by
  apply ok.setTerminalLogged inHand tag mem ?_ continues apart
  have cases : ∀ {conId' notifier},
      (Function.update host.connections conId terminal conId').pConnFunc = some notifier →
        conId' = conId ∧ notifier.call = host.calls ∨
          conId' ≠ conId ∧ (host.connections conId').pConnFunc = some notifier := by
    intro conId' notifier func'
    by_cases equal : conId' = conId
    · rw [equal, Function.update_self, func] at func'
      cases func'
      exact .inl ⟨equal, rfl⟩
    · rw [Function.update_of_ne equal] at func'
      exact .inr ⟨equal, func'⟩
  constructor
  · intro conId' notifier inRange func'
    rcases cases func' with ⟨_, new⟩ | ⟨_, old⟩
    · omega
    · exact Nat.lt_succ_of_lt (ok.log.called inRange old)
  · intro conId' conId'' notifier notifier' inRange inRange' func' func'' same
    rcases cases func' with ⟨equal, new⟩ | ⟨_, old⟩
    · rcases cases func'' with ⟨equal', _⟩ | ⟨_, old'⟩
      · rw [equal, equal']
      · have low := ok.log.called inRange' old'
        omega
    · rcases cases func'' with ⟨_, new'⟩ | ⟨_, old'⟩
      · have low := ok.log.called inRange old
        omega
      · exact ok.log.once inRange inRange' old old' same
  · exact fun entry member => Nat.lt_succ_of_lt (ok.log.logged entry member)
  · exact ok.log.nodup
  · intro id notifier settled attempting func' entry member
    rcases cases func' with ⟨equal, _⟩ | ⟨_, old⟩
    · exact absurd equal (ok.slots.notInHand inHand settled)
    · exact ok.log.quiet settled attempting old entry member

end Hand

section Sockets

theorem takeSocket (ok : HostOk config mode listeners hand host) (empty : hand.sock = none)
    {sockPool : queue.Que} (taken : queue.get host.sockPool = some (id, sockPool)) :
    HostOk config mode listeners { hand with sock := some id } { host with sockPool } := by
  rcases queue.items_of_get taken with ⟨items, capacity⟩
  have slotsBefore := ok.slots
  rw [items] at slotsBefore
  have settled : hand.Settled config id :=
    .of_none (slotsBefore.sockIds id List.mem_cons_self) empty
  have inpool := (slotsBefore.pooled id settled).mp List.mem_cons_self
  have void := (ok.slots.sockets id settled).unowned inpool
  have before : ∀ {id'}, Hand.Settled config { hand with sock := some id } id' →
      hand.Settled config id' := fun settled => (SlotsOk.settled_of_grab empty settled).1
  have jobs : JobsOk config mode { hand with sock := some id } host.Pends host.sockTbl
      host.connections := by
    apply ok.jobs.transport (fun outstanding => outstanding)
    intro _ _ _ ready
    apply ready.transport
    · intro id' key settled
      refine ⟨⟨settled.1, ?_⟩, rfl, rfl⟩
      intro same
      cases same
      have attempting := (ready.attempting key).2
      rw [inpool] at attempting
      cases attempting
    · exact fun _ _ begun => begun
    · exact fun _ _ _ _ settled term attempting => ⟨before settled, term, attempting⟩
    · exact fun _ _ _ _ none => none
    · exact fun _ _ _ _ none => none
  have regions : RegionsOk config { hand with sock := some id } host.Pends host.sockTbl
      host.connections (queue.items host.connPool) host.disclosed host.objects :=
    ok.regions.transport (fun outstanding _ => outstanding) (.refl _) (fun _ member => .inl member)
      (Nat.le_refl _) (fun settled => .inl ⟨before settled, rfl, rfl, rfl⟩)
      (fun _ notInHand begun => .inl ⟨notInHand, begun⟩)
  have log : LogOk config mode { hand with sock := some id }
      host.sockTbl host.connections host.calls
      host.notified :=
    ok.log.transport (fun func => func) fun settled attempting =>
      .inl ⟨before settled, attempting, rfl⟩
  have listens : CountsOk config mode { hand with sock := some id } listeners
      host.sockTbl host.connections host.overlaps host.pending host.refs host.objects := by
    refine ok.listens.map fun leaked listens => ?_
    refine listens.regrip rfl (fun settled holds => ⟨before settled, holds⟩) ?_
      (fun _ _ apart => apart)
    · intro id' listener settled holds
      refine ⟨⟨settled.1, ?_⟩, holds⟩
      intro same
      cases same
      rw [void.2] at holds
      cases holds
  exact
    { ok with
      sockCapacity := capacity.trans ok.sockCapacity
      slots := slotsBefore.takeSocket empty
      jobs, regions, log, listens
      registers := fun strict => (ok.registers strict).transport (fun _ => Iff.rfl) (.refl _) rfl
        fun outside _ => .inl outside
      overlaps := { ok.overlaps with } }

/-- A socket in hand is freed. -/
theorem returnSocket (ok : HostOk config mode listeners hand host) (inHand : hand.sock = some id)
    {sock : HSocket} {sockPool : queue.Que} (state : sock.state = .inpool)
    (term : sock.term = invalidTermId) (listen : sock.pListen = none)
    (handle : sock.handle = handleOf id (host.frees id + 1))
    (added : queue.add host.sockPool id = some sockPool) :
    HostOk config mode listeners { hand with sock := none }
      { host with
        sockTbl := Function.update host.sockTbl id sock
        frees := Function.update host.frees id (host.frees id + 1)
        sockPool } := by
  rcases queue.items_of_add added with ⟨items, capacity⟩
  have slots := ok.slots.returnSocket inHand state term listen handle
  rw [← items] at slots
  have busy : ∀ {id'}, (Function.update host.sockTbl id sock id').state.attempting = true →
      id' ≠ id := by
    intro id' attempting same
    rw [same, Function.update_self, state] at attempting
    cases attempting
  have jobs : JobsOk config mode { hand with sock := none } host.Pends
      (Function.update host.sockTbl id sock) host.connections := by
    apply ok.jobs.transport (fun outstanding => outstanding)
    intro _ _ _ ready
    apply ready.transport
    · intro id' key settled
      rw [settled.update inHand]
      exact ⟨⟨settled.1, nofun⟩, rfl, rfl⟩
    · exact fun _ _ begun => begun
    · intro _ id' conId _ settled term attempting
      have other := busy attempting
      rw [Function.update_of_ne other] at term attempting
      refine ⟨⟨settled.1, ?_⟩, term, attempting⟩
      rw [inHand]
      exact fun same => other (Option.some.inj same).symm
    · exact fun _ _ _ _ none => none
    · exact fun _ _ _ _ none => none
  have regions : RegionsOk config { hand with sock := none } host.Pends
      (Function.update host.sockTbl id sock) host.connections (queue.items host.connPool)
      host.disclosed host.objects := by
    refine ok.regions.transport (fun outstanding _ => outstanding) (.refl _)
      (fun _ member => .inl member) (Nat.le_refl _) ?_
      (fun _ notInHand begun => .inl ⟨notInHand, begun⟩)
    intro id' settled
    by_cases same : id' = id
    · rw [same, Function.update_self, state]
      exact .inr ⟨nofun, nofun⟩
    · rw [Function.update_of_ne same]
      exact .inl ⟨⟨settled.1, by rw [inHand]; exact fun equal => same (Option.some.inj equal).symm⟩,
        rfl, rfl, rfl⟩
  have log : LogOk config mode { hand with sock := none } (Function.update host.sockTbl id sock)
      host.connections host.calls host.notified := by
    refine ok.log.transport (fun func => func) ?_
    intro id' settled attempting
    have other := busy attempting
    rw [Function.update_of_ne other] at attempting ⊢
    exact .inl ⟨⟨settled.1, by rw [inHand]; exact fun equal => other (Option.some.inj equal).symm⟩,
      attempting, rfl⟩
  have listens : CountsOk config mode { hand with sock := none } listeners
      (Function.update host.sockTbl id sock) host.connections host.overlaps host.pending host.refs
      host.objects := by
    refine ok.listens.map fun leaked listens => ?_
    refine listens.regrip rfl ?_ ?_ (fun _ _ apart => apart)
    · intro id' listener settled holds
      by_cases same : id' = id
      · rw [same, Function.update_self, listen] at holds
        cases holds
      · rw [Function.update_of_ne same] at holds
        exact ⟨⟨settled.1, by rw [inHand]; exact fun equal => same (Option.some.inj equal).symm⟩,
          holds⟩
    · intro id' listener settled holds
      rw [settled.update inHand]
      exact ⟨⟨settled.1, nofun⟩, holds⟩
  have handles : HandlesOk config (Function.update host.frees id (host.frees id + 1))
      host.delivered := by
    constructor
    intro given member
    rcases ok.handles.known given member with ⟨sockId, same, low⟩
    refine ⟨sockId, same, ?_⟩
    by_cases equal : handleToId given.handle = id
    · rw [equal, Function.update_self]
      rw [equal] at low
      exact Nat.le_succ_of_le low
    · rwa [Function.update_of_ne equal]
  exact
    { ok with
      sockCapacity := capacity.trans ok.sockCapacity
      slots, jobs, regions, log, listens, handles
      registers := fun strict => (ok.registers strict).transport (fun _ => Iff.rfl) (.refl _) rfl
        fun outside _ => .inl outside
      overlaps := { ok.overlaps with } }

/-- The settled sockets after one is put down. -/
theorem settled_of_stow (inHand : hand.sock = some id) {id' : ℕ} {refs : List ℕ}
    (settled : Hand.Settled config { hand with sock := none, term := none, refs } id')
    (other : id' ≠ id) : hand.Settled config id' :=
  ⟨settled.1, by rw [inHand]; exact fun equal => other (Option.some.inj equal).symm⟩

theorem stow (ok : HostOk config mode listeners hand host)
    (stowable : Stowable config mode hand host id) {refs : List ℕ}
    (listens : CountsOk config mode { hand with sock := none, term := none, refs }
      listeners host.sockTbl
        host.connections host.overlaps host.pending host.refs host.objects) :
    HostOk config mode listeners { hand with sock := none, term := none, refs } host := by
  have inHand := stowable.inHand
  have jobs : JobsOk config mode { hand with sock := none, term := none, refs } host.Pends
      host.sockTbl host.connections := by
    refine ok.jobs.transport (fun outstanding => outstanding) ?_
    intro ov job outstanding ready
    apply ready.transport
    · exact fun id' _ settled => ⟨⟨settled.1, nofun⟩, rfl, rfl⟩
    · exact fun _ _ begun => begun
    · intro tight id' conId runs settled term attempting
      by_cases same : id' = id
      · rw [same] at term attempting
        rw [runs, ← term] at outstanding
        exact absurd outstanding (stowable.noDiscon tight attempting ov)
      · exact ⟨settled_of_stow inHand settled same, term, attempting⟩
    · exact fun _ _ _ _ none => none
    · exact fun _ _ _ _ none => none
  have regions : RegionsOk config { hand with sock := none, term := none, refs } host.Pends
      host.sockTbl host.connections (queue.items host.connPool) host.disclosed host.objects := by
    refine ok.regions.transport (fun outstanding _ => outstanding) (.refl _)
      (fun _ member => .inl member) (Nat.le_refl _) ?_ ?_
    · intro id' settled
      by_cases same : id' = id
      · rw [same]
        exact .inr ⟨stowable.secret, stowable.connecting⟩
      · exact .inl ⟨settled_of_stow inHand settled same, rfl, rfl, rfl⟩
    · intro conId _ _ begun
      by_cases same : hand.term = some conId
      · rcases stowable.term with none | some
        · rw [none.1] at same
          cases same
        · rw [some] at same
          cases same
          exact .inr (stowable.started (by rw [some]; exact nofun) begun)
      · exact .inl ⟨same, begun⟩
  have log : LogOk config mode { hand with sock := none, term := none, refs } host.sockTbl
      host.connections host.calls host.notified := by
    refine ok.log.transport (fun func => func) ?_
    intro id' settled attempting
    by_cases same : id' = id
    · rw [same] at attempting ⊢
      exact .inr (stowable.quiet attempting)
    · exact .inl ⟨settled_of_stow inHand settled same, attempting, rfl⟩
  exact
    { ok with
      slots := ok.slots.stow inHand stowable.fits stowable.active stowable.term
      jobs, regions, log, listens
      registers := fun strict => (ok.registers strict).transport (fun _ => Iff.rfl) (.refl _) rfl
        fun outside _ => .inl outside
      overlaps := { ok.overlaps with } }

/-- A socket is picked up, with its terminal if it has one. -/
theorem grab (ok : HostOk config mode listeners hand host) (sockEmpty : hand.sock = none)
    (termEmpty : hand.term = none) (sockId : config.SockId id)
    (active : (host.sockTbl id).state ≠ .inpool) {term : Option ℕ} {refs : List ℕ}
    (owns : term = none ∧ (host.sockTbl id).term = invalidTermId ∨
      term = some (host.sockTbl id).term ∧ config.TermId (host.sockTbl id).term)
    (idle : ∀ {ov job}, host.Pends ov job → mode.key job ≠ some (.attempt id))
    (listens : CountsOk config mode { hand with sock := some id, term, refs } listeners host.sockTbl
        host.connections host.overlaps host.pending host.refs host.objects) :
    HostOk config mode listeners { hand with sock := some id, term, refs } host := by
  have before : ∀ {id'}, Hand.Settled config { hand with sock := some id, term, refs } id' →
      hand.Settled config id' := fun settled => (SlotsOk.settled_of_grab sockEmpty settled).1
  have jobs : JobsOk config mode { hand with sock := some id, term, refs } host.Pends
      host.sockTbl host.connections := by
    refine ok.jobs.transport (fun outstanding => outstanding) ?_
    intro ov job outstanding ready
    apply ready.transport
    · intro id' key settled
      refine ⟨⟨settled.1, ?_⟩, rfl, rfl⟩
      intro same
      cases same
      exact idle outstanding key
    · exact fun _ _ begun => begun
    · exact fun _ _ _ _ settled term attempting => ⟨before settled, term, attempting⟩
    · exact fun _ _ _ _ none => none
    · exact fun _ _ _ _ none => none
  have regions : RegionsOk config { hand with sock := some id, term, refs } host.Pends
      host.sockTbl host.connections (queue.items host.connPool) host.disclosed host.objects :=
    ok.regions.transport (fun outstanding _ => outstanding) (.refl _) (fun _ member => .inl member)
      (Nat.le_refl _) (fun settled => .inl ⟨before settled, rfl, rfl, rfl⟩)
      (fun _ _ begun => .inl ⟨by rw [termEmpty]; exact nofun, begun⟩)
  have log : LogOk config mode { hand with sock := some id, term, refs } host.sockTbl
      host.connections host.calls host.notified :=
    ok.log.transport (fun func => func) fun settled attempting =>
      .inl ⟨before settled, attempting, rfl⟩
  exact
    { ok with
      slots := ok.slots.grab sockEmpty termEmpty sockId active owns
      jobs, regions, log, listens
      registers := fun strict => (ok.registers strict).transport (fun _ => Iff.rfl) (.refl _) rfl
        fun outside _ => .inl outside
      overlaps := { ok.overlaps with } }

end Sockets

section Terminals

theorem takeTerminal (ok : HostOk config mode listeners hand host) (empty : hand.term = none)
    {connPool : queue.Que} (taken : queue.get host.connPool = some (conId, connPool))
    (notMaking : hand.making = none) :
    HostOk config mode listeners { hand with term := some conId, making := some conId }
      { host with connPool } := by
  rcases queue.items_of_get taken with ⟨items, capacity⟩
  have slotsBefore := ok.slots
  rw [items] at slotsBefore
  have jobs : JobsOk config mode { hand with term := some conId, making := some conId } host.Pends
      host.sockTbl host.connections := by
    refine ok.jobs.transport (fun outstanding => outstanding) ?_
    intro ov job outstanding ready
    apply ready.transport
    · exact fun id' _ settled => ⟨settled, rfl, rfl⟩
    · exact fun _ _ begun => begun
    · exact fun _ _ _ _ settled term attempting => ⟨settled, term, attempting⟩
    · exact fun _ _ _ _ none => none
    · exact fun _ _ _ _ none => none
  have regions : RegionsOk config { hand with term := some conId, making := some conId } host.Pends
      host.sockTbl host.connections (queue.items connPool) host.disclosed host.objects := by
    refine ok.regions.transport (fun outstanding _ => outstanding) (.refl _) ?_
      (Nat.le_refl _) (fun settled => .inl ⟨settled, rfl, rfl, rfl⟩)
      (fun _ _ begun => .inl ⟨by rw [empty]; exact nofun, begun⟩)
    intro conId' member
    left
    rw [items]
    exact List.mem_cons_of_mem conId member
  have registers : mode.strict = true → RegistersOk config mode
      { hand with term := some conId, making := some conId } host.Pends host.connections
      (queue.items connPool) := by
    intro strict
    have before := ok.registers strict
    have notMaking : ∀ conId', hand.making ≠ some conId' := by
      intro conId'
      rw [notMaking]
      exact nofun
    refine ⟨fun inRange _ => before.half inRange (notMaking _),
      fun outstanding _ => before.awaitsMem outstanding (notMaking _), before.awaitsTag, ?_⟩
    intro noClosers conId' inRange outside other
    apply before.used noClosers inRange ?_ (notMaking _)
    rw [items]
    intro member
    rcases List.mem_cons.mp member with same | member
    · exact other (by rw [same])
    · exact outside member
  have listens : CountsOk config mode
      { hand with term := some conId, making := some conId } listeners host.sockTbl
      host.connections host.overlaps host.pending host.refs host.objects := by
    refine ok.listens.map fun leaked listens => ?_
    exact listens.regrip rfl (fun settled holds => ⟨settled, holds⟩)
      (fun settled holds => ⟨settled, holds⟩) (fun _ _ apart => apart)
  have log : LogOk config mode { hand with term := some conId, making := some conId } host.sockTbl
      host.connections host.calls host.notified :=
    ok.log.transport (fun func => func) fun settled attempting => .inl ⟨settled, attempting, rfl⟩
  have slots := slotsBefore.takeTerminal empty
  exact
    { ok with
      connCapacity := capacity.trans ok.connCapacity
      slots := { slots with }
      jobs, regions, registers, log, listens
      overlaps := { ok.overlaps with } }

theorem returnTerminal (ok : HostOk config mode listeners hand host)
    (inHand : hand.term = some conId)
    (void : (host.connections conId).voidFlds = host.connections conId)
    (secret : (host.connections conId).Secret host.disclosed) {connPool : queue.Que}
    (added : queue.add host.connPool conId = some connPool) :
    HostOk config mode listeners { hand with term := none } { host with connPool } := by
  rcases queue.items_of_add added with ⟨items, capacity⟩
  have slots := ok.slots.returnTerminal inHand void
  rw [← items] at slots
  have jobs : JobsOk config mode { hand with term := none } host.Pends host.sockTbl
      host.connections := by
    refine ok.jobs.transport (fun outstanding => outstanding) ?_
    intro ov job outstanding ready
    apply ready.transport
    · exact fun id' _ settled => ⟨settled, rfl, rfl⟩
    · exact fun _ _ begun => begun
    · exact fun _ _ _ _ settled term attempting => ⟨settled, term, attempting⟩
    · exact fun _ _ _ _ none => none
    · exact fun _ _ _ _ none => none
  have regions : RegionsOk config { hand with term := none } host.Pends
      host.sockTbl host.connections (queue.items connPool) host.disclosed host.objects := by
    refine ok.regions.transport (fun outstanding _ => outstanding) (.refl _) ?_
      (Nat.le_refl _) (fun settled => .inl ⟨settled, rfl, rfl, rfl⟩) ?_
    · intro conId' member
      rw [items] at member
      rcases List.mem_append.mp member with old | new
      · exact .inl old
      · rw [List.mem_singleton.mp new]
        exact .inr secret
    · intro conId' _ _ begun
      refine .inl ⟨?_, begun⟩
      intro same
      rw [inHand] at same
      cases same
      rw [← void] at begun
      exact begun rfl
  have registers : mode.strict = true → RegistersOk config mode { hand with term := none }
      host.Pends host.connections (queue.items connPool) := by
    intro strict
    refine (ok.registers strict).transport (fun _ => Iff.rfl) (.refl _) rfl ?_
    intro conId' outside _
    rw [items] at outside
    exact .inl fun member => outside (List.mem_append_left _ member)
  have listens : CountsOk config mode { hand with term := none } listeners
      host.sockTbl host.connections host.overlaps host.pending host.refs host.objects := by
    refine ok.listens.map fun leaked listens => ?_
    exact listens.regrip rfl (fun settled holds => ⟨settled, holds⟩)
      (fun settled holds => ⟨settled, holds⟩) (fun _ _ apart => apart)
  have log : LogOk config mode { hand with term := none } host.sockTbl
      host.connections host.calls host.notified :=
    ok.log.transport (fun func => func) fun settled attempting => .inl ⟨settled, attempting, rfl⟩
  exact
    { ok with
      connCapacity := capacity.trans ok.connCapacity
      slots, jobs, regions, registers, log, listens
      overlaps := { ok.overlaps with } }

/-- The regions of a terminal have been registered, or it is in the pool again. -/
theorem made (ok : HostOk config mode listeners hand host) (making : hand.making = some conId)
    (half : mode.strict = true → (host.connections conId).pTagRegion ≠ none →
      (host.connections conId).pMemRegion ≠ none ∨
        ∃ ov region, host.Pends ov (.onMemRegistered conId region))
    (awaits : mode.strict = true → ∀ {ov region}, host.Pends ov (.onTagRegistered conId region) →
      ∃ ov' region', host.Pends ov' (.onMemRegistered conId region'))
    (used : mode.strict = true → mode.closers = false → conId ∉ queue.items host.connPool →
      (host.connections conId).pMemRegion ≠ none ∨
        ∃ ov region, host.Pends ov (.onMemRegistered conId region)) :
    HostOk config mode listeners { hand with making := none } host := by
  have registers : mode.strict = true → RegistersOk config mode { hand with making := none }
      host.Pends host.connections (queue.items host.connPool) := by
    intro strict
    have before := ok.registers strict
    have other : ∀ {conId'}, conId' ≠ conId → hand.making ≠ some conId' := by
      intro conId' different same
      rw [making] at same
      exact different (Option.some.inj same).symm
    refine ⟨?_, ?_, before.awaitsTag, ?_⟩
    · intro conId' inRange _ begun
      by_cases same : conId' = conId
      · rw [same] at begun ⊢
        exact half strict begun
      · exact before.half inRange (other same) begun
    · intro ov conId' region outstanding _
      by_cases same : conId' = conId
      · rw [same] at outstanding ⊢
        exact awaits strict outstanding
      · exact before.awaitsMem outstanding (other same)
    · intro noClosers conId' inRange outside _
      by_cases same : conId' = conId
      · rw [same] at outside ⊢
        exact used strict noClosers outside
      · exact before.used noClosers inRange outside (other same)
  exact
    { ok with
      slots := { ok.slots with }
      jobs := ⟨ok.jobs.ready, ok.jobs.once⟩
      regions := { ok.regions with }
      registers
      log := { ok.log with }
      listens := ok.listens.map fun _ listens => { listens with }
      overlaps := { ok.overlaps with } }

end Terminals

end HostOk

end Hermes
