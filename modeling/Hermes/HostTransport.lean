import Hermes.HostSlots

/-!
# What the parts of the invariant depend on

Each part of `HostOk` but the tables and pools is carried from one state to another
by one lemma, whose hypotheses say what may have changed in between.
-/

namespace Hermes

variable {config : HostConfig} {mode : Mode} {hand hand' : Hand}
  {jobs jobs' : ℕ → AsyncJob → Prop} {sockTbl sockTbl' : ℕ → HSocket}
  {connections connections' : ℕ → Terminal} {connItems connItems' : List ℕ}

/-- The terminals have the same regions. -/
def SameRegions (connections connections' : ℕ → Terminal) : Prop :=
  ∀ conId, (connections' conId).pTagRegion = (connections conId).pTagRegion ∧
    (connections' conId).pMemRegion = (connections conId).pMemRegion

theorem SameRegions.refl (connections : ℕ → Terminal) : SameRegions connections connections :=
  fun _ => ⟨rfl, rfl⟩

theorem SameRegions.records (same : SameRegions connections connections') {conId region : ℕ} :
    (connections' conId).Records region ↔ (connections conId).Records region := by
  rw [Terminal.Records, (same conId).1, (same conId).2, Terminal.Records]

theorem SameRegions.secret (same : SameRegions connections connections') {conId : ℕ}
    {disclosed : List ℕ} :
    (connections' conId).Secret disclosed ↔ (connections conId).Secret disclosed := by
  simp only [Terminal.Secret, same.records]

/-- A terminal changes, but not its regions. -/
theorem SameRegions.update {conId : ℕ} {terminal : Terminal}
    (tag : terminal.pTagRegion = (connections conId).pTagRegion)
    (mem : terminal.pMemRegion = (connections conId).pMemRegion) :
    SameRegions connections (Function.update connections conId terminal) := by
  intro conId'
  by_cases same : conId' = conId
  · rw [same, Function.update_self]
    exact ⟨tag, mem⟩
  · rw [Function.update_of_ne same]
    exact ⟨rfl, rfl⟩

section Jobs

/-- Nothing an operation relies on changes. -/
theorem JobReady.transport {job : AsyncJob}
    (ready : JobReady config mode hand sockTbl connections job)
    (attempt : ∀ id, mode.key job = some (.attempt id) → hand.Settled config id →
      hand'.Settled config id ∧ (sockTbl' id).state = (sockTbl id).state ∧
        (connections' (sockTbl' id).term).pDisconnectCont =
          (connections (sockTbl id).term).pDisconnectCont)
    (started : ∀ conId, mode.key job = some (.discon conId) ∨ mode.key job = some (.verb conId) →
      (connections conId).pDisconnectCont ≠ none → (connections' conId).pDisconnectCont ≠ none)
    (settled : mode.loose = false → ∀ id conId, job = .onDisconNotified conId →
      hand'.Settled config id → (sockTbl' id).term = conId →
        (sockTbl' id).state.attempting = true →
          hand.Settled config id ∧ (sockTbl id).term = conId ∧
            (sockTbl id).state.attempting = true)
    (tag : ∀ conId region, job = .onTagRegistered conId region → mode.strict = true →
      (connections conId).pTagRegion = none → (connections' conId).pTagRegion = none)
    (mem : ∀ conId region, job = .onMemRegistered conId region → mode.strict = true →
      (connections conId).pMemRegion = none → (connections' conId).pMemRegion = none) :
    JobReady config mode hand' sockTbl' connections' job := by
  cases job with
  | onTagRegistered conId region =>
      exact ⟨ready.1, fun strict => tag conId region rfl strict (ready.2 strict)⟩
  | onMemRegistered conId region =>
      exact ⟨ready.1, fun strict => mem conId region rfl strict (ready.2 strict)⟩
  | onConn id listen =>
      rcases ready with ⟨before, state, idle⟩
      rcases attempt id rfl before with ⟨after, state', cont⟩
      exact ⟨after, state'.trans state, cont.trans idle⟩
  | onConnAck id =>
      rcases ready with ⟨before, state⟩
      rcases attempt id rfl before with ⟨after, state', _⟩
      exact ⟨after, state'.trans state⟩
  | onAccepted id =>
      refine ⟨ready.1, ?_⟩
      intro tight
      rcases ready.2 tight with ⟨before, state, begun⟩
      rcases attempt id (by simp [Mode.key, tight]) before with ⟨after, state', cont⟩
      exact ⟨after, by rwa [state'], by rwa [cont]⟩
  | onDisconNotified conId =>
      refine ⟨ready.1, ?_⟩
      intro tight
      refine ⟨started conId (.inl (by simp [Mode.key, tight])) (ready.2 tight).1, ?_⟩
      intro id after term
      by_contra attempting
      rcases settled tight id conId rfl after term (by simpa using attempting) with
        ⟨before, term, attempting⟩
      rw [(ready.2 tight).2 id before term] at attempting
      cases attempting
  | verbCompletion conId =>
      refine ⟨ready.1, ?_⟩
      intro noClosers
      exact started conId (.inr (by simp [Mode.key, noClosers])) (ready.2 noClosers)

/-- Some operations may have ended. -/
theorem JobsOk.transport (ok : JobsOk config mode hand jobs sockTbl connections)
    (fewer : ∀ {ov job}, jobs' ov job → jobs ov job)
    (ready : ∀ {ov job}, jobs' ov job → JobReady config mode hand sockTbl connections job →
      JobReady config mode hand' sockTbl' connections' job) :
    JobsOk config mode hand' jobs' sockTbl' connections' where
  ready outstanding := ready outstanding (ok.ready (fewer outstanding))
  once first second := ok.once (fewer first) (fewer second)

/-- One more operation is outstanding. -/
theorem JobsOk.add (ok : JobsOk config mode hand jobs sockTbl connections) {ov : ℕ}
    {job : AsyncJob}
    (more : ∀ {ov' job'}, jobs' ov' job' → jobs ov' job' ∨ ov' = ov ∧ job' = job)
    (ready : JobReady config mode hand sockTbl connections job)
    (alone : ∀ {ov' job'}, jobs ov' job' → mode.key job ≠ none → mode.key job' ≠ mode.key job) :
    JobsOk config mode hand jobs' sockTbl connections where
  ready outstanding := by
    rcases more outstanding with old | ⟨_, new⟩
    · exact ok.ready old
    · rw [new]
      exact ready
  once first second key key' := by
    rcases more first with old | ⟨same, new⟩
    · rcases more second with old' | ⟨same', new'⟩
      · exact ok.once old old' key key'
      · rw [new'] at key'
        exact absurd (key.trans key'.symm) (alone old (by rw [key']; exact nofun))
    · rcases more second with old' | ⟨same', new'⟩
      · rw [new] at key
        exact absurd (key'.trans key.symm) (alone old' (by rw [key]; exact nofun))
      · rw [same, same']

theorem Mode.key_tag {job : AsyncJob} {conId : ℕ} (key : mode.key job = some (.tag conId)) :
    mode.strict = true ∧ ∃ region, job = .onTagRegistered conId region := by
  cases job
  case onTagRegistered conId' region =>
    simp only [Mode.key, Option.ite_none_right_eq_some, Option.some.injEq, JobKey.tag.injEq] at key
    exact ⟨key.1, region, by rw [key.2]⟩
  all_goals simp [Mode.key] at key

theorem Mode.key_mem {job : AsyncJob} {conId : ℕ} (key : mode.key job = some (.mem conId)) :
    mode.strict = true ∧ ∃ region, job = .onMemRegistered conId region := by
  cases job
  case onMemRegistered conId' region =>
    simp only [Mode.key, Option.ite_none_right_eq_some, Option.some.injEq, JobKey.mem.injEq] at key
    exact ⟨key.1, region, by rw [key.2]⟩
  all_goals simp [Mode.key] at key

theorem Mode.key_discon {job : AsyncJob} {conId : ℕ} (key : mode.key job = some (.discon conId)) :
    mode.loose = false ∧ job = .onDisconNotified conId := by
  cases job
  case onDisconNotified conId' =>
    simp only [Mode.key, Option.ite_none_left_eq_some, Option.some.injEq, JobKey.discon.injEq]
      at key
    exact ⟨by simpa using key.1, by rw [key.2]⟩
  all_goals simp [Mode.key] at key

/-- An attempt that goes on is the attempt of a settled socket. -/
theorem JobReady.attempting {job : AsyncJob} {id : ℕ}
    (ready : JobReady config mode hand sockTbl connections job)
    (key : mode.key job = some (.attempt id)) :
    hand.Settled config id ∧ (sockTbl id).state.attempting = true := by
  cases job
  case onConn id' listen =>
    cases key
    exact ⟨ready.1, by rw [ready.2.1, SocketState.attempting]⟩
  case onConnAck id' =>
    cases key
    exact ⟨ready.1, by rw [ready.2, SocketState.attempting]⟩
  case onAccepted id' =>
    cases loose : mode.loose with
    | true => simp [Mode.key, loose] at key
    | false =>
        simp only [Mode.key, loose, Bool.false_eq_true, if_false, Option.some.injEq,
          JobKey.attempt.injEq] at key
        rw [key] at ready
        rcases ready.2 loose with ⟨settled, state | state, _⟩
        all_goals exact ⟨settled, by rw [state, SocketState.attempting]⟩
  all_goals
    simp only [Mode.key] at key
    split at key <;> cases key

/-- No attempt of the socket in hand is outstanding. -/
theorem JobsOk.noAttempt (ok : JobsOk config mode hand jobs sockTbl connections) {id ov : ℕ}
    {job : AsyncJob} (inHand : hand.sock = some id) (outstanding : jobs ov job) :
    mode.key job ≠ some (.attempt id) :=
  fun key => ((ok.ready outstanding).attempting key).1.2 inHand

/-- No operation of a connection is outstanding for a terminal that is not started. -/
theorem JobsOk.notStarted (ok : JobsOk config mode hand jobs sockTbl connections)
    {conId ov : ℕ} {job : AsyncJob} (idle : (connections conId).pDisconnectCont = none)
    (outstanding : jobs ov job) :
    mode.key job ≠ some (.verb conId) ∧ mode.key job ≠ some (.discon conId) := by
  have ready := ok.ready outstanding
  cases job
  case verbCompletion conId' =>
    refine ⟨?_, by simp only [Mode.key]; split <;> exact nofun⟩
    intro key
    cases closers : mode.closers with
    | true => simp [Mode.key, closers] at key
    | false =>
        simp only [Mode.key, closers, Bool.false_eq_true, if_false, Option.some.injEq,
          JobKey.verb.injEq] at key
        rw [key] at ready
        exact ready.2 closers idle
  case onDisconNotified conId' =>
    refine ⟨by simp only [Mode.key]; split <;> exact nofun, ?_⟩
    intro key
    cases loose : mode.loose with
    | true => simp [Mode.key, loose] at key
    | false =>
        simp only [Mode.key, loose, Bool.false_eq_true, if_false, Option.some.injEq,
          JobKey.discon.injEq] at key
        rw [key] at ready
        exact (ready.2 loose).1 idle
  all_goals
    simp only [Mode.key]
    try split
    all_goals simp

end Jobs

section Regions

variable {disclosed : List ℕ} {objects objects' : ℕ}

theorem RegionsOk.transport
    (ok : RegionsOk config hand jobs sockTbl connections connItems disclosed objects)
    (fewer : ∀ {ov job}, jobs' ov job → job.region? ≠ none → jobs ov job)
    (same : SameRegions connections connections')
    (pool : ∀ conId ∈ connItems', conId ∈ connItems ∨ (connections conId).Secret disclosed)
    (grow : objects ≤ objects')
    (settled : ∀ {id}, hand'.Settled config id →
      (hand.Settled config id ∧ (sockTbl' id).state = (sockTbl id).state ∧
        (sockTbl' id).term = (sockTbl id).term ∧
          (connections' (sockTbl id).term).pDisconnectCont =
            (connections (sockTbl id).term).pDisconnectCont) ∨
      ((sockTbl' id).state = .accept1 →
          (connections' (sockTbl' id).term).pDisconnectCont = none →
            (connections (sockTbl' id).term).Secret disclosed) ∧
        ((sockTbl' id).state = .connecting →
          (connections (sockTbl' id).term).pMemRegion ≠ none))
    (started : ∀ {conId}, config.TermId conId → hand'.term ≠ some conId →
      (connections' conId).pDisconnectCont ≠ none →
        hand.term ≠ some conId ∧ (connections conId).pDisconnectCont ≠ none ∨
          (connections conId).pMemRegion ≠ none) :
    RegionsOk config hand' jobs' sockTbl' connections' connItems' disclosed objects' where
  outstanding job region := by
    rcases ok.outstanding (fewer job (by rw [region]; exact nofun)) region with ⟨low, hidden, new⟩
    exact ⟨Nat.lt_of_lt_of_le low grow, hidden, fun conId inRange records =>
      new conId inRange (same.records.mp records)⟩
  once first second region region' :=
    ok.once (fewer first (by rw [region]; exact nofun))
      (fewer second (by rw [region']; exact nofun))
      region region'
  recorded inRange records :=
    Nat.lt_of_lt_of_le (ok.recorded inRange (same.records.mp records)) grow
  recordedOnce inRange inRange' records records' :=
    ok.recordedOnce inRange inRange' (same.records.mp records) (same.records.mp records')
  disclosedLt region member := Nat.lt_of_lt_of_le (ok.disclosedLt region member) grow
  secretPool conId member := by
    rw [same.secret]
    rcases pool conId member with old | secret
    · exact ok.secretPool conId old
    · exact secret
  secretAccept after state idle := by
    rw [same.secret]
    rcases settled after with ⟨before, state', term, cont⟩ | ⟨accept, _⟩
    · rw [term] at idle ⊢
      exact ok.secretAccept before (state' ▸ state) (cont ▸ idle)
    · exact accept state idle
  both inRange mem := by
    rw [(same _).1]
    rw [(same _).2] at mem
    exact ok.both inRange mem
  started inRange notInHand begun := by
    rw [(same _).2]
    rcases started inRange notInHand begun with ⟨before, begun⟩ | mem
    · exact ok.started inRange before begun
    · exact mem
  connecting after state := by
    rw [(same _).2]
    rcases settled after with ⟨before, state', term, _⟩ | ⟨_, connecting⟩
    · rw [term]
      exact ok.connecting before (state' ▸ state)
    · exact connecting state

theorem RegistersOk.transport (ok : RegistersOk config mode hand jobs connections connItems)
    (sameJobs : ∀ {ov job}, job.region? ≠ none → (jobs' ov job ↔ jobs ov job))
    (same : SameRegions connections connections') (making : hand'.making = hand.making)
    (pool : ∀ {conId}, conId ∉ connItems' → hand.making ≠ some conId →
      conId ∉ connItems ∨ (connections conId).pMemRegion ≠ none ∨
        ∃ ov region, jobs ov (.onMemRegistered conId region)) :
    RegistersOk config mode hand' jobs' connections' connItems' := by
  have mem : ∀ {conId}, (∃ ov region, jobs' ov (.onMemRegistered conId region)) ↔
      ∃ ov region, jobs ov (.onMemRegistered conId region) := by
    intro conId
    exact exists_congr fun ov => exists_congr fun region => sameJobs (by simp [AsyncJob.region?])
  have tag : ∀ {conId}, (∃ ov region, jobs' ov (.onTagRegistered conId region)) ↔
      ∃ ov region, jobs ov (.onTagRegistered conId region) := by
    intro conId
    exact exists_congr fun ov => exists_congr fun region => sameJobs (by simp [AsyncJob.region?])
  constructor
  · intro conId inRange notMaking begun
    rw [(same conId).1] at begun
    rw [(same conId).2, mem]
    exact ok.half inRange (making ▸ notMaking) begun
  · intro ov conId region outstanding notMaking
    rw [mem]
    exact ok.awaitsMem ((sameJobs (by simp [AsyncJob.region?])).mp outstanding) (making ▸ notMaking)
  · intro noClosers ov conId region outstanding
    rw [(same conId).1, tag]
    exact ok.awaitsTag noClosers ((sameJobs (by simp [AsyncJob.region?])).mp outstanding)
  · intro noClosers conId inRange outside notMaking
    rw [making] at notMaking
    rw [(same conId).2, mem]
    rcases pool outside notMaking with before | some
    · exact ok.used noClosers inRange before notMaking
    · exact some

/-- One more registration is outstanding. -/
theorem RegistersOk.add (ok : RegistersOk config mode hand jobs connections connItems) {ov : ℕ}
    {job : AsyncJob} (more : ∀ {ov' job'}, jobs' ov' job' ↔ jobs ov' job' ∨ ov' = ov ∧ job' = job)
    (making : hand'.making = hand.making)
    (tag : ∀ conId region, job = .onTagRegistered conId region → hand.making = some conId)
    (mem : ∀ conId region, job = .onMemRegistered conId region → mode.closers = false →
      (connections conId).pTagRegion ≠ none ∨
        ∃ ov' region', jobs ov' (.onTagRegistered conId region')) :
    RegistersOk config mode hand' jobs' connections connItems := by
  have keepsMem : ∀ {conId}, (∃ ov region, jobs ov (.onMemRegistered conId region)) →
      ∃ ov region, jobs' ov (.onMemRegistered conId region) := by
    rintro conId ⟨ov, region, outstanding⟩
    exact ⟨ov, region, more.mpr (.inl outstanding)⟩
  have keepsTag : ∀ {conId}, (∃ ov region, jobs ov (.onTagRegistered conId region)) →
      ∃ ov region, jobs' ov (.onTagRegistered conId region) := by
    rintro conId ⟨ov, region, outstanding⟩
    exact ⟨ov, region, more.mpr (.inl outstanding)⟩
  constructor
  · intro conId inRange notMaking begun
    exact (ok.half inRange (making ▸ notMaking) begun).imp_right keepsMem
  · intro ov' conId region outstanding notMaking
    rw [making] at notMaking
    rcases more.mp outstanding with old | ⟨_, new⟩
    · exact keepsMem (ok.awaitsMem old notMaking)
    · exact absurd (tag conId region new.symm) notMaking
  · intro noClosers ov' conId region outstanding
    rcases more.mp outstanding with old | ⟨_, new⟩
    · exact (ok.awaitsTag noClosers old).imp_right keepsTag
    · exact (mem conId region new.symm noClosers).imp_right keepsTag
  · intro noClosers conId inRange outside notMaking
    exact (ok.used noClosers inRange outside (making ▸ notMaking)).imp_right keepsMem

end Regions

section Log

variable {calls : ℕ} {notified : List Notification}

theorem LogOk.transport (ok : LogOk config mode hand sockTbl connections calls notified)
    (funcs : ∀ {conId notifier}, (connections' conId).pConnFunc = some notifier →
      (connections conId).pConnFunc = some notifier)
    (settled : ∀ {id}, hand'.Settled config id → (sockTbl' id).state.attempting = true →
      (hand.Settled config id ∧ (sockTbl id).state.attempting = true ∧
        (sockTbl' id).term = (sockTbl id).term) ∨
      ∀ notifier, (connections (sockTbl' id).term).pConnFunc = some notifier →
        ∀ entry ∈ notified, entry.notifier.call ≠ notifier.call) :
    LogOk config mode hand' sockTbl' connections' calls notified where
  called inRange func := ok.called inRange (funcs func)
  once inRange inRange' func func' := ok.once inRange inRange' (funcs func) (funcs func')
  logged := ok.logged
  nodup := ok.nodup
  quiet after attempting func := by
    rcases settled after attempting with ⟨before, attempting', term⟩ | quiet
    · rw [term] at func
      exact ok.quiet before attempting' (funcs func)
    · exact quiet _ (funcs func)

end Log

section Continuations

variable {arenas arenas' : ℕ}

/-- Terminals keep or lose their continuations. -/
theorem ContinuationsOk.transport (ok : ContinuationsOk config connections arenas)
    (grow : arenas ≤ arenas')
    (fewer : ∀ {conId continuation}, (connections' conId).pDisconnectCont = some continuation →
      (connections conId).pDisconnectCont = some continuation) :
    ContinuationsOk config connections' arenas' where
  made inRange holds := Nat.lt_of_lt_of_le (ok.made inRange (fewer holds)) grow
  once inRange inRange' holds holds' := ok.once inRange inRange' (fewer holds) (fewer holds')

/-- A terminal keeps its continuation, loses it, or gets one that no other terminal has. -/
theorem ContinuationsOk.update (ok : ContinuationsOk config connections arenas) {conId : ℕ}
    {terminal : Terminal}
    (own : ∀ continuation, terminal.pDisconnectCont = some continuation →
      (connections conId).pDisconnectCont = some continuation ∨
        continuation < arenas ∧ ∀ conId', config.TermId conId' →
          (connections conId').pDisconnectCont ≠ some continuation) :
    ContinuationsOk config (Function.update connections conId terminal) arenas := by
  have cases : ∀ {conId' continuation},
      (Function.update connections conId terminal conId').pDisconnectCont = some continuation →
        (connections conId').pDisconnectCont = some continuation ∨
          conId' = conId ∧ continuation < arenas ∧ ∀ conId'', config.TermId conId'' →
            (connections conId'').pDisconnectCont ≠ some continuation := by
    intro conId' continuation holds
    by_cases same : conId' = conId
    · rw [same, Function.update_self] at holds
      rw [same]
      exact (own continuation holds).imp_right fun new => ⟨rfl, new⟩
    · rw [Function.update_of_ne same] at holds
      exact .inl holds
  constructor
  · intro conId' continuation inRange holds
    rcases cases holds with old | ⟨_, made, _⟩
    · exact ok.made inRange old
    · exact made
  · intro conId' conId'' continuation inRange inRange' holds holds'
    rcases cases holds with old | ⟨same, _, fresh⟩
    · rcases cases holds' with old' | ⟨_, _, fresh'⟩
      · exact ok.once inRange inRange' old old'
      · exact absurd old (fresh' conId' inRange)
    · rcases cases holds' with old' | ⟨same', _, _⟩
      · exact absurd old' (fresh conId'' inRange')
      · rw [same, same']

end Continuations

section Listeners

variable {listeners : List ℕ} {overlaps overlaps' : ℕ → HOverlap} {pending pending' : List ℕ}
  {refs refs' : ℕ → ℕ} {objects objects' : ℕ}

theorem ListenersOk.transport
    (ok : ListenersOk config hand listeners sockTbl connections overlaps pending refs objects)
    (grow : objects ≤ objects')
    (count : ∀ listener ∈ listeners,
      refs' listener + waiting overlaps pending listener + hand.refs.count listener =
        refs listener + waiting overlaps' pending' listener + hand'.refs.count listener)
    (held : ∀ {id listener}, hand'.Settled config id → (sockTbl' id).pListen = some listener →
      hand.Settled config id ∧ (sockTbl id).pListen = some listener)
    (unheld : ∀ {id listener}, hand.Settled config id → (sockTbl id).pListen = some listener →
      hand'.Settled config id ∧ (sockTbl' id).pListen = some listener)
    (inHand : ∀ listener ∈ hand'.refs, listener ∈ hand.refs ∨ listener ∈ listeners)
    (apart : ∀ conId, config.TermId conId → (connections conId).Apart listeners objects →
      (connections' conId).Apart listeners objects')
    (jobs : ∀ {ov job}, ov ∈ pending' → (overlaps' ov).job? = some job →
      (ov ∈ pending ∧ (overlaps ov).job? = some job) ∨
        (∀ listener, job.listens? = some listener → listener ∈ listeners) ∧
          ∀ region, job.region? = some region → region ∉ listeners) :
    ListenersOk config hand' listeners sockTbl' connections' overlaps' pending' refs' objects' where
  made listener member := Nat.lt_of_lt_of_le (ok.made listener member) grow
  held settled holds := by
    rcases held settled holds with ⟨before, holds'⟩
    rcases ok.held before holds' with ⟨member, exact⟩
    have counts := count _ member
    exact ⟨member, by omega⟩
  heldOnce settled settled' holds holds' :=
    ok.heldOnce (held settled holds).1 (held settled' holds').1 (held settled holds).2
      (held settled' holds').2
  unheld listener member free := by
    have before := ok.unheld listener member fun id settled holds =>
      free id (unheld settled holds).1 (unheld settled holds).2
    have counts := count listener member
    omega
  inHand listener member := by
    rcases inHand listener member with before | new
    · exact ok.inHand listener before
    · exact new
  apart conId inRange := apart conId inRange (ok.apart conId inRange)
  jobs ov member job runs := by
    rcases jobs member runs with ⟨member, runs⟩ | new
    · exact ok.jobs ov member job runs
    · exact new

/-- Only the tables and the hand change. -/
theorem ListenersOk.regrip
    (ok : ListenersOk config hand listeners sockTbl connections overlaps pending refs objects)
    (sameRefs : hand'.refs = hand.refs)
    (held : ∀ {id listener}, hand'.Settled config id → (sockTbl' id).pListen = some listener →
      hand.Settled config id ∧ (sockTbl id).pListen = some listener)
    (unheld : ∀ {id listener}, hand.Settled config id → (sockTbl id).pListen = some listener →
      hand'.Settled config id ∧ (sockTbl' id).pListen = some listener)
    (apart : ∀ conId, config.TermId conId → (connections conId).Apart listeners objects →
      (connections' conId).Apart listeners objects) :
    ListenersOk config hand' listeners sockTbl' connections' overlaps pending refs objects :=
  ok.transport (Nat.le_refl _) (fun _ _ => by rw [sameRefs]) held unheld
    (fun _ member => .inl (sameRefs ▸ member)) apart fun member runs => .inl ⟨member, runs⟩

namespace CountsOk

variable {mode : Mode} {listener id conId ov : ℕ} {job : AsyncJob}

theorem map {listeners' : List ℕ}
    (ok : CountsOk config mode hand listeners sockTbl connections overlaps pending refs objects)
    (change : ∀ leaked, ListenersOk config { hand with refs := hand.refs ++ leaked } listeners
      sockTbl connections overlaps pending refs objects →
      ListenersOk config { hand' with refs := hand'.refs ++ leaked } listeners' sockTbl'
        connections' overlaps' pending' refs' objects') :
    CountsOk config mode hand' listeners' sockTbl' connections' overlaps' pending' refs'
      objects' := by
  rcases ok with ⟨leaked, exact, listens⟩
  exact ⟨leaked, exact, change leaked listens⟩

variable
  (ok : CountsOk config mode hand listeners sockTbl connections overlaps pending refs objects)
include ok

theorem madeBefore (member : listener ∈ listeners) : listener < objects := by
  rcases ok with ⟨leaked, _, listens⟩
  exact listens.made listener member

theorem known (settled : hand.Settled config id) (holds : (sockTbl id).pListen = some listener) :
    listener ∈ listeners := by
  rcases ok with ⟨leaked, _, listens⟩
  exact (listens.held settled holds).1

theorem terminalApart (inRange : config.TermId conId) :
    (connections conId).Apart listeners objects := by
  rcases ok with ⟨leaked, _, listens⟩
  exact listens.apart conId inRange

theorem jobsKnown (member : ov ∈ pending) (runs : (overlaps ov).job? = some job) :
    (∀ listener, job.listens? = some listener → listener ∈ listeners) ∧
      ∀ region, job.region? = some region → region ∉ listeners := by
  rcases ok with ⟨leaked, _, listens⟩
  exact listens.jobs ov member job runs

end CountsOk

end Listeners

end Hermes
