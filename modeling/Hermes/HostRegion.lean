import Hermes.HostOverlap
import Mathlib.Data.List.Perm.Subperm

/-!
# Regions, references and notifications

The rest of what keeps the invariant: a region is recorded when its registration
completes, disclosed in a hand shake and given up with its terminal; objects are made
and released; the client is notified.
-/

namespace Hermes

variable {queue : CircularQue ℕ} {config : HostConfig} {mode : Mode} {listeners : List ℕ}
  {hand : Hand} {host : Host queue} {id conId ov region : ℕ} {job : AsyncJob}

namespace HostOk

section Record

/-- The regions of one terminal change: it records a new one, or gives them up. -/
theorem setRegions (ok : HostOk config mode listeners hand host) {terminal : Terminal}
    {pending ovs : List ℕ}
    (noRegions : terminal.noRegions = (host.connections conId).noRegions)
    (fewer : ∀ {ov job}, Host.Pends { host with pending } ov job → host.Pends ov job)
    (records : ∀ region, terminal.Records region → (host.connections conId).Records region ∨
      FreshRegion config mode listeners host region ∧
        ∀ {ov job}, Host.Pends { host with pending } ov job → job.region? ≠ some region)
    (both : terminal.pMemRegion ≠ none → terminal.pTagRegion ≠ none)
    (keepsMem : (host.connections conId).pMemRegion ≠ none →
      terminal.pMemRegion ≠ none ∨ hand.term = some conId)
    (tag : mode.strict = true → ∀ {ov region},
      Host.Pends { host with pending } ov (.onTagRegistered conId region) →
        terminal.pTagRegion = none)
    (mem : mode.strict = true → ∀ {ov region},
      Host.Pends { host with pending } ov (.onMemRegistered conId region) →
        terminal.pMemRegion = none)
    (registers : mode.strict = true → RegistersOk config mode { hand with ovs }
      (Host.Pends { host with pending }) (Function.update host.connections conId terminal)
      (queue.items host.connPool))
    (overlaps : OverlapsOk { hand with ovs } host.overlaps (queue.items host.overlapPool) pending)
    (sameWaiting : ∀ listener,
      waiting host.overlaps pending listener = waiting host.overlaps host.pending listener) :
    HostOk config mode listeners { hand with ovs }
      { host with
        pending
        connections := Function.update host.connections conId terminal } := by
  have sameFields : ∀ conId', (Function.update host.connections conId terminal conId').noRegions =
      (host.connections conId').noRegions := by
    intro conId'
    by_cases same : conId' = conId
    · rw [same, Function.update_self, noRegions]
    · rw [Function.update_of_ne same]
  have sameCont : ∀ conId',
      (Function.update host.connections conId terminal conId').pDisconnectCont =
        (host.connections conId').pDisconnectCont :=
    fun conId' => congrArg (·.pDisconnectCont) (sameFields conId')
  have recordsCases : ∀ {conId' region},
      (Function.update host.connections conId terminal conId').Records region →
        (host.connections conId').Records region ∨
          conId' = conId ∧ FreshRegion config mode listeners host region ∧
            ∀ {ov job}, Host.Pends { host with pending } ov job → job.region? ≠ some region := by
    intro conId' region records'
    by_cases same : conId' = conId
    · rw [same, Function.update_self] at records'
      rw [same]
      exact (records region records').imp_right fun fresh => ⟨rfl, fresh⟩
    · rw [Function.update_of_ne same] at records'
      exact .inl records'
  have secret : ∀ {conId'}, (host.connections conId').Secret host.disclosed →
      (Function.update host.connections conId terminal conId').Secret host.disclosed := by
    intro conId' before region records'
    rcases recordsCases records' with old | ⟨_, fresh, _⟩
    · exact before region old
    · exact fresh.hidden
  have slots := (ok.slots.setTerminal fun conId' _ => sameFields conId')
  have jobs : JobsOk config mode { hand with ovs } (Host.Pends { host with pending }) host.sockTbl
      (Function.update host.connections conId terminal) := by
    refine ok.jobs.transport fewer ?_
    intro ov job outstanding ready
    apply ready.transport
    · exact fun id' _ settled => ⟨settled, rfl, sameCont _⟩
    · intro _ conId' begun
      rwa [sameCont]
    · exact fun _ _ _ _ settled term attempting => ⟨settled, term, attempting⟩
    · intro conId' region runs strict none
      by_cases same : conId' = conId
      · rw [same, Function.update_self]
        rw [runs, same] at outstanding
        exact tag strict outstanding
      · rwa [Function.update_of_ne same]
    · intro conId' region runs strict none
      by_cases same : conId' = conId
      · rw [same, Function.update_self]
        rw [runs, same] at outstanding
        exact mem strict outstanding
      · rwa [Function.update_of_ne same]
  have regions : RegionsOk config { hand with ovs } (Host.Pends { host with pending })
      host.sockTbl (Function.update host.connections conId terminal)
      (queue.items host.connPool) host.disclosed host.objects := by
    constructor
    · intro ov job region outstanding registers
      rcases ok.regions.outstanding (fewer outstanding) registers with ⟨low, hidden, unrecorded⟩
      refine ⟨low, hidden, ?_⟩
      intro conId' inRange' records'
      rcases recordsCases records' with old | ⟨_, _, gone⟩
      · exact unrecorded conId' inRange' old
      · exact gone outstanding registers
    · intro ov ov' job job' region first second
      exact ok.regions.once (fewer first) (fewer second)
    · intro conId' region inRange' records'
      rcases recordsCases records' with old | ⟨_, fresh, _⟩
      · exact ok.regions.recorded inRange' old
      · exact fresh.low
    · intro conId' conId'' region inRange' inRange'' records' records''
      rcases recordsCases records' with old | ⟨same, fresh, _⟩
      · rcases recordsCases records'' with old' | ⟨_, fresh, _⟩
        · exact ok.regions.recordedOnce inRange' inRange'' old old'
        · exact absurd old (fresh.unrecorded conId' inRange')
      · rcases recordsCases records'' with old' | ⟨same', _, _⟩
        · exact absurd old' (fresh.unrecorded conId'' inRange'')
        · rw [same, same']
    · exact ok.regions.disclosedLt
    · exact fun conId' member => secret (ok.regions.secretPool conId' member)
    · intro id settled state idle
      rw [sameCont] at idle
      exact secret (ok.regions.secretAccept settled state idle)
    · intro conId' inRange'
      by_cases same : conId' = conId
      · rw [same, Function.update_self]
        exact both
      · rw [Function.update_of_ne same]
        exact ok.regions.both inRange'
    · intro conId' inRange' notInHand begun
      rw [sameCont] at begun
      have before := ok.regions.started inRange' notInHand begun
      by_cases same : conId' = conId
      · rw [same, Function.update_self]
        rw [same] at before notInHand
        exact (keepsMem before).resolve_right notInHand
      · rwa [Function.update_of_ne same]
    · intro id settled state
      have before := ok.regions.connecting settled state
      by_cases same : (host.sockTbl id).term = conId
      · rw [same, Function.update_self]
        rw [same] at before
        exact (keepsMem before).resolve_right fun inHand =>
          ok.slots.notInHand inHand settled same
      · rwa [Function.update_of_ne same]
  have log : LogOk config mode { hand with ovs } host.sockTbl
      (Function.update host.connections conId terminal) host.calls host.notified := by
    refine ok.log.transport ?_ fun settled attempting => .inl ⟨settled, attempting, rfl⟩
    intro conId' notifier func
    exact (congrArg (·.pConnFunc) (sameFields conId')).symm.trans func
  have listens : CountsOk config mode { hand with ovs } listeners
      host.sockTbl (Function.update host.connections conId terminal) host.overlaps pending
      host.refs host.objects := by
    refine ok.listens.map fun leaked listens => ?_
    refine listens.transport (Nat.le_refl _) ?_
      (fun settled holds => ⟨settled, holds⟩) (fun settled holds => ⟨settled, holds⟩)
      (fun _ member => .inl member) ?_ ?_
    · intro listener _
      rw [sameWaiting]
    · intro conId' inRange' apart object holds
      have fields := sameFields conId'
      rcases holds with quePair | cq | connector | records'
      · exact apart object (.inl ((congrArg (·.pQuePair) fields).symm.trans quePair))
      · exact apart object (.inr (.inl ((congrArg (·.pCQ) fields).symm.trans cq)))
      · exact apart object
          (.inr (.inr (.inl ((congrArg (·.pConnector) fields).symm.trans connector))))
      · rcases recordsCases records' with old | ⟨_, fresh, _⟩
        · exact apart object (.inr (.inr (.inr old)))
        · exact ⟨fresh.low, fresh.apart⟩
    · intro ov job member runs
      exact .inl (fewer ⟨member, runs⟩)
  have awaited : ∀ {arena}, Host.Awaits { host with pending } arena → arena < host.arenas := by
    rintro arena ⟨ov, member, job, runs, registers⟩
    have before : host.Pends ov job := fewer ⟨member, congrArg (Option.map Prod.fst) runs⟩
    exact ok.awaited ⟨ov, before.1, job, runs, registers⟩
  exact
    { ok with
      slots := { slots with }
      jobs, regions, registers, log, listens, overlaps, awaited
      continuations := ok.continuations.transport (Nat.le_refl _) fun holds =>
        (sameCont _).symm.trans holds }

/-- The region of an outstanding registration is new when it completes. -/
theorem freshRegion (ok : HostOk config mode listeners hand host)
    (outstanding : host.Pends ov job) (registers : job.region? = some region) :
    FreshRegion config mode listeners host region ∧
      ∀ {ov' job'}, Host.Pends { host with pending := host.pending.erase ov } ov' job' →
        job'.region? ≠ some region := by
  rcases ok.regions.outstanding outstanding registers with ⟨low, hidden, unrecorded⟩
  refine ⟨⟨low, hidden, unrecorded,
    (ok.listens.jobsKnown outstanding.1 outstanding.2).2 region registers⟩, ?_⟩
  intro ov' job' outstanding' registers'
  rcases (pends_erase ok.overlaps.pendingNodup).mp outstanding' with ⟨other, before⟩
  exact other (ok.regions.once before outstanding registers' registers)

/-- Completing a registration changes nothing for those who wait at a listener. -/
theorem waiting_erase_registration (outstanding : host.Pends ov job)
    (registers : job.region? = some region) (listener : ℕ) :
    waiting host.overlaps (host.pending.erase ov) listener =
      waiting host.overlaps host.pending listener := by
  have before : waiting host.overlaps (host.pending.erase ov) listener + _ =
      waiting host.overlaps host.pending listener := waiting_erase outstanding.1 listener
  rw [outstanding.2, Option.bind_some] at before
  cases job with
  | onTagRegistered | onMemRegistered =>
      simpa [AsyncJob.listens?] using before
  | _ => cases registers

theorem records_setTag {terminal : Terminal} {region region' : ℕ}
    (records : ({ terminal with pTagRegion := some region } : Terminal).Records region') :
    terminal.Records region' ∨ region' = region := by
  rcases records with tag | mem
  · exact .inr (Option.some.inj tag).symm
  · exact .inl (.inr mem)

theorem records_setMem {terminal : Terminal} {region region' : ℕ}
    (records : ({ terminal with pMemRegion := some region } : Terminal).Records region') :
    terminal.Records region' ∨ region' = region := by
  rcases records with tag | mem
  · exact .inl (.inl tag)
  · exact .inr (Option.some.inj mem).symm

/-- The registration of a tag region completes. -/
theorem recordTag (ok : HostOk config mode listeners hand host)
    (outstanding : host.Pends ov (.onTagRegistered conId region)) :
    HostOk config mode listeners { hand with ovs := ov :: hand.ovs }
      { host with
        pending := host.pending.erase ov
        connections := Function.update host.connections conId
          { host.connections conId with pTagRegion := some region } } := by
  have erased : ∀ {ov' job'}, Host.Pends { host with pending := host.pending.erase ov } ov' job' ↔
      ov' ≠ ov ∧ host.Pends ov' job' := pends_erase ok.overlaps.pendingNodup
  rcases ok.freshRegion outstanding rfl with ⟨fresh, gone⟩
  apply ok.setRegions
  · rfl
  · exact fun outstanding => (erased.mp outstanding).2
  · intro region' records
    exact (records_setTag records).imp_right fun same => by rw [same]; exact ⟨fresh, gone⟩
  · exact fun _ => nofun
  · exact fun mem => .inl mem
  · intro strict ov' region' outstanding'
    rcases erased.mp outstanding' with ⟨other, before⟩
    exact absurd (ok.jobs.once before outstanding (by rw [Mode.key, if_pos strict])
      (by rw [Mode.key, if_pos strict])) other
  · intro strict ov' region' outstanding'
    exact (ok.jobs.ready (erased.mp outstanding').2).2 strict
  · intro strict
    have before := ok.registers strict
    have sameMem : ∀ {conId' ov' region'}, host.Pends ov' (.onMemRegistered conId' region') →
        Host.Pends { host with pending := host.pending.erase ov } ov'
          (.onMemRegistered conId' region') := by
      intro conId' ov' region' outstanding'
      refine erased.mpr ⟨?_, outstanding'⟩
      intro same
      rw [same] at outstanding'
      have equal := outstanding.2.symm.trans outstanding'.2
      simp at equal
    have keepsMem : ∀ {conId'}, (∃ ov region, host.Pends ov (.onMemRegistered conId' region)) →
        ∃ ov' region, Host.Pends { host with pending := host.pending.erase ov } ov'
          (.onMemRegistered conId' region) := by
      rintro conId' ⟨ov', region', outstanding'⟩
      exact ⟨ov', region', sameMem outstanding'⟩
    have sameMemRegion : ∀ conId', (Function.update host.connections conId
        { host.connections conId with pTagRegion := some region } conId').pMemRegion =
          (host.connections conId').pMemRegion := by
      intro conId'
      by_cases same : conId' = conId
      · rw [same, Function.update_self]
      · rw [Function.update_of_ne same]
    constructor
    · intro conId' inRange notMaking begun
      rw [sameMemRegion]
      by_cases same : conId' = conId
      · rw [same] at notMaking ⊢
        exact .inr (keepsMem (before.awaitsMem outstanding notMaking))
      · rw [Function.update_of_ne same] at begun
        exact (before.half inRange notMaking begun).imp_right keepsMem
    · intro ov' conId' region' outstanding' notMaking
      exact keepsMem (before.awaitsMem (erased.mp outstanding').2 notMaking)
    · intro noClosers ov' conId' region' outstanding'
      by_cases same : conId' = conId
      · rw [same, Function.update_self]
        exact .inl nofun
      · rw [Function.update_of_ne same]
        refine (before.awaitsTag noClosers (erased.mp outstanding').2).imp_right ?_
        rintro ⟨ov'', region'', outstanding''⟩
        refine ⟨ov'', region'', erased.mpr ⟨?_, outstanding''⟩⟩
        intro equal
        rw [equal] at outstanding''
        have equal := outstanding.2.symm.trans outstanding''.2
        simp only [Option.some.injEq, AsyncJob.onTagRegistered.injEq] at equal
        exact same equal.1.symm
    · intro noClosers conId' inRange outside notMaking
      rw [sameMemRegion]
      exact (before.used noClosers inRange outside notMaking).imp_right keepsMem
  · exact ok.overlaps.unpend outstanding.1
  · exact waiting_erase_registration outstanding rfl

/-- The registration of a buffer region completes. -/
theorem recordMem (ok : HostOk config mode listeners hand host)
    (outstanding : host.Pends ov (.onMemRegistered conId region))
    (tagged : (host.connections conId).pTagRegion ≠ none) :
    HostOk config mode listeners { hand with ovs := ov :: hand.ovs }
      { host with
        pending := host.pending.erase ov
        connections := Function.update host.connections conId
          { host.connections conId with pMemRegion := some region } } := by
  have erased : ∀ {ov' job'}, Host.Pends { host with pending := host.pending.erase ov } ov' job' ↔
      ov' ≠ ov ∧ host.Pends ov' job' := pends_erase ok.overlaps.pendingNodup
  rcases ok.freshRegion outstanding rfl with ⟨fresh, gone⟩
  apply ok.setRegions
  · rfl
  · exact fun outstanding => (erased.mp outstanding).2
  · intro region' records
    exact (records_setMem records).imp_right fun same => by rw [same]; exact ⟨fresh, gone⟩
  · exact fun _ => tagged
  · exact fun _ => .inl nofun
  · intro strict ov' region' outstanding'
    exact absurd ((ok.jobs.ready (erased.mp outstanding').2).2 strict) tagged
  · intro strict ov' region' outstanding'
    rcases erased.mp outstanding' with ⟨other, before⟩
    exact absurd (ok.jobs.once before outstanding (by rw [Mode.key, if_pos strict])
      (by rw [Mode.key, if_pos strict])) other
  · intro strict
    have before := ok.registers strict
    have keepsTag : ∀ {conId'}, (∃ ov region, host.Pends ov (.onTagRegistered conId' region)) →
        ∃ ov' region, Host.Pends { host with pending := host.pending.erase ov } ov'
          (.onTagRegistered conId' region) := by
      rintro conId' ⟨ov', region', outstanding'⟩
      refine ⟨ov', region', erased.mpr ⟨?_, outstanding'⟩⟩
      intro same
      rw [same] at outstanding'
      have equal := outstanding.2.symm.trans outstanding'.2
      simp at equal
    have keepsMem : ∀ {conId'}, conId' ≠ conId →
        (∃ ov region, host.Pends ov (.onMemRegistered conId' region)) →
          ∃ ov' region, Host.Pends { host with pending := host.pending.erase ov } ov'
            (.onMemRegistered conId' region) := by
      rintro conId' other ⟨ov', region', outstanding'⟩
      refine ⟨ov', region', erased.mpr ⟨?_, outstanding'⟩⟩
      intro same
      rw [same] at outstanding'
      have equal := outstanding.2.symm.trans outstanding'.2
      simp only [Option.some.injEq, AsyncJob.onMemRegistered.injEq] at equal
      exact other equal.1.symm
    have sameTagRegion : ∀ conId', (Function.update host.connections conId
        { host.connections conId with pMemRegion := some region } conId').pTagRegion =
          (host.connections conId').pTagRegion := by
      intro conId'
      by_cases same : conId' = conId
      · rw [same, Function.update_self]
      · rw [Function.update_of_ne same]
    constructor
    · intro conId' inRange notMaking begun
      rw [sameTagRegion] at begun
      by_cases same : conId' = conId
      · rw [same, Function.update_self]
        exact .inl nofun
      · rw [Function.update_of_ne same]
        exact (before.half inRange notMaking begun).imp_right (keepsMem same)
    · intro ov' conId' region' outstanding' notMaking
      have outstanding' := (erased.mp outstanding').2
      refine keepsMem ?_ (before.awaitsMem outstanding' notMaking)
      intro same
      rw [same] at outstanding'
      exact tagged ((ok.jobs.ready outstanding').2 strict)
    · intro noClosers ov' conId' region' outstanding'
      rw [sameTagRegion]
      exact (before.awaitsTag noClosers (erased.mp outstanding').2).imp_right keepsTag
    · intro noClosers conId' inRange outside notMaking
      by_cases same : conId' = conId
      · rw [same, Function.update_self]
        exact .inl nofun
      · rw [Function.update_of_ne same]
        exact (before.used noClosers inRange outside notMaking).imp_right (keepsMem same)
  · exact ok.overlaps.unpend outstanding.1
  · exact waiting_erase_registration outstanding rfl

/-- A tag region is registered at once. -/
theorem recordTagNow (ok : HostOk config mode listeners hand host)
    (making : hand.making = some conId) (fresh : FreshRegion config mode listeners host region)
    (unregistered : ∀ {ov job}, host.Pends ov job → job.region? ≠ some region)
    (noTag : mode.strict = true → ∀ {ov region}, ¬host.Pends ov (.onTagRegistered conId region)) :
    HostOk config mode listeners hand
      { host with
        connections := Function.update host.connections conId
          { host.connections conId with pTagRegion := some region } } := by
  refine ok.setRegions rfl (fun outstanding => outstanding) ?_ (fun _ => nofun)
    (fun mem => .inl mem) (fun strict => fun outstanding => absurd outstanding (noTag strict)) ?_ ?_
    ok.overlaps (fun _ => rfl)
  · intro region' records
    exact (records_setTag records).imp_right fun same => by
      rw [same]
      exact ⟨fresh, unregistered⟩
  · exact fun strict _ _ outstanding => (ok.jobs.ready outstanding).2 strict
  · intro strict
    have before := ok.registers strict
    have other : ∀ {conId'}, hand.making ≠ some conId' →
        Function.update host.connections conId
          { host.connections conId with pTagRegion := some region } conId' =
            host.connections conId' := by
      intro conId' notMaking
      apply Function.update_of_ne
      intro same
      exact notMaking (by rw [making, same])
    constructor
    · intro conId' inRange notMaking
      rw [other notMaking]
      exact before.half inRange notMaking
    · exact fun outstanding notMaking => before.awaitsMem outstanding notMaking
    · intro noClosers ov conId' region' outstanding
      by_cases same : conId' = conId
      · rw [same, Function.update_self]
        exact .inl nofun
      · rw [Function.update_of_ne same]
        exact before.awaitsTag noClosers outstanding
    · intro noClosers conId' inRange outside notMaking
      rw [other notMaking]
      exact before.used noClosers inRange outside notMaking

/-- A buffer region is registered at once. -/
theorem recordMemNow (ok : HostOk config mode listeners hand host)
    (making : hand.making = some conId) (fresh : FreshRegion config mode listeners host region)
    (unregistered : ∀ {ov job}, host.Pends ov job → job.region? ≠ some region)
    (noMem : mode.strict = true → ∀ {ov region}, ¬host.Pends ov (.onMemRegistered conId region))
    (tagged : (host.connections conId).pTagRegion ≠ none) :
    HostOk config mode listeners hand
      { host with
        connections := Function.update host.connections conId
          { host.connections conId with pMemRegion := some region } } := by
  refine ok.setRegions rfl (fun outstanding => outstanding) ?_ (fun _ => tagged)
    (fun _ => .inl nofun) ?_ (fun strict => fun outstanding => absurd outstanding (noMem strict)) ?_
    ok.overlaps (fun _ => rfl)
  · intro region' records
    exact (records_setMem records).imp_right fun same => by
      rw [same]
      exact ⟨fresh, unregistered⟩
  · exact fun strict _ _ outstanding => (ok.jobs.ready outstanding).2 strict
  · intro strict
    have before := ok.registers strict
    have other : ∀ {conId'}, hand.making ≠ some conId' →
        Function.update host.connections conId
          { host.connections conId with pMemRegion := some region } conId' =
            host.connections conId' := by
      intro conId' notMaking
      apply Function.update_of_ne
      intro same
      exact notMaking (by rw [making, same])
    constructor
    · intro conId' inRange notMaking
      rw [other notMaking]
      exact before.half inRange notMaking
    · exact fun outstanding notMaking => before.awaitsMem outstanding notMaking
    · intro noClosers ov conId' region' outstanding
      by_cases same : conId' = conId
      · rw [same, Function.update_self]
        exact .inl tagged
      · rw [Function.update_of_ne same]
        exact before.awaitsTag noClosers outstanding
    · intro noClosers conId' inRange outside notMaking
      rw [other notMaking]
      exact before.used noClosers inRange outside notMaking

/-- The regions of a terminal in hand are destroyed. -/
theorem clearRegions (ok : HostOk config mode listeners hand host) (closers : mode.closers = true)
    (inHand : hand.term = some conId) :
    HostOk config mode listeners hand
      { host with
        connections := Function.update host.connections conId
          { host.connections conId with pMemRegion := none, pTagRegion := none } } := by
  refine ok.setRegions rfl (fun outstanding => outstanding) ?_ (fun none => absurd rfl none)
    (fun _ => .inr inHand) (fun _ => fun _ => rfl) (fun _ => fun _ => rfl) ?_ ok.overlaps
    (fun _ => rfl)
  · rintro region' (tag | mem)
    · cases tag
    · cases mem
  · intro strict
    have before := ok.registers strict
    refine ⟨?_, fun outstanding notMaking => before.awaitsMem outstanding notMaking, ?_, ?_⟩
    · intro conId' inRange notMaking begun
      by_cases same : conId' = conId
      · rw [same, Function.update_self] at begun
        exact absurd rfl begun
      · rw [Function.update_of_ne same] at begun ⊢
        exact before.half inRange notMaking begun
    · intro noClosers
      rw [closers] at noClosers
      cases noClosers
    · intro noClosers
      rw [closers] at noClosers
      cases noClosers

/-- The tokens of the regions of a terminal in hand are put in a hand shake. -/
theorem disclose (ok : HostOk config mode listeners hand host) (inHand : hand.term = some conId)
    {memRegion tagRegion : ℕ} (mem : (host.connections conId).pMemRegion = some memRegion)
    (tag : (host.connections conId).pTagRegion = some tagRegion) :
    HostOk config mode listeners hand
      { host with disclosed := host.disclosed ++ [memRegion, tagRegion] } := by
  rcases ok.slots.termInHand conId inHand with ⟨inRange, outside⟩
  have recorded : ∀ {region}, region ∈ host.disclosed ++ [memRegion, tagRegion] →
      region ∈ host.disclosed ∨ (host.connections conId).Records region := by
    intro region member
    rcases List.mem_append.mp member with old | new
    · exact .inl old
    · simp only [List.mem_cons, List.not_mem_nil, or_false] at new
      rcases new with same | same
      · exact .inr (.inr (by rw [mem, same]))
      · exact .inr (.inl (by rw [tag, same]))
  have secret : ∀ {conId'}, config.TermId conId' → conId' ≠ conId →
      (host.connections conId').Secret host.disclosed →
        (host.connections conId').Secret (host.disclosed ++ [memRegion, tagRegion]) := by
    intro conId' inRange' other before region records member
    rcases recorded member with old | new
    · exact before region records old
    · exact other (ok.regions.recordedOnce inRange' inRange records new)
  have regions : RegionsOk config hand host.Pends host.sockTbl host.connections
      (queue.items host.connPool) (host.disclosed ++ [memRegion, tagRegion]) host.objects := by
    refine { ok.regions with outstanding := ?_, disclosedLt := ?_, secretPool := ?_,
                             secretAccept := ?_ }
    · intro ov job region outstanding registers
      rcases ok.regions.outstanding outstanding registers with ⟨low, hidden, unrecorded⟩
      refine ⟨low, ?_, unrecorded⟩
      intro member
      rcases recorded member with old | new
      · exact hidden old
      · exact unrecorded conId inRange new
    · intro region member
      rcases recorded member with old | new
      · exact ok.regions.disclosedLt region old
      · exact ok.regions.recorded inRange new
    · intro conId' member
      apply secret (ok.slots.connIds conId' member) ?_ (ok.regions.secretPool conId' member)
      exact fun same => outside (same ▸ member)
    · intro id settled state idle
      have fits := ok.slots.sockets id settled
      simp only [SocketOk, state] at fits
      exact secret fits.term (ok.slots.notInHand inHand settled)
        (ok.regions.secretAccept settled state idle)
  exact { ok with regions }

end Record

section Objects

/-- The provider makes an object. -/
theorem makeObject (ok : HostOk config mode listeners hand host) :
    HostOk config mode listeners hand
      { host with
        objects := host.objects + 1
        refs := Function.update host.refs host.objects 1 } := by
  have regions := ok.regions.transport (fun outstanding _ => outstanding) (.refl _)
    (fun _ member => .inl member) (Nat.le_succ host.objects)
    (fun settled => .inl ⟨settled, rfl, rfl, rfl⟩)
    (fun _ notInHand begun => .inl ⟨notInHand, begun⟩)
  have listens : CountsOk config mode hand listeners host.sockTbl
      host.connections host.overlaps host.pending
      (Function.update host.refs host.objects 1) (host.objects + 1) := by
    refine ok.listens.map fun leaked listens => ?_
    refine listens.transport (Nat.le_succ _) ?_ (fun settled holds => ⟨settled, holds⟩)
      (fun settled holds => ⟨settled, holds⟩) (fun _ member => .inl member) ?_
      (fun member runs => .inl ⟨member, runs⟩)
    · intro listener member
      rw [Function.update_of_ne (Nat.ne_of_lt (listens.made listener member))]
    · intro conId' _ apart object holds
      rcases apart object holds with ⟨low, other⟩
      exact ⟨Nat.lt_succ_of_lt low, other⟩
  exact { ok with regions, listens }

/-- References of objects that are no listeners change. -/
theorem setRefs (ok : HostOk config mode listeners hand host) {refs : ℕ → ℕ}
    (same : ∀ listener ∈ listeners, refs listener = host.refs listener) :
    HostOk config mode listeners hand { host with refs } := by
  have listens : CountsOk config mode hand listeners host.sockTbl
      host.connections host.overlaps host.pending refs host.objects := by
    refine ok.listens.map fun leaked listens => ?_
    refine listens.transport (Nat.le_refl _) ?_ (fun settled holds => ⟨settled, holds⟩)
      (fun settled holds => ⟨settled, holds⟩) (fun _ member => .inl member) (fun _ _ apart => apart)
      (fun member runs => .inl ⟨member, runs⟩)
    intro listener member
    rw [same listener member]
  exact { ok with listens }

/-- A reference to a listener is added, and held. -/
theorem addRef (ok : HostOk config mode listeners hand host) {listener : ℕ}
    (known : listener ∈ listeners) :
    HostOk config mode listeners { hand with refs := listener :: hand.refs }
      { host with refs := Function.update host.refs listener (host.refs listener + 1) } := by
  have listens : CountsOk config mode
      { hand with refs := listener :: hand.refs } listeners host.sockTbl host.connections
      host.overlaps host.pending
      (Function.update host.refs listener (host.refs listener + 1)) host.objects := by
    refine ok.listens.map fun leaked listens => ?_
    refine listens.transport (Nat.le_refl _) ?_ (fun settled holds => ⟨settled, holds⟩)
      (fun settled holds => ⟨settled, holds⟩) ?_ (fun _ _ apart => apart)
      (fun member runs => .inl ⟨member, runs⟩)
    · intro listener' _
      dsimp only
      rw [List.cons_append, List.count_cons]
      by_cases same : listener' = listener
      · rw [same, Function.update_self, if_pos (beq_self_eq_true listener)]
        omega
      · rw [Function.update_of_ne same, if_neg (by simpa using fun equal => same equal.symm)]
        omega
    · intro listener' member
      rcases List.mem_cons.mp member with same | old
      · exact .inr (same ▸ known)
      · exact .inl old
  exact
    { ok with
      slots := { ok.slots with }
      jobs := ⟨ok.jobs.ready, ok.jobs.once⟩
      regions := { ok.regions with }
      registers := fun strict => { ok.registers strict with }
      log := { ok.log with }
      listens
      overlaps := { ok.overlaps with } }

/-- A reference in hand is released. -/
theorem releaseRef (ok : HostOk config mode listeners hand host) {listener : ℕ} {refs : List ℕ}
    (held : hand.refs = listener :: refs) :
    HostOk config mode listeners { hand with refs }
      { host with refs := Function.update host.refs listener (host.refs listener - 1) } := by
  have listens : CountsOk config mode { hand with refs } listeners host.sockTbl
      host.connections host.overlaps host.pending
      (Function.update host.refs listener (host.refs listener - 1)) host.objects := by
    refine ok.listens.map fun leaked before => ?_
    rw [held, List.cons_append] at before
    have known : listener ∈ listeners := before.inHand listener List.mem_cons_self
    have positive : 1 ≤ host.refs listener := by
      have counted : 1 ≤ (listener :: (refs ++ leaked)).count listener := by
        rw [List.count_cons_self]
        omega
      by_cases holder : ∃ id, hand.Settled config id ∧ (host.sockTbl id).pListen = some listener
      · rcases holder with ⟨id, settled, holds⟩
        have counts := (before.held settled holds).2
        dsimp only at counts
        omega
      · have counts := before.unheld listener known fun id settled holds =>
          holder ⟨id, settled, holds⟩
        dsimp only at counts
        omega
    refine before.transport (Nat.le_refl _) ?_ (fun settled holds => ⟨settled, holds⟩)
      (fun settled holds => ⟨settled, holds⟩) ?_ (fun _ _ apart => apart)
      (fun member runs => .inl ⟨member, runs⟩)
    · intro listener' _
      dsimp only
      rw [List.count_cons]
      by_cases same : listener' = listener
      · rw [same, Function.update_self, if_pos (beq_self_eq_true listener)]
        omega
      · rw [Function.update_of_ne same, if_neg (by simpa using fun equal => same equal.symm)]
        omega
    · intro listener' member
      exact .inl (List.mem_cons_of_mem listener member)
  exact
    { ok with
      slots := { ok.slots with }
      jobs := ⟨ok.jobs.ready, ok.jobs.once⟩
      regions := { ok.regions with }
      registers := fun strict => { ok.registers strict with }
      log := { ok.log with }
      listens
      overlaps := { ok.overlaps with } }

/-- A listener is made, and its reference held. -/
theorem makeListener (ok : HostOk config mode listeners hand host) :
    HostOk config mode (listeners ++ [host.objects])
      { hand with refs := host.objects :: hand.refs }
      { host with
        objects := host.objects + 1
        refs := Function.update host.refs host.objects 1 } := by
  have regions := ok.regions.transport (fun outstanding _ => outstanding) (.refl _)
    (fun _ member => .inl member) (Nat.le_succ host.objects)
    (fun settled => .inl ⟨settled, rfl, rfl, rfl⟩)
    (fun _ notInHand begun => .inl ⟨notInHand, begun⟩)
  have listens : CountsOk config mode
      { hand with refs := host.objects :: hand.refs } (listeners ++ [host.objects]) host.sockTbl
      host.connections host.overlaps host.pending
      (Function.update host.refs host.objects 1) (host.objects + 1) := by
    refine ok.listens.map fun leaked before => ?_
    have old : ∀ {listener}, listener ∈ listeners → listener ≠ host.objects :=
      fun member => Nat.ne_of_lt (before.made _ member)
    have idle : waiting host.overlaps host.pending host.objects = 0 := by
      rw [waiting, List.countP_eq_zero]
      intro ov member waits
      simp only [decide_eq_true_eq, Option.bind_eq_some_iff] at waits
      rcases waits with ⟨job, runs, waits⟩
      exact old ((before.jobs ov member job runs).1 _ waits) rfl
    have unheld : (hand.refs ++ leaked).count host.objects = 0 :=
      List.count_eq_zero.mpr fun member => old (before.inHand _ member) rfl
    constructor
    · intro listener member
      rcases List.mem_append.mp member with known | new
      · exact Nat.lt_succ_of_lt (before.made listener known)
      · rw [List.mem_singleton.mp new]
        exact Nat.lt_succ_self _
    · intro id listener settled holds
      rcases before.held settled holds with ⟨member, refs⟩
      refine ⟨List.mem_append_left _ member, ?_⟩
      rw [Function.update_of_ne (old member), refs, List.cons_append,
        List.count_cons_of_ne (old member).symm]
    · exact before.heldOnce
    · intro listener member free
      rcases List.mem_append.mp member with known | new
      · rw [Function.update_of_ne (old known), before.unheld listener known free,
          List.cons_append, List.count_cons_of_ne (old known).symm]
      · rw [List.mem_singleton.mp new, Function.update_self, idle, List.cons_append,
          List.count_cons_self, unheld]
    · intro listener member
      rcases List.mem_cons.mp member with same | known
      · rw [same]
        exact List.mem_append_right _ List.mem_cons_self
      · exact List.mem_append_left _ (before.inHand listener known)
    · intro conId inRange object holds
      rcases before.apart conId inRange object holds with ⟨low, other⟩
      refine ⟨Nat.lt_succ_of_lt low, ?_⟩
      intro member
      rcases List.mem_append.mp member with known | new
      · exact other known
      · exact Nat.ne_of_lt low (List.mem_singleton.mp new)
    · intro ov member job runs
      rcases before.jobs ov member job runs with ⟨waits, registers⟩
      refine ⟨fun listener waits' => List.mem_append_left _ (waits listener waits'), ?_⟩
      intro region registers' member'
      rcases List.mem_append.mp member' with known | new
      · exact registers region registers' known
      · have low := (ok.regions.outstanding ⟨member, runs⟩ registers').1
        exact Nat.ne_of_lt low (List.mem_singleton.mp new)
  exact
    { ok with
      slots := { ok.slots with }
      jobs := ⟨ok.jobs.ready, ok.jobs.once⟩
      regions := { regions with }
      registers := fun strict => { ok.registers strict with }
      log := { ok.log with }
      listens
      overlaps := { ok.overlaps with } }

end Objects

section Clients

/-- The client learns the handle a slot has. -/
theorem deliver (ok : HostOk config mode listeners hand host) {handle : UInt64}
    (sockId : config.SockId (handleToId handle))
    (same : handle = handleOf (handleToId handle) (host.frees (handleToId handle))) :
    HostOk config mode listeners hand
      { host with
        delivered := host.delivered ++ [⟨handle, host.frees (handleToId handle)⟩] } := by
  have handles : HandlesOk config host.frees
      (host.delivered ++ [⟨handle, host.frees (handleToId handle)⟩]) := by
    constructor
    intro given member
    rcases List.mem_append.mp member with old | new
    · exact ok.handles.known given old
    · rw [List.mem_singleton.mp new]
      exact ⟨sockId, same, Nat.le_refl _⟩
  exact { ok with handles }

/-- A notifier whose attempt is over is called. -/
theorem notify (ok : HostOk config mode listeners hand host) {entry : Notification}
    (inRange : config.TermId conId)
    (func : (host.connections conId).pConnFunc = some entry.notifier)
    (ended : ∀ id, hand.Settled config id → (host.sockTbl id).state.attempting = true →
      config.TermId (host.sockTbl id).term ∧ (host.sockTbl id).term ≠ conId)
    (quiet : mode.closers = false →
      ∀ before ∈ host.notified, before.notifier.call ≠ entry.notifier.call) :
    HostOk config mode listeners hand
      { host with notified := host.notified ++ [entry] } := by
  have log : LogOk config mode hand host.sockTbl host.connections host.calls
      (host.notified ++ [entry]) := by
    refine { ok.log with logged := ?_, nodup := ?_, quiet := ?_ }
    · intro before member
      rcases List.mem_append.mp member with old | new
      · exact ok.log.logged before old
      · rw [List.mem_singleton.mp new]
        exact ok.log.called inRange func
    · intro noClosers
      rw [List.map_append, List.nodup_append]
      refine ⟨ok.log.nodup noClosers, by simp, ?_⟩
      intro call member call' member'
      rcases List.mem_map.mp member with ⟨before, old, rfl⟩
      rw [List.map_singleton, List.mem_singleton] at member'
      rw [member']
      exact quiet noClosers before old
    · intro id notifier settled attempting func' before member
      rcases List.mem_append.mp member with old | new
      · exact ok.log.quiet settled attempting func' before old
      · rw [List.mem_singleton.mp new]
        intro same
        rcases ended id settled attempting with ⟨inRange', other⟩
        exact other (ok.log.once inRange' inRange func' func same.symm)
  exact { ok with log }

end Clients

section Rooms

/-- Distinct slots of a table, one of which is not among them. -/
theorem length_lt_of_nodup {items : List ℕ} {slot size : ℕ} (nodup : items.Nodup)
    (bounds : ∀ item ∈ items, 1 ≤ item ∧ item ≤ size) (outside : slot ∉ items)
    (inside : 1 ≤ slot ∧ slot ≤ size) : items.length < size := by
  have within : (slot :: items).Subperm (List.range' 1 size) := by
    apply List.Nodup.subperm (List.nodup_cons.mpr ⟨outside, nodup⟩)
    intro item member
    rw [List.mem_range'_1]
    rcases List.mem_cons.mp member with same | old
    · omega
    · have := bounds item old
      omega
  have short := within.length_le
  rw [List.length_cons, List.length_range'] at short
  omega

theorem sockRoom (ok : HostOk config mode listeners hand host) (inHand : hand.sock = some id) :
    ∃ sockPool, queue.add host.sockPool id = some sockPool := by
  rcases ok.slots.sockInHand id inHand with ⟨sockId, outside⟩
  have room : (queue.items host.sockPool).length < queue.getCapacity host.sockPool := by
    rw [ok.sockCapacity]
    exact length_lt_of_nodup ok.slots.sockNodup ok.slots.sockIds outside sockId
  rcases queue.add_room room id with ⟨sockPool, added, _⟩
  exact ⟨sockPool, added⟩

theorem connRoom (ok : HostOk config mode listeners hand host) (inHand : hand.term = some conId) :
    ∃ connPool, queue.add host.connPool conId = some connPool := by
  rcases ok.slots.termInHand conId inHand with ⟨inRange, outside⟩
  have room : (queue.items host.connPool).length < queue.getCapacity host.connPool := by
    rw [ok.connCapacity]
    exact length_lt_of_nodup ok.slots.connNodup ok.slots.connIds outside inRange
  rcases queue.add_room room conId with ⟨connPool, added, _⟩
  exact ⟨connPool, added⟩

theorem overlapRoom (ok : HostOk config mode listeners hand host) {ovs : List ℕ}
    (top : hand.ovs = ov :: ovs) :
    ∃ overlapPool, queue.add host.overlapPool ov = some overlapPool := by
  have total := ok.overlaps.all.length_eq
  rw [top, List.length_append, List.cons_append, List.length_cons, List.length_range] at total
  have room : (queue.items host.overlapPool).length < queue.getCapacity host.overlapPool := by
    rw [ok.overlapCapacity]
    omega
  rcases queue.add_room room ov with ⟨overlapPool, added, _⟩
  exact ⟨overlapPool, added⟩

end Rooms

end HostOk

section Handles

theorem handleToId_handleOf {frees : ℕ} (low : id < 2 ^ 32) :
    handleToId (handleOf id frees) = id := by
  simp only [handleToId, handleOf, UInt64.toNat_ofNat']
  omega

theorem handleOf_succ (id frees : ℕ) :
    handleOf id frees + 0x100000000 = handleOf id (frees + 1) := by
  apply UInt64.toNat_inj.mp
  simp only [handleOf, UInt64.toNat_add, UInt64.toNat_ofNat', UInt64.reduceToNat]
  omega

end Handles

end Hermes
