import Hermes.HostLinear

/-!
# Registrations settle

A terminal inherits its regions from the attempts before, and the registrations it
still waits for outlive the attempt that started them.  In runs where `TerminalCloser`
does not run and `Accept` and `Connect` take a terminal again only when its
registrations have completed, every terminal that was ever used has one region of each
kind or waits for exactly one registration of it, what is recorded stays, and the pool
of overlapped objects is large enough.
-/

namespace Hermes

open Program

variable {queue : CircularQue ℕ} {config : HostConfig} {setup : Setup} {host after : Host queue}
  {conId ov ov' region region' : ℕ} {action : HostAction}

/-- No `TerminalCloser`, and terminals are reused when their registrations have completed. -/
def settledMode : Mode := { closers := false, strict := true, exact := false }

theorem Terminal.sendLocked_regions (terminal : Terminal) (req : SndReq) :
    (terminal.sendLocked req).1.regions = terminal.regions := by
  cases running : terminal.sndRunning with
  | true => rw [Terminal.sendLocked_running running]; rfl
  | false => rw [Terminal.sendLocked_idle running]; rfl

namespace Host

/-- Exactly one operation of a kind is outstanding. -/
def AwaitsOne (host : Host queue) (job : ℕ → AsyncJob) : Prop :=
  ∃ ov region, host.Pends ov (job region) ∧
    ∀ ov' region', host.Pends ov' (job region') → ov' = ov

/-- No operation of a kind is outstanding. -/
def AwaitsNone (host : Host queue) (job : ℕ → AsyncJob) : Prop :=
  ∀ ov region, ¬host.Pends ov (job region)

/-- A region is recorded, or its registration is the only one outstanding. -/
def Settles (host : Host queue) (pointer : Option ℕ) (job : ℕ → AsyncJob) : Prop :=
  pointer ≠ none ∧ host.AwaitsNone job ∨ pointer = none ∧ host.AwaitsOne job

/-- The terminal has both of its regions or will have them. -/
structure Registers (host : Host queue) (conId : ℕ) : Prop where
  tag : host.Settles (host.connections conId).pTagRegion (AsyncJob.onTagRegistered conId)
  mem : host.Settles (host.connections conId).pMemRegion (AsyncJob.onMemRegistered conId)

/-- Nothing was ever registered for the terminal. -/
structure Unregistered (host : Host queue) (conId : ℕ) : Prop where
  tag : (host.connections conId).pTagRegion = none
  mem : (host.connections conId).pMemRegion = none
  noTag : host.AwaitsNone (AsyncJob.onTagRegistered conId)
  noMem : host.AwaitsNone (AsyncJob.onMemRegistered conId)

section Invariant

variable {listeners : List ℕ}

/-- A pointer that is set or awaited once settles. -/
theorem settles_of {pointer : Option ℕ} {job : ℕ → AsyncJob}
    (free : ∀ {ov region}, host.Pends ov (job region) → pointer = none)
    (once : ∀ {ov ov' region region'}, host.Pends ov (job region) →
      host.Pends ov' (job region') → ov' = ov)
    (begun : pointer ≠ none ∨ ∃ ov region, host.Pends ov (job region)) :
    host.Settles pointer job := by
  rcases begun with recorded | ⟨ov, region, outstanding⟩
  · exact .inl ⟨recorded, fun ov region outstanding => recorded (free outstanding)⟩
  · refine .inr ⟨free outstanding, ov, region, outstanding, ?_⟩
    exact fun ov' region' outstanding' => once outstanding outstanding'

theorem tag_once (ok : HostOk config settledMode listeners {} host)
    (outstanding : host.Pends ov (.onTagRegistered conId region))
    (outstanding' : host.Pends ov' (.onTagRegistered conId region')) : ov' = ov :=
  ok.jobs.once outstanding' outstanding rfl rfl

theorem mem_once (ok : HostOk config settledMode listeners {} host)
    (outstanding : host.Pends ov (.onMemRegistered conId region))
    (outstanding' : host.Pends ov' (.onMemRegistered conId region')) : ov' = ov :=
  ok.jobs.once outstanding' outstanding rfl rfl

/-- A terminal whose buffer region is recorded or awaited has begun both registrations. -/
theorem registers_of_mem (ok : HostOk config settledMode listeners {} host)
    (inRange : config.TermId conId)
    (begun : (host.connections conId).pMemRegion ≠ none ∨
      ∃ ov region, host.Pends ov (.onMemRegistered conId region)) :
    host.Registers conId := by
  have tagged : (host.connections conId).pTagRegion ≠ none ∨
      ∃ ov region, host.Pends ov (.onTagRegistered conId region) := by
    rcases begun with recorded | ⟨ov, region, outstanding⟩
    · exact .inl (ok.regions.both inRange recorded)
    · exact (ok.registers rfl).awaitsTag rfl outstanding
  constructor
  case tag =>
    exact settles_of (fun outstanding => (ok.jobs.ready outstanding).2 rfl) (tag_once ok) tagged
  case mem =>
    exact settles_of (fun outstanding => (ok.jobs.ready outstanding).2 rfl) (mem_once ok) begun

/-- A terminal is registered completely or not at all. -/
theorem registers_or (ok : HostOk config settledMode listeners {} host)
    (inRange : config.TermId conId) :
    host.Registers conId ∨ host.Unregistered conId := by
  have registers := ok.registers rfl
  by_cases begun : (host.connections conId).pMemRegion ≠ none ∨
      ∃ ov region, host.Pends ov (.onMemRegistered conId region)
  · exact .inl (registers_of_mem ok inRange begun)
  have noMem : ∀ ov region, ¬host.Pends ov (.onMemRegistered conId region) :=
    fun ov region outstanding => begun (.inr ⟨ov, region, outstanding⟩)
  right
  constructor
  case tag =>
    by_contra tagged
    exact begun (registers.half inRange (by simp) tagged)
  case mem => exact not_not.mp fun recorded => begun (.inl recorded)
  case noTag =>
    intro ov region outstanding
    rcases registers.awaitsMem outstanding (by simp) with ⟨ov', region', outstanding'⟩
    exact noMem ov' region' outstanding'
  case noMem => exact noMem

/-- Outside the pool nothing is missing. -/
theorem registers_of_used (ok : HostOk config settledMode listeners {} host)
    (inRange : config.TermId conId) (used : conId ∉ queue.items host.connPool) :
    host.Registers conId :=
  registers_of_mem ok inRange ((ok.registers rfl).used rfl inRange used (by simp))

end Invariant

section Steps

/-- A region that is recorded stays recorded. -/
structure KeepsRegions (before after : Host queue) : Prop where
  tag : ∀ conId region, (before.connections conId).pTagRegion = some region →
    (after.connections conId).pTagRegion = some region
  mem : ∀ conId region, (before.connections conId).pMemRegion = some region →
    (after.connections conId).pMemRegion = some region

theorem Moves.keepsRegions {scope : Scope} {before after : Host queue}
    (moves : Moves config scope before after) (lives : scope.lives) :
    KeepsRegions before after where
  tag conId region recorded := ((moves.lived lives).terminals conId).tag region recorded
  mem conId region recorded := ((moves.lived lives).terminals conId).mem region recorded

instance : Std.Refl (KeepsRegions : Host queue → Host queue → Prop) where
  refl _ := ⟨fun _ _ tag => tag, fun _ _ mem => mem⟩

instance : IsTrans (Host queue) KeepsRegions where
  trans _ _ _ first second :=
    ⟨fun conId region tag => second.tag conId region (first.tag conId region tag),
      fun conId region mem => second.mem conId region (first.mem conId region mem)⟩

/-- `Send` only queues a request. -/
theorem send_keeps (handle : UInt64) (req : SndReq) :
    Advances KeepsRegions Stop.PoolSound (send config handle req : Code queue StatusCode) := by
  apply advances_send
  · exact fun moves => moves.keepsRegions trivial
  · intro host conId
    have kept := (host.connections conId).sendLocked_regions req
    simp only [Terminal.regions, Prod.mk.injEq] at kept
    constructor
    all_goals
      intro conId' region recorded
      by_cases same : conId' = conId
      · subst same
        simpa [kept] using recorded
      · simpa [Function.update_of_ne same] using recorded

theorem step_keeps {mode : Mode} {listeners : List ℕ} {action : HostAction}
    (ok : HostOk config mode listeners {} host) (plain : action.Plain)
    (stepped : step config host action = .ok after) : KeepsRegions host after := by
  rcases step_eq_ok.mp stepped with ⟨done, performed⟩
  have within : Within config .any host := within_of_ok ok (fun _ => trivial) fun _ => trivial
  have quietly : (∀ handle req, action ≠ .send handle req) → KeepsRegions host after := fun quiet =>
    ((inScope_perform trivial trivial trivial ok within plain quiet).of_ok performed).keepsRegions
      trivial
  cases action
  case send handle req =>
    have sends : Advances KeepsRegions Stop.PoolSound
        (perform config (.send handle req) : Code queue PUnit) :=
      (send_keeps handle req).bind fun _ => advances_pure _
    exact (sends host).of_ok performed
  case closeTerminal term => exact absurd plain id
  all_goals exact quietly (by simp)

theorem plain_of_settled {action : HostAction} (admitted : Admits config settledMode host action) :
    action.Plain := by
  cases action
  case closeTerminal => cases admitted.1
  all_goals trivial

end Steps

end Host

section Regions

variable {listeners : List ℕ} {spare owned : List ℕ} {job job' : AsyncJob}

/-- The registration of a region has completed, or is outstanding. -/
def Host.Carries (host : Host queue) (job : AsyncJob) : Prop :=
  job.Recorded host ∨ ∃ ov, host.Pends ov job

/-- Each region registered is recorded in its terminal or its registration is outstanding, and no
other is registered for the same pointer. -/
def Host.KeepsEach (host : Host queue) : Prop :=
  ∀ region registration, (region, registration) ∈ host.registered → ∃ job,
    Taken host.events job ∧ job.region? = some region ∧ host.Carries job ∧
      ∀ job' region', Taken host.events job' → job'.region? = some region' →
        settledMode.key job' = settledMode.key job → job' = job

/-- A registration that is outstanding finds its pointer null. -/
theorem Host.null_of_pends (ok : HostOk config settledMode listeners {} host)
    (registers : job.region? = some region) (outstanding : host.Pends ov job)
    (same : settledMode.key job' = settledMode.key job) : ¬job'.Recorded host := by
  intro recorded
  cases job
  case onTagRegistered =>
    cases job'
    case onTagRegistered =>
      cases same
      cases recorded.symm.trans ((ok.jobs.ready outstanding).2 rfl)
    all_goals cases same
  case onMemRegistered =>
    cases job'
    case onMemRegistered =>
      cases same
      cases recorded.symm.trans ((ok.jobs.ready outstanding).2 rfl)
    all_goals cases same
  all_goals cases registers

theorem AsyncJob.Recorded.once (registers : job.region? = some region)
    (recorded : job.Recorded host) (recorded' : job'.Recorded host)
    (same : settledMode.key job' = settledMode.key job) : job' = job := by
  cases job
  case onTagRegistered =>
    cases job'
    case onTagRegistered =>
      cases same
      rw [Option.some.inj (Eq.trans recorded'.symm recorded)]
    all_goals cases same
  case onMemRegistered =>
    cases job'
    case onMemRegistered =>
      cases same
      rw [Option.some.inj (Eq.trans recorded'.symm recorded)]
    all_goals cases same
  all_goals cases registers

/-- One pointer takes one region. -/
theorem Host.Carries.once (ok : HostOk config settledMode listeners {} host)
    (registers : job.region? = some region) (registers' : job'.region? = some region')
    (carries : host.Carries job) (carries' : host.Carries job')
    (same : settledMode.key job' = settledMode.key job) : job' = job := by
  rcases carries with recorded | ⟨ov, outstanding⟩
  · rcases carries' with recorded' | ⟨ov', outstanding'⟩
    · exact recorded.once registers recorded' same
    · exact absurd recorded (Host.null_of_pends ok registers' outstanding' same.symm)
  · rcases carries' with recorded' | ⟨ov', outstanding'⟩
    · exact absurd recorded' (Host.null_of_pends ok registers outstanding same)
    · have keyed : ∃ key, settledMode.key job = some key := by
        cases job
        case onTagRegistered => exact ⟨_, rfl⟩
        case onMemRegistered => exact ⟨_, rfl⟩
        all_goals cases registers
      rcases keyed with ⟨key, keyed⟩
      have once := ok.jobs.once outstanding outstanding' keyed (same.trans keyed)
      subst once
      exact Option.some.inj (outstanding'.2.symm.trans outstanding.2)

theorem Host.keepsEach (ok : HostOk config settledMode listeners {} host)
    (orderly : host.Orderly config (some []) spare owned []) : host.KeepsEach := by
  have carries : ∀ job, Taken host.events job → host.Carries job := by
    intro job taken
    rcases orderly.kept [] rfl job taken with recorded | outstanding | ⟨_, _, inHand⟩ | due
    · exact .inl recorded
    · exact .inr outstanding
    · cases inHand
    · cases due
  intro region registration member
  rcases orderly.granted.registered region registration member with
    ⟨job, span, taken, registers, _⟩
  refine ⟨job, taken, registers, carries job taken, fun job' region' taken' registers' same => ?_⟩
  exact (carries job taken).once ok registers registers' (carries job' taken') same

end Regions

section Runs

/-- A step of a settled run fails no assertion on registrations, and none on the pool of overlapped
objects for up to 256 connections. -/
theorem Host.asserts_of_settled {text : String}
    (reachable : (hostMachine queue setup).Reachable (Host.Admits setup.config settledMode) host)
    (admitted : Host.Admits setup.config settledMode host action)
    (stopped : Host.step setup.config host action = .error (.abort (.assert text))) :
    text ∉ duplicateInit ∧ text ≠ "Memory region state mismatch!" ∧
      (setup.config.maxConnection ≤ 256 → text ≠ "Resource pool empty!") := by
  rcases tolerates_of_stop reachable admitted stopped with
    expected | ⟨strict, _⟩ | ⟨large, empty⟩ | ⟨closers, _⟩
  · have excluded : ∀ text ∈ ["Exhausted connection!", "Rmote protocol mismatch!",
        "Local address mismatch!",
        "Notification error not handled! We don't expect immediate return either!",
        "Pending status not expected after IOCP notification!"],
        text ∉ duplicateInit ∧ text ≠ "Memory region state mismatch!" ∧
          text ≠ "Resource pool empty!" := by decide
    rcases excluded text expected with ⟨once, both, some⟩
    exact ⟨once, both, fun _ => some⟩
  · cases strict
  · rw [empty]
    exact ⟨by decide, by decide, fun small => absurd ⟨rfl, rfl, small⟩ large⟩
  · cases closers

/-- In every run that takes terminals again only when their registrations have completed, and in
which no connection is closed, a terminal has each of its two regions, or waits for exactly one
registration of it, unless it was never used; no step overwrites a region, registers one twice or
finds only one of the two pointers set; and for up to 256 connections the pool of overlapped
objects is never empty when one is needed. -/
theorem registrations_settle (queue : CircularQue ℕ) (setup : Setup) {host : Host queue}
    (reachable : (hostMachine queue setup).Reachable
      (Host.Admits setup.config settledMode) host) :
    (∀ conId, setup.config.TermId conId → host.Registers conId ∨
      host.Unregistered conId ∧ conId ∈ queue.items host.connPool) ∧
    host.pending.length ≤ 3 * setup.config.maxConnection + 1 ∧
    ∀ action, Host.Admits setup.config settledMode host action →
      (∀ after, Host.step setup.config host action = .ok after → Host.KeepsRegions host after) ∧
      ∀ text, Host.step setup.config host action = .error (.abort (.assert text)) →
        text ∉ duplicateInit ∧ text ≠ "Memory region state mismatch!" ∧
        (setup.config.maxConnection ≤ 256 → text ≠ "Resource pool empty!") := by
  rcases hostOk_of_reachable reachable with ⟨listeners, ok⟩
  refine ⟨fun conId inRange => ?_, ok.pending_length rfl rfl, fun action admitted => ⟨?_, ?_⟩⟩
  · by_cases free : conId ∈ queue.items host.connPool
    · exact (Host.registers_or ok inRange).imp_right fun unregistered => ⟨unregistered, free⟩
    · exact .inl (Host.registers_of_used ok inRange free)
  · intro after stepped
    exact Host.step_keeps ok (Host.plain_of_settled admitted) stepped
  · exact fun text stopped => Host.asserts_of_settled reachable admitted stopped

/-- An accept's terminal waits for both of its regions. -/
theorem registrations_settle_accept :
    ∃ host : Host (boundedQueue ℕ), host.pending = [0, 1, 2] ∧
      (host.Registers 1 ∨ host.Unregistered 1 ∧ 1 ∈ (boundedQueue ℕ).items host.connPool) := by
  have admitted : ∀ state : Host (boundedQueue ℕ), ∀ action ∈ sampleListen,
      Host.Admits (sampleSetup 8192 1).config settledMode state action := by
    simp [sampleListen, Host.Admits]
  have passes : (sampleRun sampleListen).toOption.any (fun host => host.pending = [] ∧
      (Host.step (sampleSetup 8192 1).config host (.accept sampleHandle 5 6 {})).toOption.any
        (fun after => after.pending = [0, 1, 2]) = true) = true := by decide +kernel
  rcases sampleRun_reaches admitted passes with ⟨before, reachable, holds⟩
  rcases of_decide_eq_true holds with ⟨idle, accepts⟩
  cases stepped : Host.step (sampleSetup 8192 1).config before (.accept sampleHandle 5 6 {}) with
  | error stop =>
      rw [stepped] at accepts
      cases accepts
  | ok after =>
      rw [stepped] at accepts
      have front : before.FrontIdle := by
        rintro conId rest _ ov job ⟨member, _⟩
        rw [idle] at member
        cases member
      have taken : Host.Admits (sampleSetup 8192 1).config settledMode before
          (.accept sampleHandle 5 6 {}) := ⟨fun _ _ _ => front, fun exact => by cases exact⟩
      have settles := registrations_settle (boundedQueue ℕ) (sampleSetup 8192 1)
        (reachable.tail taken stepped)
      exact ⟨after, of_decide_eq_true accepts, settles.1 1 ⟨by decide, by decide⟩⟩

/-- In every run that closes no connection and makes no queues for a terminal while a registration
for it is outstanding: a registration that is outstanding finds its pointer null, a terminal that
waits for none has both of its regions or, in the pool, neither, every region registered is its
terminal's only one of its kind and recorded or still to be, no step overwrites one, and no
assertion on them fails. -/
theorem regions_registered_once (queue : CircularQue ℕ) (setup : Setup) {host : Host queue}
    (reachable : (hostMachine queue setup).Reachable
      (Host.Admits setup.config settledMode) host) :
    (∀ ov conId region, host.Pends ov (.onTagRegistered conId region) →
      (host.connections conId).pTagRegion = none) ∧
    (∀ ov conId region, host.Pends ov (.onMemRegistered conId region) →
      (host.connections conId).pMemRegion = none) ∧
    (∀ conId, setup.config.TermId conId →
      (∀ ov job, host.Pends ov job → job.registers? ≠ some conId) →
        ((host.connections conId).pTagRegion = none ↔
          (host.connections conId).pMemRegion = none) ∧
        (conId ∉ queue.items host.connPool → (host.connections conId).pTagRegion ≠ none)) ∧
    host.KeepsEach ∧
    ∀ action, Host.Admits setup.config settledMode host action →
      (∀ after, Host.step setup.config host action = .ok after → Host.KeepsRegions host after) ∧
      ∀ text ∈ duplicateInit ++ ["Memory region state mismatch!"],
        Host.step setup.config host action ≠ .error (.abort (.assert text)) := by
  rcases hostOk_of_reachable reachable with ⟨listeners, ok⟩
  have orderly : host.Orderly setup.config (some []) [] [] [] :=
    Host.orderly_of_run (fun _ _ _ admitted => Host.plain_of_settled admitted) reachable
  refine ⟨?_, ?_, ?_, Host.keepsEach ok orderly, ?_⟩
  · exact fun ov conId region outstanding => (ok.jobs.ready outstanding).2 rfl
  · exact fun ov conId region outstanding => (ok.jobs.ready outstanding).2 rfl
  · intro conId inRange idle
    have both : host.Registers conId → (host.connections conId).pTagRegion ≠ none ∧
        (host.connections conId).pMemRegion ≠ none := by
      rintro ⟨⟨tag, _⟩ | ⟨_, ov, region, outstanding, _⟩, mem⟩
      · rcases mem with ⟨mem, _⟩ | ⟨_, ov, region, outstanding, _⟩
        · exact ⟨tag, mem⟩
        · exact absurd rfl (idle ov _ outstanding)
      · exact absurd rfl (idle ov _ outstanding)
    constructor
    · rcases Host.registers_or ok inRange with registers | unregistered
      · simp [both registers]
      · simp [unregistered.tag, unregistered.mem]
    · exact fun used => (both (Host.registers_of_used ok inRange used)).1
  · intro action admitted
    refine ⟨fun after stepped => ?_, fun text member stopped => ?_⟩
    · exact Host.step_keeps ok (Host.plain_of_settled admitted) stepped
    · rcases Host.asserts_of_settled reachable admitted stopped with ⟨once, both, _⟩
      rcases List.mem_append.mp member with twice | mismatch
      · exact once twice
      · exact both (List.mem_singleton.mp mismatch)

/-- Nothing is outstanding when a socket connects. -/
def sampleSettled (host : Host (boundedQueue ℕ)) : HostAction → Bool
  | .createSocket | .complete _ _ _ => true
  | .connect _ _ _ _ => host.pending = []
  | _ => false

/-- An attempt fails, its registrations complete, and another attempt uses both regions again. -/
theorem sampleSettled_reaches :
    ∃ host, (hostMachine (boundedQueue ℕ) (sampleSetup 8192 1)).Reachable
      (Host.Admits (sampleSetup 8192 1).config settledMode) host ∧
      host.registered.map Prod.fst = [3, 4] ∧
      (host.connections 1).regions = (some 3, some 4) ∧ host.pending = [2] := by
  have checked : ∀ (host : Host (boundedQueue ℕ)) (action : HostAction),
      sampleSettled host action = true →
        Host.Admits (sampleSetup 8192 1).config settledMode host action := by
    intro host action passed
    cases action
    case connect =>
      rintro _ _ _ conId rest _ ov job ⟨member, _⟩
      rw [of_decide_eq_true passed] at member
      cases member
    case createSocket => trivial
    case complete => trivial
    all_goals cases passed
  have passes : (((hostMachine (boundedQueue ℕ) (sampleSetup 8192 1)).guarded sampleSettled
      .blocked).execute sampleHost [.createSocket,
        .connect sampleHandle 5 6 { bindConnector := ndCanceled }, .complete 0 ndSuccess {},
        .complete 1 ndSuccess {}, .connect sampleHandle 5 6 {}]).toOption.any (fun host =>
      host.registered.map Prod.fst = [3, 4] ∧
        (host.connections 1).regions = (some 3, some 4) ∧ host.pending = [2]) = true := by
    decide +kernel
  rcases Machine.Run.of_checked checked passes with ⟨host, run, holds⟩
  exact ⟨host, ⟨sampleHost, sampleHost_made, run⟩, of_decide_eq_true holds⟩

theorem regions_registered_once_reused :
    ∃ host : Host (boundedQueue ℕ), host.registered.map Prod.fst = [3, 4] ∧
      (host.connections 1).regions = (some 3, some 4) ∧ host.KeepsEach := by
  rcases sampleSettled_reaches with ⟨host, reachable, registered, regions, _⟩
  have once := regions_registered_once (boundedQueue ℕ) (sampleSetup 8192 1) reachable
  exact ⟨host, registered, regions, once.2.2.2.1⟩

/-- A terminal is taken again while the registrations of a failed attempt are outstanding. -/
def sampleEarly : List HostAction :=
  [.createSocket, .connect sampleHandle 5 6 { bindConnector := ndCanceled },
    .connect sampleHandle 5 6 { bindConnector := ndCanceled }, .complete 0 ndSuccess {}]

/-- Then the second registration of its tag region stops the process. -/
theorem regions_registered_twice :
    ∃ host : Host (boundedQueue ℕ),
      (hostMachine (boundedQueue ℕ) (sampleSetup 8192 1)).Reachable
        (fun _ action => action.Plain) host ∧
      Host.step (sampleSetup 8192 1).config host (.complete 2 ndSuccess {}) =
        .error (.abort (.assert "Duplicate init of tag mem region.")) := by
  have plain : ∀ (_ : Host (boundedQueue ℕ)) (action : HostAction), action ∈ sampleEarly →
      action.Plain := by
    simp [sampleEarly, HostAction.Plain]
  have passes : (sampleRun sampleEarly).toOption.any (fun host =>
      (Host.step (sampleSetup 8192 1).config host (.complete 2 ndSuccess {})).map (fun _ => ()) =
        .error (.abort (.assert "Duplicate init of tag mem region."))) = true := by
    decide +kernel
  rcases sampleRun_reaches plain passes with ⟨host, reachable, fails⟩
  refine ⟨host, reachable, ?_⟩
  have fails := of_decide_eq_true fails
  cases stepped : Host.step (sampleSetup 8192 1).config host (.complete 2 ndSuccess {}) with
  | error stop =>
      rw [stepped] at fails
      exact congrArg _ (Except.error.inj fails)
  | ok after =>
      rw [stepped] at fails
      cases fails

end Runs

end Hermes
