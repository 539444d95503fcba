import Hermes.HostComplete

/-!
# The invariant in every run

`HostOk` holds of the library object the factory makes, every step keeps it, and a step
stops only for the reasons the mode tolerates.  `Host.Admits` says which steps the runs of
a mode consist of.
-/

namespace Hermes

open Program

variable {queue : CircularQue ℕ} {config : HostConfig} {mode : Mode} {listeners : List ℕ}
  {hand : Hand} {host : Host queue} {setup : Setup} {action : HostAction}

section Start

variable {sizes counts : ℕ}

theorem Setup.Admitted.sane (admitted : setup.Admitted sizes counts) (fits : sizes + counts < 32) :
    setup.config.Sane where
  edge := by
    have small : 2 ^ (sizes - 1) < 2 ^ 64 :=
      Nat.pow_lt_pow_right (by decide) (by have := admitted.sizesHigh; omega)
    intro zero
    have value := congrArg UInt64.toNat zero
    rw [admitted.bufSize.1, UInt64.toNat_ofNat_of_lt' small] at value
    exact Nat.ne_of_gt (Nat.two_pow_pos _) value
  few := by
    have max : setup.config.maxConnection = 2 ^ counts := admitted.maxConnections
    rw [max, ← Nat.pow_succ']
    exact Nat.pow_lt_pow_right (by decide) (by have := admitted.countsHigh; omega)
  small := by
    rw [admitted.product.1]
    exact Nat.pow_lt_pow_right (by decide) fits

theorem firstHandle_eq {id : ℕ} (small : id < 2 ^ 32) : Host.firstHandle id = handleOf id 0 := by
  rw [Host.firstHandle, handleOf, Nat.zero_add, Nat.one_mul]
  congr 1
  have same := Nat.two_pow_add_eq_or_of_lt small 1
  rw [Nat.mul_one] at same
  exact same.symm

theorem mem_sockItems {maxConnection id : ℕ} :
    id ∈ (List.range' 1 maxConnection).flatMap (fun conId => [conId, conId + maxConnection]) ↔
      1 ≤ id ∧ id ≤ 2 * maxConnection := by
  simp only [List.mem_flatMap, List.mem_range'_1, List.mem_cons, List.not_mem_nil, or_false]
  constructor
  · rintro ⟨conId, bounds, same⟩
    omega
  · rintro ⟨low, high⟩
    by_cases first : id ≤ maxConnection
    · exact ⟨id, by omega, .inl rfl⟩
    · exact ⟨id - maxConnection, by omega, .inr (by omega)⟩

theorem nodup_sockItems (maxConnection : ℕ) :
    ((List.range' 1 maxConnection).flatMap
      fun conId => [conId, conId + maxConnection]).Nodup := by
  rw [List.nodup_flatMap]
  constructor
  · intro conId member
    have bounds := List.mem_range'_1.mp member
    simp only [List.nodup_cons, List.mem_cons, List.not_mem_nil, or_false, not_false_eq_true,
      List.nodup_nil, and_true]
    omega
  · refine (List.pairwise_lt_range' (s := 1) (n := maxConnection)).imp_of_mem ?_
    intro conId conId' member member' less
    have bounds := List.mem_range'_1.mp member
    have bounds' := List.mem_range'_1.mp member'
    simp only [Function.onFun, List.disjoint_cons_left, List.mem_cons, List.not_mem_nil, or_false,
      List.disjoint_nil_left, and_true]
    omega

/-- The invariant holds of the library object the factory makes. -/
theorem Host.Started.ok (started : Host.Started config host) (sane : config.Sane) (mode : Mode) :
    HostOk config mode [] {} host := by
  rcases started.rest with ⟨overlapPool, overlapItems, overlapCapacity, same⟩
  have connections : ∀ conId, host.connections conId = {} := by
    rw [same]
    exact fun _ => rfl
  have noRecord : ∀ {conId region}, ¬(host.connections conId).Records region := by
    intro conId region records
    rw [connections] at records
    rcases records with tag | mem
    · cases tag
    · cases mem
  have pending : host.pending = [] := by rw [same]; rfl
  have noJob : ∀ {ov job}, ¬host.Pends ov job := by
    rintro ov job ⟨member, _⟩
    rw [pending] at member
    cases member
  have disclosed : host.disclosed = [] := by rw [same]; rfl
  have notified : host.notified = [] := by rw [same]; rfl
  have delivered : host.delivered = [] := by rw [same]; rfl
  have noContinuation : ∀ {conId continuation},
      (host.connections conId).pDisconnectCont ≠ some continuation := by
    intro conId continuation holds
    rw [connections] at holds
    cases holds
  have frees : ∀ id, host.frees id = 0 := by
    rw [same]
    exact fun _ => rfl
  have items : queue.items host.overlapPool = List.range kibi := by rw [same]; exact overlapItems
  have sockets : ∀ {id}, config.SockId id → host.sockTbl id = { handle := Host.firstHandle id } :=
    fun sockId => started.sockTbl _ sockId.1 sockId.2
  have state : ∀ {id}, config.SockId id → (host.sockTbl id).state = .inpool :=
    fun sockId => by rw [sockets sockId]
  have sockMem : ∀ {id}, id ∈ queue.items host.sockPool ↔ config.SockId id := by
    intro id
    rw [started.sockItems]
    exact mem_sockItems
  have connMem : ∀ {conId}, conId ∈ queue.items host.connPool ↔ config.TermId conId := by
    intro conId
    rw [started.connItems, List.mem_range'_1, HostConfig.TermId]
    omega
  constructor
  case sane => exact sane
  case buffers => exact started.fit.2
  case sockCapacity => exact started.sockCapacity
  case connCapacity => exact started.connCapacity
  case overlapCapacity => rw [same]; exact overlapCapacity
  case slots =>
    constructor
    case sockNodup => rw [started.sockItems]; exact nodup_sockItems _
    case sockIds => exact fun id member => sockMem.mp member
    case sockInHand => exact nofun
    case pooled => exact fun id settled => iff_of_true (sockMem.mpr settled.1) (state settled.1)
    case sockets =>
      intro id settled
      rw [sockets settled.1]
      exact ⟨rfl, rfl⟩
    case handles =>
      intro id sockId
      have few := sane.few
      have high := sockId.2
      rw [sockets sockId, frees, firstHandle_eq (by omega)]
    case connNodup => rw [started.connItems]; exact List.nodup_range'
    case connIds => exact fun conId member => connMem.mp member
    case termInHand => exact nofun
    case owner => exact fun conId inRange outside => absurd (connMem.mpr inRange) outside
    case owned =>
      intro id settled owner
      rw [sockets settled.1] at owner
      exact absurd rfl owner
    case ownedOnce =>
      intro id id' settled _ owner
      rw [sockets settled.1] at owner
      exact absurd rfl owner
    case void =>
      intro conId _
      rw [connections]
      rfl
  case jobs => exact ⟨fun outstanding => absurd outstanding noJob,
    fun outstanding => absurd outstanding noJob⟩
  case regions =>
    constructor
    case outstanding => exact fun outstanding => absurd outstanding noJob
    case once => exact fun outstanding => absurd outstanding noJob
    case recorded => exact fun _ records => absurd records noRecord
    case recordedOnce => exact fun _ _ records => absurd records noRecord
    case disclosedLt => rw [disclosed]; exact nofun
    case secretPool => exact fun conId _ region records => absurd records noRecord
    case secretAccept => exact fun _ _ _ region records => absurd records noRecord
    case both =>
      intro conId _ some
      rw [connections] at some
      exact absurd rfl some
    case started =>
      intro conId _ _ some
      rw [connections] at some
      exact absurd rfl some
    case connecting =>
      intro id settled connecting
      rw [state settled.1] at connecting
      cases connecting
  case registers =>
    intro _
    constructor
    case half =>
      intro conId _ _ some
      rw [connections] at some
      exact absurd rfl some
    case awaitsMem => exact fun outstanding => absurd outstanding noJob
    case awaitsTag => exact fun _ _ _ _ outstanding => absurd outstanding noJob
    case used => exact fun _ conId inRange outside => absurd (connMem.mpr inRange) outside
  case log =>
    constructor
    case called =>
      intro conId notifier _ func
      rw [connections] at func
      cases func
    case once =>
      intro conId conId' notifier notifier' _ _ func
      rw [connections] at func
      cases func
    case logged => rw [notified]; exact nofun
    case nodup => rw [notified]; exact fun _ => List.nodup_nil
    case quiet => rw [notified]; exact fun _ _ _ => nofun
  case continuations =>
    exact ⟨fun _ holds => absurd holds noContinuation,
      fun _ _ holds _ => absurd holds noContinuation⟩
  case overlaps =>
    constructor
    case all =>
      rw [items, pending, List.append_nil, List.append_nil]
    case blank =>
      intro ov _
      rw [same]
      rfl
    case taken => rw [pending]; exact nofun
  case listens =>
    refine ⟨[], fun _ => rfl, ?_⟩
    constructor
    case made => exact nofun
    case held =>
      intro id listener settled holds
      rw [sockets settled.1] at holds
      cases holds
    case heldOnce =>
      intro id id' listener settled _ holds
      rw [sockets settled.1] at holds
      cases holds
    case unheld => exact nofun
    case inHand => exact nofun
    case apart =>
      intro conId _ object holds
      rw [connections] at holds
      rcases holds with pointer | pointer | pointer | records
      · cases pointer
      · cases pointer
      · cases pointer
      · exact absurd (connections conId ▸ records) noRecord
    case jobs => rw [pending]; exact nofun
  case handles =>
    constructor
    rw [delivered]
    exact nofun
  case awaited =>
    rintro arena ⟨ov, member, _⟩
    rw [pending] at member
    cases member

end Start

section Steps

/-- The steps of the runs of a mode: `closers` lets terminals be closed, `patient` only when the
operations of the connection have ended, `strict` is that no registration is outstanding for a
terminal that gets its queues, and `exact` that every `Accept` gets the queues it asks for. -/
def Host.Admits (config : HostConfig) (mode : Mode) (host : Host queue) : HostAction → Prop
  | .accept handle _ _ replies =>
      (mode.strict = true → host.Accepts handle → replies.makesQues config = true →
        host.FrontIdle) ∧
        (mode.exact = true → host.Accepts handle → replies.makesQues config = true)
  | .connect handle _ _ replies => mode.strict = true → host.Connects handle →
      replies.makesQues config = true → host.FrontIdle
  | .closeTerminal term _ => mode.closers = true ∧
      (mode.patient = true → config.TermId term ∧ host.Finished term)
  | _ => True

/-- The listeners a step makes. -/
def Host.opens (config : HostConfig) (host : Host queue) : HostAction → List ℕ
  | .listen handle port replies =>
      match Host.perform config (.listen handle port replies) host with
      | .ok (_, after) => Host.madeSince host after
      | .error _ => []
  | _ => []

/-- A step keeps the invariant, or stops for a reason the mode tolerates. -/
theorem Host.perform_ensures (ok : HostOk config mode listeners {} host)
    (admitted : Host.Admits config mode host action) :
    Ensures (Host.perform config action)
      (fun _ after => HostOk config mode (listeners ++ Host.opens config host action) {} after)
      (mode.Tolerates config) host := by
  cases action
  case createSocket =>
    simp only [Host.opens, List.append_nil]
    exact (Host.createSocket_ensures ok).bind fun _ _ afterOk => afterOk
  case listen handle port replies =>
    have listens : Ensures (Host.listen handle port replies) _ _ host := Host.listen_ensures ok
    cases outcome : Host.listen handle port replies host with
    | error stop =>
        rw [Host.perform, Ensures, apply_bind_error outcome]
        exact listens.of_error outcome
    | ok pair =>
        have performed : Host.perform config (.listen handle port replies) host =
            .ok (⟨⟩, pair.2) := apply_bind outcome
        rw [Ensures, performed]
        dsimp only [Host.opens]
        rw [performed]
        exact (listens.of_ok outcome).1
  case accept handle connectCallback rcvCallback replies =>
    simp only [Host.opens, List.append_nil]
    exact (Host.accept_ensures ok admitted.1 admitted.2 connectCallback rcvCallback).bind
      fun _ _ done => done.1
  case connect handle connectCallback rcvCallback replies =>
    simp only [Host.opens, List.append_nil]
    exact (Host.connect_ensures ok admitted connectCallback rcvCallback).bind fun _ _ done => done.1
  case send handle req =>
    simp only [Host.opens, List.append_nil]
    exact (Host.send_ensures ok req).bind fun _ _ afterOk => afterOk
  case closeSocket handle err =>
    simp only [Host.opens, List.append_nil]
    exact Host.closeSocket_ensures ok
  case complete ov hr replies =>
    simp only [Host.opens, List.append_nil]
    exact Host.run_ensures ok
  case shutdown =>
    simp only [Host.opens, List.append_nil]
    exact ok.closing true
  case destroySocket id =>
    simp only [Host.opens, List.append_nil]
    refine .step apply_get ?_
    by_cases destroys : host.closing = true ∧ (host.getSocket id).isSome = true
    · rw [if_pos destroys]
      rcases Option.isSome_iff_exists.mp destroys.2 with ⟨pSock, found⟩
      exact Host.destroySocket_ensures ok (Host.sockId_of_getSocket ok found).2
    · rw [if_neg destroys]
      exact trivial
  case closeTerminal term notices =>
    simp only [Host.opens, List.append_nil]
    exact Host.closeTerminal_ensures ok admitted.1 admitted.2 notices

theorem Host.step_eq_ok {after : Host queue} :
    Host.step config host action = .ok after ↔
      ∃ done, Host.perform config action host = .ok (done, after) := by
  simp only [Host.step, bind_eq_ok]
  constructor
  · rintro ⟨⟨done, last⟩, performed, same⟩
    cases same
    exact ⟨done, performed⟩
  · rintro ⟨done, performed⟩
    exact ⟨⟨done, after⟩, performed, rfl⟩

theorem Host.step_eq_error {stop : Stop} :
    Host.step config host action = .error stop ↔ Host.perform config action host = .error stop := by
  cases performed : Host.perform config action host with
  | ok pair => simp [Host.step, performed, bind, Except.bind, pure, Except.pure]
  | error reason => simp [Host.step, performed, bind, Except.bind]

/-- The library with the listeners made so far. -/
abbrev listenMachine (queue : CircularQue ℕ) (setup : Setup) :
    Machine (Host queue × List ℕ) HostAction Stop :=
  (hostMachine queue setup).logged (Host.opens setup.config)

/-- The invariant holds in every run. -/
theorem reachable_hostOk {logged : Host queue × List ℕ}
    (reachable : (listenMachine queue setup).Reachable
      (fun state => Host.Admits setup.config mode state.1) logged) :
    HostOk setup.config mode logged.2 {} logged.1 := by
  refine reachable.invariant (fun logged => HostOk setup.config mode logged.2 {} logged.1) ?_ ?_
  · rintro ⟨host, log⟩ ⟨made, rfl⟩
    rcases Host.factory_started made with ⟨sizes, counts, admitted, fits, started⟩
    exact started.ok (admitted.sane fits) mode
  · rintro state action next ok admitted stepped
    rcases Machine.logged_step.mp stepped with ⟨stepped, log⟩
    rcases Host.step_eq_ok.mp stepped with ⟨done, performed⟩
    rw [log]
    exact (Host.perform_ensures ok admitted).of_ok performed

/-- Every reachable state satisfies the invariant, for the listeners made so far. -/
theorem hostOk_of_reachable
    (reachable : (hostMachine queue setup).Reachable (Host.Admits setup.config mode) host) :
    ∃ listeners, HostOk setup.config mode listeners {} host := by
  rcases reachable with ⟨first, started, run⟩
  have runs : ∃ listeners, (listenMachine queue setup).Run
      (fun state => Host.Admits setup.config mode state.1) (first, []) (host, listeners) :=
    run.logged []
  rcases runs with ⟨listeners, run'⟩
  exact ⟨listeners, reachable_hostOk ⟨(first, []), ⟨started, rfl⟩, run'⟩⟩

/-- Why a step from a reachable state stops. -/
theorem tolerates_of_stop {stop : Stop}
    (reachable : (hostMachine queue setup).Reachable (Host.Admits setup.config mode) host)
    (admitted : Host.Admits setup.config mode host action)
    (stopped : Host.step setup.config host action = .error stop) :
    mode.Tolerates setup.config stop := by
  rcases hostOk_of_reachable reachable with ⟨listeners, ok⟩
  exact (Host.perform_ensures ok admitted).of_error (Host.step_eq_error.mp stopped)

end Steps

section Sample

/-- The library object for one connection with rings of 4096 bytes. -/
def sampleHost : Host (boundedQueue ℕ) :=
  let blank := Host.blank (boundedQueue ℕ) (sampleSetup 8192 1).config (List.range kibi, kibi)
  { blank with
    buffers := ⟨0x200000, 8192⟩
    connectionSpan := ⟨0x202000, 208⟩
    sockSpan := ⟨0x2020D0, 48⟩
    connections := Function.update blank.connections 1 {}
    connPool := ([1], 1)
    sockPool := ([1, 2], 2)
    sockTbl := Function.update
      (Function.update blank.sockTbl 1 { handle := UInt64.ofNat (2 ^ 32 ||| 1) })
      2 { handle := UInt64.ofNat (2 ^ 32 ||| 2) } }

theorem sampleHost_made :
    (hostMachine (boundedQueue ℕ) (sampleSetup 8192 1)).start sampleHost := by
  rcases objectPool_ok (boundedQueue ℕ) with ⟨⟨items, size⟩, pool, sameItems, sameSize⟩
  have sameItems' : items = List.range kibi := sameItems
  have sameSize' : size = kibi := sameSize
  rw [sameItems', sameSize'] at pool
  unfold hostMachine hermesFixedRIOFactory Host.construct
  rw [pool]
  rfl

/-- The end of a list of actions of the sample. -/
def sampleRun (actions : List HostAction) : Except Stop (Host (boundedQueue ℕ)) :=
  (hostMachine (boundedQueue ℕ) (sampleSetup 8192 1)).execute sampleHost actions

/-- A test that succeeds at the end of a list of actions of the sample names a reachable state. -/
theorem sampleRun_reaches {allowed : Host (boundedQueue ℕ) → HostAction → Prop}
    {actions : List HostAction} {test : Host (boundedQueue ℕ) → Bool}
    (admitted : ∀ state, ∀ action ∈ actions, allowed state action)
    (passes : (sampleRun actions).toOption.any test = true) :
    ∃ host, (hostMachine (boundedQueue ℕ) (sampleSetup 8192 1)).Reachable allowed host ∧
      test host = true :=
  Machine.Reachable.of_execute sampleHost_made admitted passes

/-- The first socket's first handle. -/
def sampleHandle : UInt64 := 0x100000001

/-- A socket that listens. -/
def sampleListen : List HostAction := [.createSocket, .listen sampleHandle 80 {}]

end Sample

end Hermes
