import Hermes.HostClosing
import Hermes.HostListeners
import Mathlib.Data.Set.Card
import Mathlib.Order.Interval.Finset.Nat

/-!
# The closing loop of the destructor

The loop visits one socket after the other, and starts again until it has found all of
them in the pool.  `closingMachine` runs it together with what goes on meanwhile: a
pending `GetConnectionRequest` completes when its listener has no references left, the
provider accepts a connection or fails to, a disconnect is noticed, and a terminal that
has been told to close is closed.  What is due happens before the loop goes on; a loop
that overtakes it only goes round once more.  Registrations are left out: they touch no
socket.
-/

namespace Hermes

open Program

variable {queue : CircularQue ℕ} {setup : Setup} {config : HostConfig} {listeners : List ℕ}

/-- The library while its destructor runs, with the loop's variables. -/
structure Destructor (queue : CircularQue ℕ) where
  host : Host queue
  id : ℕ := 1
  workToDo : Bool := false

/-- What happens while the destructor runs. -/
inductive ClosingAction where
  | visit
  | complete (ov : ℕ) (hr : HRESULT) (replies : Replies)
  | closeTerminal (termId : ℕ) (notices : List StatusCode)

namespace Host

variable (host : Host queue)

/-- The operation waits for a connection at a listener without references. -/
def Orphaned (ov : ℕ) : Prop :=
  ∃ id listener, host.Pends ov (.onConn id listener) ∧ host.refs listener = 0

/-- The provider has been asked to accept the connection of the socket. -/
def Accepting (id : ℕ) : Prop := ∃ ov, host.Pends ov (.onAccepted id)

/-- The provider has been asked to tell of the disconnect of the terminal's connection. -/
def Noticing (termId : ℕ) : Prop := ∃ ov, host.Pends ov (.onDisconNotified termId)

/-- The completions there can be while no peer connects: a request for a connection is cancelled
when its listener is gone, and an accepted connection is one of the address of the library. -/
def Completable (config : HostConfig) (ov : ℕ) (hr : HRESULT) (replies : Replies) : Prop :=
  host.Orphaned ov ∧ hr = ndCanceled ∨
    hr ≠ ndPending ∧ ((∃ id, host.Pends ov (.onAccepted id)) ∧ replies.localIp = config.homeIp ∨
      ∃ termId, host.Pends ov (.onDisconNotified termId))

/-- Something happens before the loop goes on. -/
def Due (config : HostConfig) : Prop :=
  (∃ ov, host.Orphaned ov) ∨ (∃ id, host.Accepting id) ∨
    ∃ termId, config.TermId termId ∧ host.Told termId

end Host

namespace Destructor

/-- The loop in `~HermesFixedRIO`, one socket at a time. -/
def step (config : HostConfig) (state : Destructor queue) :
    ClosingAction → Except Stop (Destructor queue)
  | .visit =>
      if state.id ≤ queue.getCapacity state.host.sockPool then do
        let host ← Host.step config state.host (.destroySocket state.id)
        let found := (state.host.sockTbl state.id).state ≠ .inpool
        return { host, id := state.id + 1, workToDo := state.workToDo || found }
      else if state.workToDo then return { state with id := 1, workToDo := false }
      else throw .blocked
  | .complete ov hr replies => do
      let host ← Host.step config state.host (.complete ov hr replies)
      return { state with host }
  | .closeTerminal termId notices => do
      let host ← Host.step config state.host (.closeTerminal termId notices)
      return { state with host }

/-- The loop has ended. -/
def Over (state : Destructor queue) : Prop :=
  queue.getCapacity state.host.sockPool < state.id ∧ state.workToDo = false

/-- What is due comes first, and a terminal is closed when the operations of its connection have
ended. -/
def Allowed (config : HostConfig) (state : Destructor queue) : ClosingAction → Prop
  | .visit => ¬state.Over ∧ ¬state.host.Due config
  | .complete ov hr replies => state.host.Completable config ov hr replies
  | .closeTerminal termId _ => config.TermId termId ∧ state.host.Told termId ∧
      state.host.Finished termId

/-- The loop has ended with every socket in the pool. -/
def Done (config : HostConfig) (state : Destructor queue) : Prop :=
  state.Over ∧ ∀ id, config.SockId id → (state.host.sockTbl id).state = .inpool

end Destructor

/-- The library from where the loop of its destructor begins. -/
def closingMachine (queue : CircularQue ℕ) (setup : Setup) :
    Machine (Destructor queue) ClosingAction Stop where
  start state := (hostMachine queue setup).Reachable (Host.Patient setup.config) state.host ∧
    state.host.closing = true ∧ state = { host := state.host }
  step := Destructor.step setup.config

section Visits

variable {host after : Host queue} {id id' termId : ℕ}

/-- The states `TryCloseSocket` does something about. -/
def SocketState.closable : SocketState → Bool
  | disconnected | listening | connected => true
  | _ => false

/-- A connected socket's terminal is told to close. -/
def Host.Tells (id : ℕ) (before after : Host queue) : Prop :=
  ∃ continuation, (before.connections (before.sockTbl id).term).pDisconnectCont =
      some continuation ∧
    after = { before with posts := before.posts ++ [(continuation, ndCanceled)] }

/-- What one round of the loop does to a socket. -/
theorem Host.visit_ensures (ok : HostOk config patientMode listeners {} host)
    (closing : host.closing = true) (sockId : config.SockId id) {fault : Stop → Prop} :
    Ensures (Host.perform config (.destroySocket id)) (fun _ after =>
        ((host.sockTbl id).state = .disconnected ∨ (host.sockTbl id).state = .listening) ∧
          Host.Closed id host after ∨
        (host.sockTbl id).state = .connected ∧ Host.Tells id host after ∨
        (host.sockTbl id).state.closable = false ∧ after = host)
      fault host := by
  have found := Host.getSocket_eq ok sockId
  refine .step apply_get ?_
  rw [if_pos ⟨closing, by rw [found]; rfl⟩]
  unfold Host.destroySocket
  refine .step apply_get ?_
  by_cases inpool : (host.sockTbl id).state = .inpool
  · rw [if_pos inpool]
    exact .inr (.inr ⟨by rw [inpool]; rfl, rfl⟩)
  rw [if_neg inpool]
  by_cases idle : (host.sockTbl id).state = .disconnected ∨ (host.sockTbl id).state = .listening
  · refine (Host.closeIdle_ensures ok sockId idle).bind ?_
    rintro _ after ⟨_, closed⟩
    exact .inl ⟨idle, closed⟩
  have fits := ok.slots.sockets id (.of_none sockId rfl)
  by_cases connected : (host.sockTbl id).state = .connected
  · simp only [SocketOk, connected] at fits
    rcases fits with ⟨owns, begun⟩
    have told : Ensures (Host.tryCloseSocket config id ndCanceled) (fun _ => Host.Tells id host)
        fault host := by
      unfold Host.tryCloseSocket
      refine .step apply_get ?_
      dsimp only
      rw [connected]
      refine .step (Host.audit_eq owns.term.ne) (Host.ensures_getTerminal owns.term ?_)
      refine Host.ensures_derefPtr (fun none => absurd none begun) fun continuation holds => ?_
      exact .of_eq rfl ⟨continuation, holds, rfl⟩
    exact told.bind fun _ after told => .inr (.inl ⟨connected, told⟩)
  · have refused : (host.sockTbl id).state.closable = false ∧
        Host.tryCloseSocket config id ndCanceled host = .ok (false, host) := by
      unfold Host.tryCloseSocket
      rw [apply_bind apply_get]
      cases state : (host.sockTbl id).state
      case disconnected => exact absurd (.inl state) idle
      case listening => exact absurd (.inr state) idle
      case connected => exact absurd state connected
      all_goals exact ⟨rfl, rfl⟩
    exact .step refused.2 (.inr (.inr ⟨refused.1, rfl⟩))

theorem Host.Tells.operations (tells : Host.Tells id host after) :
    after.operations = host.operations := by
  rcases tells with ⟨_, _, rfl⟩
  rfl

theorem Host.pends_of_operations (same : after.operations = host.operations) {ov : ℕ}
    {job : AsyncJob} : after.Pends ov job ↔ host.Pends ov job := by
  simp only [Host.operations, Prod.mk.injEq] at same
  rw [Host.Pends, Host.Pends, same.1, same.2.1]

/-- Two sockets outside the pool have different terminals. -/
theorem Host.term_ne (ok : HostOk config patientMode listeners {} host)
    (sockId : config.SockId id) (sockId' : config.SockId id') (other : id' ≠ id)
    (owner : (host.sockTbl id').term ≠ invalidTermId) :
    (host.sockTbl id').term ≠ (host.sockTbl id).term := fun shared =>
  other (ok.slots.ownedOnce id' id (.of_none sockId' rfl) (.of_none sockId rfl) owner shared)

/-- Closing a socket tells no other terminal to close. -/
theorem Host.Closed.told_iff (closed : Host.Closed id host after)
    (other : termId ≠ (host.sockTbl id).term) : after.Told termId ↔ host.Told termId := by
  rw [Host.Told, Host.Told, closed.connections _ other, closed.posts]

end Visits

section Work

variable {host after : Host queue} {id ov : ℕ} {job : AsyncJob}

/-- The sockets outside the pool. -/
def Host.outside (config : HostConfig) (host : Host queue) : Set ℕ :=
  {id | config.SockId id ∧ (host.sockTbl id).state ≠ .inpool}

/-- The connected sockets whose terminals have not been told to close. -/
def Host.untold (config : HostConfig) (host : Host queue) : Set ℕ :=
  {id | config.SockId id ∧ (host.sockTbl id).state = .connected ∧
    ¬host.Told (host.sockTbl id).term}

/-- The sockets the provider has been asked to accept a connection for. -/
def Host.accepting (config : HostConfig) (host : Host queue) : Set ℕ :=
  {id | config.SockId id ∧ host.Accepting id}

/-- The terminals whose disconnect the provider has been asked to tell of. -/
def Host.noticing (config : HostConfig) (host : Host queue) : Set ℕ :=
  {termId | config.TermId termId ∧ host.Noticing termId}

/-- What there is to do before every socket is in the pool: an accepted connection may ask for a
notification and has to be told to close. -/
noncomputable def Host.work (config : HostConfig) (host : Host queue) : ℕ :=
  2 * (host.outside config).ncard + 2 * (host.untold config).ncard +
    4 * (host.accepting config).ncard + (host.noticing config).ncard

theorem HostConfig.finite_sockets (config : HostConfig) (holds : ℕ → Prop) :
    {id | config.SockId id ∧ holds id}.Finite :=
  (Set.finite_Icc 1 (2 * config.maxConnection)).subset fun _ member => member.1

theorem HostConfig.finite_terminals (config : HostConfig) (holds : ℕ → Prop) :
    {termId | config.TermId termId ∧ holds termId}.Finite :=
  (Set.finite_Icc 1 config.maxConnection).subset fun _ member => member.1

theorem Host.accepting_of_operations (same : after.operations = host.operations) :
    after.accepting config = host.accepting config := by
  simp only [Host.accepting, Host.Accepting, Host.pends_of_operations same]

theorem Host.noticing_of_operations (same : after.operations = host.operations) :
    after.noticing config = host.noticing config := by
  simp only [Host.noticing, Host.Noticing, Host.pends_of_operations same]

/-- When a socket is closed, there is less to do. -/
theorem Host.Closed.work_lt (closed : Host.Closed id host after)
    (ok : HostOk config patientMode listeners {} host) (sockId : config.SockId id)
    (active : (host.sockTbl id).state ≠ .inpool) :
    after.work config + 2 ≤ host.work config := by
  have outside : after.outside config = host.outside config \ {id} := by
    ext id'
    by_cases same : id' = id
    · simp [Host.outside, same, closed.inpool]
    · simp [Host.outside, same, closed.others id' same]
  have counted := Set.ncard_sdiff_singleton_add_one (s := host.outside config)
    ⟨sockId, active⟩ (config.finite_sockets _)
  have untold : after.untold config ⊆ host.untold config := by
    rintro id' ⟨sockId', connected, notTold⟩
    have other : id' ≠ id := by
      rintro rfl
      rw [closed.inpool] at connected
      cases connected
    rw [closed.others id' other] at connected notTold
    have fits := ok.slots.sockets id' (.of_none sockId' rfl)
    simp only [SocketOk, connected] at fits
    have apart := Host.term_ne ok sockId sockId' other fits.1.term.ne
    exact ⟨sockId', connected, fun told => notTold ((closed.told_iff apart).mpr told)⟩
  have fewer := Set.ncard_le_ncard untold (config.finite_sockets _)
  rw [Host.work, Host.work, Host.accepting_of_operations closed.operations,
    Host.noticing_of_operations closed.operations, outside]
  omega

/-- When a connected socket's terminal is told to close for the first time, there is less to do. -/
theorem Host.Tells.work_lt (tells : Host.Tells id host after) (sockId : config.SockId id)
    (connected : (host.sockTbl id).state = .connected)
    (notTold : ¬host.Told (host.sockTbl id).term) : after.work config + 2 ≤ host.work config := by
  have same := tells.operations
  rcases tells with ⟨continuation, holds, rfl⟩
  have untold : Host.untold config { host with
      posts := host.posts ++ [(continuation, ndCanceled)] } ⊂ host.untold config := by
    refine Set.ssubset_iff_of_subset ?_ |>.mpr ⟨id, ⟨sockId, connected, notTold⟩, ?_⟩
    · rintro id' ⟨sockId', connected', notTold'⟩
      refine ⟨sockId', connected', ?_⟩
      rintro ⟨continuation', err, holds', posted⟩
      exact notTold' ⟨continuation', err, holds', List.mem_append_left _ posted⟩
    · rintro ⟨_, _, notTold'⟩
      exact notTold' ⟨continuation, ndCanceled, holds, by simp⟩
  have fewer := Set.ncard_lt_ncard untold (config.finite_sockets _)
  rw [Host.work, Host.work, Host.accepting_of_operations same, Host.noticing_of_operations same]
  have outside : Host.outside config { host with
      posts := host.posts ++ [(continuation, ndCanceled)] } = host.outside config := rfl
  rw [outside]
  omega

/-- What was told stays told. -/
theorem Host.Moved.told (moved : Host.Moved job host after) {termId : ℕ}
    (told : host.Told termId) : after.Told termId := by
  rcases told with ⟨continuation, err, holds, posted⟩
  exact ⟨continuation, err, (moved.continuations termId).trans holds, moved.posts.subset posted⟩

theorem Host.Moved.inpool_iff (moved : Host.Moved job host after) :
    (after.sockTbl id).state = .inpool ↔ (host.sockTbl id).state = .inpool := by
  rcases moved.state id with same | ⟨_, attempting, gone⟩
  · rw [same]
  · refine iff_of_false ?_ ?_
    · intro inpool
      rw [inpool] at gone
      simp at gone
    · intro inpool
      rw [inpool] at attempting
      cases attempting

/-- When an operation of a connection completes, there is less to do. -/
theorem Host.Completed.work_lt (completed : Host.Completed ov job host after)
    (ok : HostOk config patientMode listeners {} host) (outstanding : host.Pends ov job)
    (connection : (∃ id, job = .onAccepted id) ∨ ∃ termId, job = .onDisconNotified termId) :
    after.work config + 1 ≤ host.work config := by
  have moved := completed.toMoved
  have outside : after.outside config = host.outside config := by
    ext id
    simp [Host.outside, moved.inpool_iff]
  have untold : ∀ {id}, id ∈ after.untold config → job ≠ .onAccepted id →
      id ∈ host.untold config := by
    rintro id ⟨sockId, connected, notTold⟩ other
    rcases moved.state id with same | ⟨accepted, _⟩
    · rw [moved.term] at notTold
      exact ⟨sockId, same ▸ connected, fun told => notTold (moved.told told)⟩
    · exact absurd accepted other
  have accepting : ∀ {id}, id ∈ after.accepting config →
      id ∈ host.accepting config ∧ job ≠ .onAccepted id := by
    rintro id ⟨sockId, ov', outstanding'⟩
    rcases completed.pends outstanding' with ⟨other, before⟩ | ⟨_, _, impossible⟩
    · refine ⟨⟨sockId, ov', before⟩, ?_⟩
      rintro rfl
      have key : patientMode.key (.onAccepted id) = some (.attempt id) := rfl
      exact other (ok.jobs.once before outstanding key key)
    · cases impossible
  have noticing : ∀ {termId}, termId ∈ after.noticing config →
      (termId ∈ host.noticing config ∧ job ≠ .onDisconNotified termId) ∨
        ∃ id, job = .onAccepted id ∧ termId = (host.sockTbl id).term := by
    rintro termId ⟨inRange, ov', outstanding'⟩
    rcases completed.pends outstanding' with ⟨other, before⟩ | ⟨id, accepted, same⟩
    · refine .inl ⟨⟨inRange, ov', before⟩, ?_⟩
      rintro rfl
      have key : patientMode.key (.onDisconNotified termId) = some (.discon termId) := rfl
      exact other (ok.jobs.once before outstanding key key)
    · cases same
      exact .inr ⟨id, accepted, rfl⟩
  rw [Host.work, Host.work, outside]
  rcases connection with ⟨id, rfl⟩ | ⟨termId, rfl⟩
  · have ready := ok.jobs.ready outstanding
    have more : after.untold config ⊆ insert id (host.untold config) := by
      intro id' member
      by_cases same : id' = id
      · exact .inl same
      · exact .inr (untold member fun equal => same (by cases equal; rfl))
    have fewer : after.accepting config ⊆ host.accepting config \ {id} := by
      intro id' member
      rcases accepting member with ⟨before, other⟩
      exact ⟨before, fun same => other (by rw [Set.mem_singleton_iff.mp same])⟩
    have asked : after.noticing config ⊆ insert (host.sockTbl id).term (host.noticing config) := by
      intro termId member
      rcases noticing member with ⟨before, _⟩ | ⟨_, same, rfl⟩
      · exact .inr before
      · cases same
        exact .inl rfl
    have first := (Set.ncard_le_ncard more ((config.finite_sockets _).insert id)).trans
      (Set.ncard_insert_le _ _)
    have second := Set.ncard_le_ncard fewer ((config.finite_sockets _).subset Set.sdiff_subset)
    have counted := Set.ncard_sdiff_singleton_add_one (s := host.accepting config)
      ⟨ready.1, ov, outstanding⟩ (config.finite_sockets _)
    have third := (Set.ncard_le_ncard asked
      ((config.finite_terminals _).insert (host.sockTbl id).term)).trans (Set.ncard_insert_le _ _)
    omega
  · have ready := ok.jobs.ready outstanding
    have same : after.untold config ⊆ host.untold config := fun _ member => untold member (by simp)
    have fewer : after.noticing config ⊆ host.noticing config \ {termId} := by
      intro termId' member
      rcases noticing member with ⟨before, other⟩ | ⟨_, impossible, _⟩
      · exact ⟨before, fun same => other (by rw [Set.mem_singleton_iff.mp same])⟩
      · cases impossible
    have first := Set.ncard_le_ncard same (config.finite_sockets _)
    have second := Set.ncard_le_ncard fewer ((config.finite_terminals _).subset Set.sdiff_subset)
    have counted := Set.ncard_sdiff_singleton_add_one (s := host.noticing config)
      ⟨ready.1, ov, outstanding⟩ (config.finite_terminals _)
    have third := Set.ncard_le_ncard (s := after.accepting config) (t := host.accepting config)
      (fun _ member => (accepting member).1) (config.finite_sockets _)
    omega

end Work

section Runs

variable {state next : Destructor queue} {action : ClosingAction}

/-- There is an overlapped object for the notification of a disconnect, when one is asked for. -/
def Host.Ample (host : Host queue) : Prop :=
  ∀ id, host.Accepting id → queue.items host.overlapPool ≠ []

theorem Host.ample_of_operations {host after : Host queue}
    (same : after.operations = host.operations) (room : host.Ample) : after.Ample := by
  rintro id ⟨ov, outstanding⟩
  have overlapPool : after.overlapPool = host.overlapPool :=
    congrArg (fun operations => operations.2.2) same
  rw [overlapPool]
  exact room id ⟨ov, (Host.pends_of_operations same).mp outstanding⟩

/-- The library while the loop runs. -/
structure Destructor.Runs (setup : Setup) (state : Destructor queue) : Prop where
  reachable : (hostMachine queue setup).Reachable (Host.Patient setup.config) state.host
  closing : state.host.closing = true
  position : 1 ≤ state.id
  room : state.host.Ample

theorem Destructor.Runs.ok (runs : state.Runs setup) :
    ∃ listeners, HostOk setup.config patientMode listeners {} state.host :=
  hostOk_of_patient runs.reachable

/-- No connection request is ever cancelled. -/
theorem Destructor.Runs.not_orphaned (runs : state.Runs setup) (ov : ℕ) :
    ¬state.host.Orphaned ov := by
  rintro ⟨id, listener, waits, unreferenced⟩
  rcases runs.ok with ⟨listeners, ok⟩
  exact ok.refs_ne_zero waits unreferenced

/-- What an allowed step of the loop does: it visits a socket, closes it, tells it to close or
leaves it as it is, it starts again, an operation completes, or a terminal that was told to close is
closed. -/
inductive Destructor.Moves (setup : Setup) (state next : Destructor queue) :
    ClosingAction → Prop where
  | pass (sockId : setup.config.SockId state.id) (position : next.id = state.id + 1)
      (settled : (state.host.sockTbl state.id).state.closable = false)
      (same : next.host = state.host)
      (workToDo : (state.host.sockTbl state.id).state = .inpool → next.workToDo = state.workToDo) :
      Moves setup state next .visit
  | close (sockId : setup.config.SockId state.id) (position : next.id = state.id + 1)
      (idle : (state.host.sockTbl state.id).state = .disconnected ∨
        (state.host.sockTbl state.id).state = .listening)
      (closed : Host.Closed state.id state.host next.host) (workToDo : next.workToDo = true) :
      Moves setup state next .visit
  | tell (sockId : setup.config.SockId state.id) (position : next.id = state.id + 1)
      (connected : (state.host.sockTbl state.id).state = .connected)
      (tells : Host.Tells state.id state.host next.host) (workToDo : next.workToDo = true) :
      Moves setup state next .visit
  | again (beyond : 2 * setup.config.maxConnection < state.id) (workToDo : state.workToDo = true)
      (same : next = { state with id := 1, workToDo := false }) : Moves setup state next .visit
  | complete (ov : ℕ) (hr : HRESULT) (replies : Replies) (job : AsyncJob)
      (outstanding : state.host.Pends ov job)
      (connection : (∃ id, job = .onAccepted id) ∨ ∃ termId, job = .onDisconNotified termId)
      (completed : Host.Completed ov job state.host next.host)
      (position : next.id = state.id) (workToDo : next.workToDo = state.workToDo) :
      Moves setup state next (.complete ov hr replies)
  | closeTerminal (id termId : ℕ) (notices : List StatusCode) (sockId : setup.config.SockId id)
      (term : (state.host.sockTbl id).term = termId) (told : state.host.Told termId)
      (inRange : setup.config.TermId termId) (closed : Host.Closed id state.host next.host)
      (position : next.id = state.id) (workToDo : next.workToDo = state.workToDo) :
      Moves setup state next (.closeTerminal termId notices)

/-- A step of the library while the loop runs succeeds if it only stops for reasons that the
invariant excludes. -/
theorem Destructor.Runs.hostStep (runs : state.Runs setup) (hostAction : HostAction)
    {post : Host queue → Prop} (patient : Host.Patient setup.config state.host hostAction)
    (performs : Ensures (Host.perform setup.config hostAction) (fun _ => post)
      (Stop.Unexpected setup.config) state.host) :
    ∃ host, Host.step setup.config state.host hostAction = .ok host ∧ post host ∧
      (hostMachine queue setup).Reachable (Host.Patient setup.config) host := by
  rcases runs.ok with ⟨listeners, ok⟩
  cases performed : Host.perform setup.config hostAction state.host with
  | error stop =>
      have expected := (Host.perform_ensures ok patient.admits).of_error performed
      exact absurd expected (performs.of_error performed)
  | ok pair =>
      have stepped : Host.step setup.config state.host hostAction = .ok pair.2 :=
        Host.step_eq_ok.mpr ⟨pair.1, performed⟩
      exact ⟨pair.2, stepped, performs.of_ok performed, runs.reachable.tail patient stepped⟩

/-- An operation of a connection completes. -/
theorem Destructor.Runs.completes (runs : state.Runs setup) {ov : ℕ} {hr : HRESULT}
    {replies : Replies} {job : AsyncJob} (outstanding : state.host.Pends ov job)
    (connection : (∃ id, job = .onAccepted id) ∨ ∃ termId, job = .onDisconNotified termId)
    (performs : Ensures (Host.run setup.config ov hr replies)
      (fun _ after => Host.Completed ov job state.host after) (Stop.Unexpected setup.config)
      state.host) :
    ∃ next, (closingMachine queue setup).step state (.complete ov hr replies) = .ok next ∧
      Destructor.Moves setup state next (.complete ov hr replies) ∧ next.Runs setup := by
  rcases runs.hostStep (.complete ov hr replies) trivial performs with
    ⟨host, stepped, completed, reachable⟩
  refine ⟨{ state with host }, ?_, .complete ov hr replies job outstanding connection completed rfl
    rfl, reachable, completed.closing.trans runs.closing, runs.position, fun _ _ => completed.room⟩
  simp only [closingMachine, Destructor.step, stepped]
  rfl

/-- Every allowed step succeeds, and is one of these. -/
theorem Destructor.Runs.moves (runs : state.Runs setup)
    (allowed : state.Allowed setup.config action) :
    ∃ next, (closingMachine queue setup).step state action = .ok next ∧
      Destructor.Moves setup state next action ∧ next.Runs setup := by
  rcases runs.ok with ⟨listeners, ok⟩
  cases action with
  | visit =>
      by_cases inside : state.id ≤ queue.getCapacity state.host.sockPool
      · have sockId : setup.config.SockId state.id := ⟨runs.position, ok.sockCapacity ▸ inside⟩
        rcases runs.hostStep (.destroySocket state.id) trivial
          (Host.visit_ensures ok runs.closing sockId) with
          ⟨host, stepped, visited, reachable⟩
        have returned : (closingMachine queue setup).step state .visit = .ok
            { host
              id := state.id + 1
              workToDo := state.workToDo ||
                decide ((state.host.sockTbl state.id).state ≠ .inpool) } := by
          simp only [closingMachine, Destructor.step, if_pos inside, stepped]
          rfl
        refine ⟨_, returned, ?_⟩
        rcases visited with ⟨idle, closed⟩ | ⟨connected, tells⟩ | ⟨settled, rfl⟩
        · refine ⟨.close sockId rfl idle closed ?_, reachable, ?_, by simp,
            Host.ample_of_operations closed.operations runs.room⟩
          · rcases idle with idle | idle <;> simp [idle]
          · exact closed.closing.trans runs.closing
        · refine ⟨.tell sockId rfl connected tells (by simp [connected]), reachable, ?_, by simp,
            Host.ample_of_operations tells.operations runs.room⟩
          rcases tells with ⟨_, _, rfl⟩
          exact runs.closing
        · refine ⟨.pass sockId rfl settled rfl ?_, reachable, runs.closing, by simp, runs.room⟩
          intro inpool
          simp [inpool]
      · have workToDo : state.workToDo = true := by
          by_contra none
          exact allowed.1 ⟨not_le.mp inside, by simpa using none⟩
        have returned : (closingMachine queue setup).step state .visit = .ok
            { state with id := 1, workToDo := false } := by
          simp only [closingMachine, Destructor.step, if_neg inside, workToDo]
          rfl
        refine ⟨_, returned, .again ?_ workToDo rfl, runs.reachable,
          runs.closing, le_rfl, runs.room⟩
        rw [← ok.sockCapacity]
        exact not_le.mp inside
  | complete ov hr replies =>
      rcases allowed with ⟨orphaned, _⟩ | ⟨final, ⟨⟨id, outstanding⟩, home⟩ | ⟨termId, outstanding⟩⟩
      · exact absurd orphaned (runs.not_orphaned ov)
      · exact runs.completes outstanding (.inl ⟨id, rfl⟩) (Host.completeAccepted_ensures ok
          outstanding final (runs.room id ⟨ov, outstanding⟩) home)
      · exact runs.completes outstanding (.inr ⟨termId, rfl⟩)
          (Host.completeDisconnect_ensures ok outstanding final)
  | closeTerminal termId notices =>
      rcases allowed with ⟨inRange, told, finished⟩
      have begun : (state.host.connections termId).pDisconnectCont ≠ none := by
        rcases told with ⟨continuation, _, holds, _⟩
        simp [holds]
      rcases runs.hostStep (.closeTerminal termId notices) ⟨inRange, finished⟩
        (Host.closeStarted_ensures ok rfl inRange begun (fun _ => finished) notices) with
        ⟨host, stepped, ⟨_, id, sockId, term, closed⟩, reachable⟩
      have returned : (closingMachine queue setup).step state (.closeTerminal termId notices) = .ok
          { state with host } := by
        simp only [closingMachine, Destructor.step, stepped]
        rfl
      refine ⟨_, returned, .closeTerminal id termId notices sockId term told inRange closed rfl rfl,
        reachable, ?_, runs.position, Host.ample_of_operations closed.operations runs.room⟩
      exact closed.closing.trans runs.closing

end Runs

section Ending

variable {state next : Destructor queue} {action : ClosingAction} {host : Host queue}

/-- The socket is in the pool or will get there. -/
def Host.Leaves (host : Host queue) (id : ℕ) : Prop :=
  ((host.sockTbl id).state = .inpool ∨ (host.sockTbl id).state.closable = true) ∨
    host.Told (host.sockTbl id).term ∨ host.Accepting id

/-- The loop is on its way to the end. -/
structure Destructor.Ending (setup : Setup) (state : Destructor queue) : Prop
    extends state.Runs setup where
  leaves : ∀ id, setup.config.SockId id → state.host.Leaves id
  bounded : state.id ≤ 2 * setup.config.maxConnection + 1
  swept : state.workToDo = false → ∀ id, setup.config.SockId id → id < state.id →
    (state.host.sockTbl id).state = .inpool

/-- How much the loop still has to do: first the work and whether the loop will start again, then
the rest of the table. -/
noncomputable def Destructor.rank (config : HostConfig) (state : Destructor queue) : ℕ :=
  (state.host.work config + state.workToDo.toNat) * (2 * config.maxConnection + 2) +
    (2 * config.maxConnection + 1 - state.id)

theorem rank_lt {size before after rest rest' : ℕ} (smaller : after < before)
    (small : rest' < size) : after * size + rest' < before * size + rest := by
  have stepped : (after + 1) * size ≤ before * size := Nat.mul_le_mul_right size smaller
  rw [Nat.add_one_mul] at stepped
  omega

/-- When there is less work there is less to do, wherever the loop is. -/
theorem Destructor.rank_lt
    (less : next.host.work config + next.workToDo.toNat <
      state.host.work config + state.workToDo.toNat) :
    next.rank config < state.rank config := by
  apply Hermes.rank_lt less
  omega

/-- A socket that has a terminal has one in range. -/
theorem Host.termId_of_unclosable {id : ℕ} (ok : HostOk config patientMode listeners {} host)
    (sockId : config.SockId id) (active : (host.sockTbl id).state ≠ .inpool)
    (settled : (host.sockTbl id).state.closable = false) :
    config.TermId (host.sockTbl id).term := by
  have fits := ok.slots.sockets id (.of_none sockId rfl)
  cases state : (host.sockTbl id).state
  case inpool => exact absurd state active
  case disconnected | listening | connected =>
    rw [state] at settled
    cases settled
  case startToListen | stopping => simp [SocketOk, state] at fits
  case accept1 => simp only [SocketOk, state] at fits; exact fits.term
  all_goals simp only [SocketOk, state] at fits; exact fits.1.term

theorem Host.Closed.leaves {id id' : ℕ} {after : Host queue} (closed : Host.Closed id host after)
    (ok : HostOk config patientMode listeners {} host) (sockId : config.SockId id)
    (sockId' : config.SockId id') (leaves : host.Leaves id') : after.Leaves id' := by
  by_cases same : id' = id
  · rw [same]
    exact .inl (.inl closed.inpool)
  rw [Host.Leaves, closed.others id' same]
  by_cases settled : (host.sockTbl id').state = .inpool ∨ (host.sockTbl id').state.closable = true
  · exact .inl settled
  refine .inr ((leaves.resolve_left settled).imp ?_ ?_)
  · have settled := not_or.mp settled
    have inRange := Host.termId_of_unclosable ok sockId' settled.1 (by simpa using settled.2)
    exact (closed.told_iff (Host.term_ne ok sockId sockId' same inRange.ne)).mpr
  · exact fun ⟨ov, outstanding⟩ =>
      ⟨ov, (Host.pends_of_operations closed.operations).mpr outstanding⟩

theorem Host.Completed.leaves {ov id : ℕ} {job : AsyncJob} {after : Host queue}
    (completed : Host.Completed ov job host after) (outstanding : host.Pends ov job)
    (leaves : host.Leaves id) : after.Leaves id := by
  have moved := completed.toMoved
  by_cases accepted : job = .onAccepted id
  · cases accepted
    rcases moved.ends with ⟨id', same, connected⟩ | told
    · cases same
      exact .inl (.inr (by rw [connected]; rfl))
    · exact .inr (.inl (by rw [moved.term]; exact told))
  have same : (after.sockTbl id).state = (host.sockTbl id).state :=
    (moved.state id).resolve_right fun gone => accepted gone.1
  rw [Host.Leaves, same, moved.term]
  refine leaves.imp_right fun rest => rest.imp (fun told => moved.told told) ?_
  rintro ⟨ov', waits⟩
  refine ⟨ov', completed.kept waits ?_⟩
  rintro rfl
  have other := outstanding.2.symm.trans waits.2
  cases other
  exact accepted rfl

/-- There is a step to make until the loop has ended. -/
theorem Destructor.Ending.moves (ending : state.Ending setup) :
    state.Done setup.config ∨ ∃ action, state.Allowed setup.config action := by
  rcases ending.ok with ⟨listeners, ok⟩
  by_cases ended : state.Over
  · refine .inl ⟨ended, fun id sockId => ending.swept ended.2 id sockId ?_⟩
    have beyond := ended.1
    rw [ok.sockCapacity] at beyond
    exact Nat.lt_of_le_of_lt sockId.2 beyond
  right
  have accepts : ∀ {id}, state.host.Accepting id → ∃ action, state.Allowed setup.config action :=
    fun ⟨ov, outstanding⟩ => ⟨.complete ov hOk { localIp := setup.config.homeIp },
      .inr ⟨by decide, .inl ⟨⟨_, outstanding⟩, rfl⟩⟩⟩
  by_cases due : state.host.Due setup.config
  · rcases due with ⟨ov, orphaned⟩ | ⟨id, accepting⟩ | ⟨termId, inRange, told⟩
    · exact absurd orphaned (ending.not_orphaned ov)
    · exact accepts accepting
    · by_cases finished : state.host.Finished termId
      · exact ⟨.closeTerminal termId [], inRange, told, finished⟩
      simp only [Host.Finished, not_forall, not_and, ne_eq, not_not] at finished
      rcases finished with ⟨ov, job, outstanding, other⟩
      by_cases noticing : job = .onDisconNotified termId
      · rw [noticing] at outstanding
        exact ⟨.complete ov hOk {}, .inr ⟨by decide, .inr ⟨termId, outstanding⟩⟩⟩
      · rcases other noticing with ⟨id, rfl, _⟩
        exact accepts ⟨ov, outstanding⟩
  · exact ⟨.visit, ended, due⟩

/-- A socket the loop can do nothing about is in the pool. -/
theorem Destructor.Ending.inpool (ending : state.Ending setup)
    (allowed : state.Allowed setup.config .visit) {id : ℕ} (sockId : setup.config.SockId id)
    (settled : (state.host.sockTbl id).state.closable = false) :
    (state.host.sockTbl id).state = .inpool := by
  rcases ending.ok with ⟨listeners, ok⟩
  by_contra active
  rcases ending.leaves id sockId with (inpool | closable) | told | accepting
  · exact active inpool
  · rw [settled] at closable
    cases closable
  · exact allowed.2 (.inr (.inr ⟨_, Host.termId_of_unclosable ok sockId active settled, told⟩))
  · exact allowed.2 (.inr (.inl ⟨id, accepting⟩))

/-- Every allowed step leaves less to do. -/
theorem Destructor.Ending.goes (ending : state.Ending setup)
    (allowed : state.Allowed setup.config action) :
    ∃ next, (closingMachine queue setup).step state action = .ok next ∧
      next.Ending setup ∧ next.rank setup.config < state.rank setup.config := by
  rcases ending.ok with ⟨listeners, ok⟩
  rcases ending.toRuns.moves allowed with ⟨next, stepped, moved, runs⟩
  have flag := Bool.toNat_le next.workToDo
  refine ⟨next, stepped, ?_⟩
  cases moved with
  | pass sockId position settled same workToDo =>
      have inpool := ending.inpool allowed sockId settled
      have unchanged := workToDo inpool
      have inside := sockId.2
      refine ⟨⟨runs, same ▸ ending.leaves, by omega, ?_⟩, ?_⟩
      · intro none id sockId' below
        rw [same]
        rcases Nat.lt_or_eq_of_le (Nat.le_of_lt_succ (position ▸ below)) with before | here
        · exact ending.swept (unchanged ▸ none) id sockId' before
        · rw [here]
          exact inpool
      · simp only [Destructor.rank, same, unchanged, position]
        omega
  | close sockId position idle closed workToDo =>
      have active : (state.host.sockTbl state.id).state ≠ .inpool := by
        rcases idle with idle | idle <;> simp [idle]
      have inside := sockId.2
      refine ⟨⟨runs, ?_, by omega, by simp [workToDo]⟩, ?_⟩
      · exact fun id sockId' => closed.leaves ok sockId sockId' (ending.leaves id sockId')
      · have less := closed.work_lt ok sockId active
        exact Destructor.rank_lt (by omega)
  | tell sockId position connected tells workToDo =>
      have inside := sockId.2
      have notTold : ¬state.host.Told (state.host.sockTbl state.id).term := by
        have fits := ok.slots.sockets state.id (.of_none sockId rfl)
        simp only [SocketOk, connected] at fits
        exact fun told => allowed.2 (.inr (.inr ⟨_, fits.1.term, told⟩))
      have less := tells.work_lt sockId connected notTold
      refine ⟨⟨runs, ?_, by omega, by simp [workToDo]⟩,
        Destructor.rank_lt (by omega)⟩
      intro id sockId'
      rcases tells with ⟨continuation, holds, after⟩
      rw [after]
      refine (ending.leaves id sockId').imp_right fun rest => rest.imp_left ?_
      rintro ⟨continuation', err, holds', posted⟩
      exact ⟨continuation', err, holds', List.mem_append_left _ posted⟩
  | again beyond workToDo same =>
      subst same
      refine ⟨⟨runs, ending.leaves, by simp, ?_⟩, ?_⟩
      · intro _ id sockId below
        exact absurd sockId.1 (by simpa using below)
      · exact Destructor.rank_lt (by simp [workToDo])
  | complete ov hr replies job outstanding connection completed position workToDo =>
      have less := completed.work_lt ok outstanding connection
      refine ⟨⟨runs, ?_, position ▸ ending.bounded, ?_⟩,
        Destructor.rank_lt (by rw [workToDo]; omega)⟩
      · exact fun id sockId => completed.leaves outstanding (ending.leaves id sockId)
      · intro none id sockId below
        rw [completed.inpool_iff]
        exact ending.swept (workToDo ▸ none) id sockId (position ▸ below)
  | closeTerminal id termId notices sockId term told inRange closed position workToDo =>
      have active : (state.host.sockTbl id).state ≠ .inpool := by
        intro inpool
        have fits := ok.slots.sockets id (.of_none sockId rfl)
        exact inRange.ne (term ▸ (fits.unowned inpool).1)
      have less := closed.work_lt ok sockId active
      refine ⟨⟨runs, ?_, position ▸ ending.bounded, ?_⟩,
        Destructor.rank_lt (by rw [workToDo]; omega)⟩
      · exact fun id sockId' => closed.leaves ok sockId sockId' (ending.leaves id sockId')
      · intro none id' sockId' below
        by_cases same : id' = id
        · rw [same]
          exact closed.inpool
        · rw [closed.others id' same]
          exact ending.swept (workToDo ▸ none) id' sockId' (position ▸ below)

end Ending

section Stuck

variable {state next : Destructor queue} {action : ClosingAction} {host : Host queue}

/-- The loop has met a socket it will never close. -/
structure Destructor.Stuck (setup : Setup) (id : ℕ) (state : Destructor queue) : Prop
    extends state.Runs setup where
  sockId : setup.config.SockId id
  accepting : (state.host.sockTbl id).state = .accept1
  notTold : ¬state.host.Told (state.host.sockTbl id).term
  notAccepting : ¬state.host.Accepting id

theorem Destructor.Stuck.owns {id : ℕ} (stuck : state.Stuck setup id)
    (ok : HostOk setup.config patientMode listeners {} state.host) :
    setup.config.TermId (state.host.sockTbl id).term :=
  Host.termId_of_unclosable ok stuck.sockId (by rw [stuck.accepting]; simp)
    (by rw [stuck.accepting]; rfl)

theorem Destructor.Stuck.of_closed {id id' : ℕ} (stuck : state.Stuck setup id)
    (runs : next.Runs setup) (closed : Host.Closed id' state.host next.host)
    (sockId : setup.config.SockId id') (other : id ≠ id') : next.Stuck setup id := by
  rcases stuck.ok with ⟨listeners, ok⟩
  have same := closed.others id other
  have apart := Host.term_ne ok sockId stuck.sockId other (stuck.owns ok).ne
  refine ⟨runs, stuck.sockId, same ▸ stuck.accepting, ?_, ?_⟩
  · rw [same, closed.told_iff apart]
    exact stuck.notTold
  · rintro ⟨ov, outstanding⟩
    exact stuck.notAccepting ⟨ov, (Host.pends_of_operations closed.operations).mp outstanding⟩

/-- Another terminal's continuation is posted. -/
theorem Destructor.Stuck.notTold_of_posted {id termId : ℕ} {after : Host queue}
    (stuck : state.Stuck setup id) (inRange : setup.config.TermId termId)
    (other : termId ≠ (state.host.sockTbl id).term)
    (continuations : ∀ conId, (after.connections conId).pDisconnectCont =
      (state.host.connections conId).pDisconnectCont)
    (posted : ∀ entry ∈ after.posts, entry ∈ state.host.posts ∨
      (state.host.connections termId).pDisconnectCont = some entry.1) :
    ¬after.Told (state.host.sockTbl id).term := by
  rcases stuck.ok with ⟨listeners, ok⟩
  rintro ⟨continuation, err, holds, member⟩
  rw [continuations] at holds
  rcases posted _ member with old | new
  · exact stuck.notTold ⟨continuation, err, holds, old⟩
  · exact other (ok.continuations.once inRange (stuck.owns ok) new holds)

/-- An allowed step leaves the socket as it is. -/
theorem Destructor.Stuck.kept {id : ℕ} (stuck : state.Stuck setup id)
    (allowed : state.Allowed setup.config action)
    (stepped : (closingMachine queue setup).step state action = .ok next) :
    next.Stuck setup id := by
  rcases stuck.ok with ⟨listeners, ok⟩
  rcases stuck.toRuns.moves allowed with ⟨next', stepped', moved, runs⟩
  cases stepped.symm.trans stepped'
  cases moved with
  | pass _ _ _ same _ =>
      exact ⟨runs, stuck.sockId, same ▸ stuck.accepting, same ▸ stuck.notTold,
        same ▸ stuck.notAccepting⟩
  | close sockId _ idle closed _ =>
      apply stuck.of_closed runs closed sockId
      intro same
      rw [← same, stuck.accepting] at idle
      simp at idle
  | tell sockId _ connected tells _ =>
      have other : id ≠ state.id := by
        intro same
        rw [← same, stuck.accepting] at connected
        cases connected
      have fits := ok.slots.sockets state.id (.of_none sockId rfl)
      simp only [SocketOk, connected] at fits
      have apart := Host.term_ne ok stuck.sockId sockId other.symm fits.1.term.ne
      rcases tells with ⟨continuation, holds, after⟩
      refine ⟨runs, stuck.sockId, by rw [after]; exact stuck.accepting, ?_,
        by rw [after]; exact stuck.notAccepting⟩
      rw [after]
      refine stuck.notTold_of_posted fits.1.term apart (fun _ => rfl) ?_
      intro entry member
      refine (List.mem_append.mp member).imp_right fun new => ?_
      rw [List.mem_singleton.mp new]
      exact holds
  | again _ _ same =>
      subst same
      exact ⟨runs, stuck.sockId, stuck.accepting, stuck.notTold, stuck.notAccepting⟩
  | complete ov hr replies job outstanding connection completed _ _ =>
      have moved := completed.toMoved
      have other : job ≠ .onAccepted id := by
        rintro rfl
        exact stuck.notAccepting ⟨ov, outstanding⟩
      have same : (next.host.sockTbl id).state = (state.host.sockTbl id).state :=
        (moved.state id).resolve_right fun gone => other gone.1
      have ready := ok.jobs.ready outstanding
      -- The operation belongs to the connection of another socket.
      have served : setup.config.TermId (state.host.served job) ∧
          state.host.served job ≠ (state.host.sockTbl id).term := by
        rcases connection with ⟨id', rfl⟩ | ⟨termId, rfl⟩
        · rcases ready.2 rfl with ⟨settled, accepting, _⟩
          have attempting : (state.host.sockTbl id').state.attempting = true := by
            rcases accepting with accepting | accepting <;> rw [accepting, SocketState.attempting]
          have owns := (ok.slots.sockets id' settled).attempts attempting
          have apart : id' ≠ id := fun equal => other (by rw [equal])
          exact ⟨owns.term, Host.term_ne ok stuck.sockId settled.1 apart owns.term.ne⟩
        · refine ⟨ready.1, fun own => ?_⟩
          have ended := (ready.2 rfl).2 id (.of_none stuck.sockId rfl) own.symm
          rw [stuck.accepting] at ended
          cases ended
      refine ⟨runs, stuck.sockId, same ▸ stuck.accepting, ?_, ?_⟩
      · rw [moved.term]
        exact stuck.notTold_of_posted served.1 served.2 moved.continuations moved.posted
      · rintro ⟨ov', outstanding'⟩
        rcases completed.pends outstanding' with ⟨_, before⟩ | ⟨_, _, impossible⟩
        · exact stuck.notAccepting ⟨ov', before⟩
        · cases impossible
  | closeTerminal id' termId notices sockId term told _ closed _ _ =>
      apply stuck.of_closed runs closed sockId
      intro same
      rw [← term, ← same] at told
      exact stuck.notTold told

end Stuck

end Hermes
