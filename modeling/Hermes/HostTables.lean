import Hermes.HostRun

/-!
# The tables in every run

What the invariant says of the two tables and the two pools between two steps, and of
the calls that fail.
-/

namespace Hermes

open Program

variable {queue : CircularQue ℕ} {config : HostConfig} {mode : Mode} {listeners : List ℕ}
  {host : Host queue} {setup : Setup} {action : HostAction}

section Tables

/-- Every step but those of `TerminalCloser`. -/
def HostAction.Plain : HostAction → Prop
  | .closeTerminal _ _ => False
  | _ => True

/-- Runs without `TerminalCloser`, with any provider results. -/
def plainMode : Mode := { closers := false, strict := false, exact := false }

/-- Runs with any steps and any provider results. -/
def openMode : Mode := { closers := true, strict := false, exact := false }

theorem HostAction.Plain.admits (plain : action.Plain) :
    Host.Admits config plainMode host action := by
  cases action
  case accept => exact ⟨nofun, nofun⟩
  case connect => exact nofun
  case closeTerminal => exact absurd plain id
  all_goals exact trivial

theorem Host.admits_openMode : Host.Admits config openMode host action := by
  cases action
  case accept => exact ⟨nofun, nofun⟩
  case connect => exact nofun
  case closeTerminal => exact ⟨rfl, nofun⟩
  all_goals exact trivial

/-- The states in which a socket has no terminal. -/
def SocketState.idle : SocketState → Bool
  | inpool | disconnected | listening => true
  | _ => false

/-- The states in which a socket has a terminal. -/
def SocketState.active : SocketState → Bool
  | accept1 | connecting | connAck | connAgreed | connected => true
  | _ => false

/-- The tables and the pools agree between two steps. -/
structure TablesAgree (config : HostConfig) (host : Host queue) : Prop where
  sockPool : ∀ id, config.SockId id → (queue.items host.sockPool).count id =
    if (host.sockTbl id).state = .inpool then 1 else 0
  connPool : ∀ conId, config.TermId conId →
    ((queue.items host.connPool).count conId = 1 ↔
      ¬∃ id, config.SockId id ∧ (host.sockTbl id).term = conId) ∧
    ((queue.items host.connPool).count conId = 0 ↔
      ∃ id, config.SockId id ∧ (host.sockTbl id).term = conId)
  ids : (∀ id ∈ queue.items host.sockPool, config.SockId id) ∧
    ∀ conId ∈ queue.items host.connPool, config.TermId conId
  once : ∀ id id', config.SockId id → config.SockId id' →
    (host.sockTbl id).term ≠ invalidTermId → (host.sockTbl id).term = (host.sockTbl id').term →
      id = id'
  edges : ∀ conId, config.TermId conId →
    ((host.connections conId).rcvEnd.trailingEdge = 0 ∧
      (host.connections conId).sndEnd.trailingEdge = 0 ↔ conId ∈ queue.items host.connPool)
  states : ∀ id, config.SockId id →
    (host.sockTbl id).state.idle = true ∧ (host.sockTbl id).term = invalidTermId ∨
    (host.sockTbl id).state.active = true ∧ config.TermId (host.sockTbl id).term ∧
      (host.connections (host.sockTbl id).term).handle = (host.sockTbl id).handle
  listens : ∀ id, config.SockId id →
    ((host.sockTbl id).pListen ≠ none ↔ (host.sockTbl id).state = .listening)
  handles : ∀ id, config.SockId id → handleToId (host.sockTbl id).handle = id

theorem SocketOk.parts {sock : HSocket} {terminal : Terminal} (ok : SocketOk config sock terminal) :
    (sock.state.idle = true ∧ sock.term = invalidTermId ∨
      sock.state.active = true ∧ Owns config sock terminal) ∧
    (sock.pListen ≠ none ↔ sock.state = .listening) := by
  cases state : sock.state
  all_goals simp only [SocketOk, state] at ok
  case inpool | disconnected => exact ⟨.inl ⟨rfl, ok.1⟩, fun some => absurd ok.2 some, by simp⟩
  case listening => exact ⟨.inl ⟨rfl, ok.1⟩, fun _ => rfl, fun _ => ok.2⟩
  case accept1 => exact ⟨.inr ⟨rfl, ok⟩, fun some => absurd ok.listen some, by simp⟩
  case connecting | connAck | connAgreed | connected =>
    exact ⟨.inr ⟨rfl, ok.1⟩, fun some => absurd ok.1.listen some, by simp⟩

theorem HostOk.tablesAgree (ok : HostOk config mode listeners {} host) :
    TablesAgree config host := by
  have settled : ∀ {id}, config.SockId id → Hand.Settled config {} id :=
    fun sockId => .of_none sockId rfl
  have parts := fun {id} (sockId : config.SockId id) =>
    (ok.slots.sockets id (settled sockId)).parts
  have pooledIff : ∀ {conId}, config.TermId conId → (conId ∈ queue.items host.connPool ↔
      ¬∃ id, config.SockId id ∧ (host.sockTbl id).term = conId) := by
    intro conId inRange
    constructor
    · rintro member ⟨id, sockId, owned⟩
      have owner : (host.sockTbl id).term ≠ invalidTermId := by rw [owned]; exact inRange.ne
      exact (ok.slots.owned id (settled sockId) owner).1 (by rwa [owned])
    · intro unowned
      by_contra outside
      rcases ok.slots.owner conId inRange outside nofun with ⟨id, settled, owned⟩
      exact unowned ⟨id, settled.1, owned⟩
  constructor
  case sockPool =>
    intro id sockId
    rw [ok.slots.sockNodup.count]
    simp only [ok.slots.pooled id (settled sockId)]
  case connPool =>
    intro conId inRange
    rw [ok.slots.connNodup.count]
    have iff := pooledIff inRange
    by_cases member : conId ∈ queue.items host.connPool
    · rw [if_pos member]
      exact ⟨iff_of_true rfl (iff.mp member), iff_of_false nofun (iff.mp member)⟩
    · rw [if_neg member]
      have owned := not_not.mp fun unowned => member (iff.mpr unowned)
      exact ⟨iff_of_false nofun (not_not.mpr owned), iff_of_true rfl owned⟩
  case ids => exact ⟨ok.slots.sockIds, ok.slots.connIds⟩
  case once =>
    exact fun id id' sockId sockId' => ok.slots.ownedOnce id id' (settled sockId) (settled sockId')
  case edges =>
    intro conId inRange
    constructor
    · rintro ⟨zero, _⟩
      by_contra outside
      rcases ok.slots.owner conId inRange outside nofun with ⟨id, settled, owned⟩
      have owner : (host.sockTbl id).term ≠ invalidTermId := by rw [owned]; exact inRange.ne
      have owns := (ok.slots.sockets id settled).owns owner
      rw [owned] at owns
      exact owns.edges.1 zero
    · intro member
      have void := ok.slots.void conId member
      exact ⟨(congrArg (·.rcvEnd.trailingEdge) void).symm,
        (congrArg (·.sndEnd.trailingEdge) void).symm⟩
  case states =>
    intro id sockId
    rcases (parts sockId).1 with idle | ⟨active, owns⟩
    · exact .inl idle
    · exact .inr ⟨active, owns.term, owns.handle⟩
  case listens => exact fun id sockId => (parts sockId).2
  case handles => exact fun id sockId => Host.handleToId_sock ok sockId

/-- The assertions about the tables and the pools. -/
def tableChecks : List String :=
  ["Socket state changed while in socket pool!", "Socket state not cleared.",
    "Lower 32b of handle should be the index", "Double free of socket",
    "Unexpected sock pool overflow during deallocation", "Invalid Connection Id",
    "Invalid connection state from connection pool", "ND resources leaking detected!",
    "Double free to connection pool", "Connection pool internal error.",
    "Double allocation of connection block.", "Connected socket should have a terminal.",
    "Listener expected from a listening socket.", "Mismatched handle value found.",
    "Unexpect race condition detected in Listen.", "Race condition in OnConnAccepted",
    "Unexpected state found in connection sock while querying connection req.",
    "Unexpected socket state detected when complete connect.",
    "Unexpected state found when accepting connections",
    "Terminal not started when connection is ready."]

/-- In every run the tables and the pools agree, and no assertion about them fails. -/
theorem tables_agree (queue : CircularQue ℕ) (setup : Setup) {host : Host queue}
    (reachable : (hostMachine queue setup).Reachable (fun _ action => action.Plain) host) :
    TablesAgree setup.config host ∧
      ∀ action, action.Plain → ∀ text ∈ tableChecks,
        Host.step setup.config host action ≠ .error (.abort (.assert text)) := by
  have admitted : (hostMachine queue setup).Reachable (Host.Admits setup.config plainMode) host :=
    reachable.mono HostAction.Plain.admits
  rcases hostOk_of_reachable admitted with ⟨listeners, ok⟩
  refine ⟨ok.tablesAgree, ?_⟩
  intro action plain text member stopped
  rcases tolerates_of_stop admitted plain.admits stopped with
    excused | ⟨_, excused⟩ | ⟨_, excused⟩ | ⟨closers, _⟩
  · exact (by decide : ∀ text ∈ tableChecks, text ∉ _) text member excused
  · exact (by decide : ∀ text ∈ tableChecks, text ∉ duplicateInit) text member excused
  · exact (by decide : ∀ text ∈ tableChecks, text ≠ "Resource pool empty!") text member excused
  · cases closers

/-- A socket that listens and an accept that waits. -/
theorem tables_agree_pending_accept :
    ∃ host : Host (boundedQueue ℕ), TablesAgree (sampleSetup 8192 1).config host ∧
      (host.sockTbl 1).state = .listening ∧ (host.sockTbl 2).state = .accept1 := by
  have plain : ∀ action ∈ sampleListen ++ [.accept sampleHandle 5 6 {}], action.Plain := by
    simp [sampleListen, HostAction.Plain]
  have passes : (sampleRun (sampleListen ++ [.accept sampleHandle 5 6 {}])).toOption.any
      (fun host => (host.sockTbl 1).state = .listening ∧ (host.sockTbl 2).state = .accept1) =
        true := by decide +kernel
  rcases sampleRun_reaches (fun _ => plain) passes with ⟨host, reachable, states⟩
  exact ⟨host, (tables_agree _ _ reachable).1, by simpa using states⟩

end Tables

section Exhausted

/-- The socket table and the contents of both pools are the same. -/
def Host.SameTables (before after : Host queue) : Prop :=
  after.sockTbl = before.sockTbl ∧ queue.items after.sockPool = queue.items before.sockPool ∧
    queue.items after.connPool = queue.items before.connPool

/-- A call returned an error and left the tables as they were. -/
def Host.Refused (before : Host queue) (call : Code queue StatusCode) : Prop :=
  ∃ status after, call before = .ok (status, after) ∧ status ≠ hOk ∧ before.SameTables after

namespace Host

theorem ensures_allocTerminal_exhausted {Result : Type} {next : StatusCode × ℕ → Code queue Result}
    {post : Result → Host queue → Prop} {fault : Stop → Prop} {parent : UInt64} {replies : Replies}
    (exhausted : queue.items host.connPool = [])
    (stops : fault (.abort (.assert "Exhausted connection!"))) :
    Ensures (allocTerminal config parent replies >>= next) post fault host := by
  have stopped : allocTerminal config parent replies host =
      .error (.abort (.assert "Exhausted connection!")) := by
    rw [allocTerminal, apply_bind apply_get, queue.get_nil exhausted]
    rfl
  rw [Ensures, apply_bind_error stopped]
  exact stops

variable {handle : UInt64} {pSock : ℕ}

/-- `Accept` without a free terminal. -/
theorem accept_exhausted (ok : HostOk config mode listeners {} host)
    (exhausted : queue.items host.connPool = []) (found : host.findSocket handle = some pSock)
    (listening : (host.sockTbl pSock).state = .listening) (connectCallback rcvCallback : ℕ)
    (replies : Replies) :
    Ensures (accept config handle connectCallback rcvCallback replies)
      (fun status after => (host.closing = true ∨ queue.items host.sockPool = []) ∧
        status ≠ hOk ∧ after = host)
      (fun stop => ¬(host.closing = true ∨ queue.items host.sockPool = []) ∧
        stop = .abort (.assert "Exhausted connection!")) host := by
  have sockId := (findSocket_some ok found).1
  have fits := ok.slots.sockets pSock (.of_none sockId rfl)
  simp only [SocketOk, listening] at fits
  rcases Option.ne_none_iff_exists'.mp fits.2 with ⟨listener, holds⟩
  unfold accept
  refine .step apply_get ?_
  rw [found]
  dsimp only
  by_cases closing : host.closing = true
  · rw [if_pos (.inl closing)]
    exact ⟨.inl closing, by decide, rfl⟩
  rw [if_neg (by simp [closing, listening])]
  refine (allocateSocket_ensures ok rfl).bind ?_
  rintro result after (⟨empty, rfl, rfl⟩ |
    ⟨id, sockPool, rfl, taken, sockId', inpool, term, noListen, rfl, takenOk⟩)
  · exact ⟨.inr empty, by decide, rfl⟩
  · have other : pSock ≠ id := by
      rintro rfl
      rw [listening] at inpool
      cases inpool
    refine .step rfl (.step apply_get ?_)
    simp only [Function.update_idem, Function.update_self, Function.update_of_ne other, holds]
    refine .step rfl (.step (audit_eq (by simpa using term)) ?_)
    refine ensures_allocTerminal_exhausted exhausted ⟨?_, rfl⟩
    rintro (closes | empty)
    · exact closing closes
    · rw [(queue.items_of_get taken).1] at empty
      cases empty

/-- `Connect` without a free terminal. -/
theorem connect_exhausted (ok : HostOk config mode listeners {} host)
    (exhausted : queue.items host.connPool = []) (found : host.findSocket handle = some pSock)
    (disconnected : (host.sockTbl pSock).state = .disconnected) (connectCallback rcvCallback : ℕ)
    (replies : Replies) :
    Ensures (connect config handle connectCallback rcvCallback replies)
      (fun status after => host.closing = true ∧ status ≠ hOk ∧ after = host)
      (fun stop => host.closing = false ∧ stop = .abort (.assert "Exhausted connection!"))
      host := by
  have sockId := (findSocket_some ok found).1
  have fits := ok.slots.sockets pSock (.of_none sockId rfl)
  simp only [SocketOk, disconnected] at fits
  unfold connect
  refine .step apply_get ?_
  rw [found]
  dsimp only
  cases closing : host.closing with
  | true =>
      rw [if_pos (.inl rfl)]
      exact ⟨rfl, by decide, rfl⟩
  | false =>
      rw [if_neg (by simp [disconnected])]
      refine .step rfl (.step rfl (.step rfl (.step apply_get ?_)))
      simp only [closing, Function.update_self]
      rw [if_neg (by simp)]
      refine .step (audit_eq (by simpa using fits.1)) ?_
      exact ensures_allocTerminal_exhausted exhausted (by simp)

end Host

/-- In every reachable state without a free terminal, `Accept` on a listening socket and `Connect`
on a disconnected one fail as calls should, without an effect, only when they do not get to
`AllocTerminal`; else the process stops. -/
theorem exhausted_refused_iff (queue : CircularQue ℕ) (setup : Setup) {host : Host queue}
    (reachable : (hostMachine queue setup).Reachable (fun _ _ => True) host)
    (exhausted : queue.items host.connPool = []) (handle : UInt64) (pSock : ℕ)
    (found : host.findSocket handle = some pSock) (connectCallback rcvCallback : ℕ)
    (replies : Replies) :
    ((host.sockTbl pSock).state = .listening →
      (host.Refused (Host.accept setup.config handle connectCallback rcvCallback replies) ↔
        host.closing = true ∨ queue.items host.sockPool = [])) ∧
    ((host.sockTbl pSock).state = .disconnected →
      (host.Refused (Host.connect setup.config handle connectCallback rcvCallback replies) ↔
        host.closing = true)) := by
  have admitted : (hostMachine queue setup).Reachable (Host.Admits setup.config openMode) host :=
    reachable.mono fun _ => Host.admits_openMode
  rcases hostOk_of_reachable admitted with ⟨listeners, ok⟩
  constructor
  · intro listening
    have accepts := Host.accept_exhausted ok exhausted found listening connectCallback rcvCallback
      replies
    constructor
    · rintro ⟨status, after, returned, _⟩
      exact (accepts.of_ok returned).1
    · intro early
      cases outcome : Host.accept setup.config handle connectCallback rcvCallback replies host with
      | error stop => exact absurd early (accepts.of_error outcome).1
      | ok pair =>
          rcases accepts.of_ok outcome with ⟨_, bad, same⟩
          exact ⟨pair.1, pair.2, outcome, bad, same ▸ ⟨rfl, rfl, rfl⟩⟩
  · intro disconnected
    have connects := Host.connect_exhausted ok exhausted found disconnected connectCallback
      rcvCallback replies
    constructor
    · rintro ⟨status, after, returned, _⟩
      exact (connects.of_ok returned).1
    · intro early
      cases outcome : Host.connect setup.config handle connectCallback rcvCallback replies host with
      | error stop => exact absurd early (by rw [(connects.of_error outcome).1]; exact nofun)
      | ok pair =>
          rcases connects.of_ok outcome with ⟨_, bad, same⟩
          exact ⟨pair.1, pair.2, outcome, bad, same ▸ ⟨rfl, rfl, rfl⟩⟩

/-- The registrations complete at once. -/
def sampleRegistered : Replies := { registerTag := ndSuccess, registerMem := ndSuccess }

/-- One socket connects with the only terminal and the other one is disconnected. -/
def sampleExhausted : List HostAction :=
  [.createSocket, .connect sampleHandle 5 6 sampleRegistered, .createSocket]

/-- In this state no terminal is free; at shutdown `Connect` fails as it should. -/
theorem exhausted_refused_shutdown :
    ∃ host : Host (boundedQueue ℕ), (boundedQueue ℕ).items host.connPool = [] ∧
      host.Refused (Host.connect (sampleSetup 8192 1).config 0x100000002 5 6 {}) := by
  have passes : (sampleRun (sampleExhausted ++ [.shutdown])).toOption.any
      (fun host => (host.connPool.1 = [] ∧ host.findSocket 0x100000002 = some 2) ∧
        (host.sockTbl 2).state = .disconnected ∧ host.closing = true) = true := by
    decide +kernel
  rcases sampleRun_reaches (fun _ _ _ => trivial) passes with ⟨host, reachable, holds⟩
  rcases of_decide_eq_true holds with ⟨⟨exhausted, found⟩, disconnected, closing⟩
  exact ⟨host, exhausted, ((exhausted_refused_iff _ _ reachable exhausted 0x100000002 2 found 5 6
    {}).2 disconnected).mpr closing⟩

/-- In this state, `Connect` on the disconnected socket stops the process. -/
theorem exhausted_connect_aborts :
    ∃ host : Host (boundedQueue ℕ),
      (hostMachine (boundedQueue ℕ) (sampleSetup 8192 1)).Reachable (fun _ _ => True) host ∧
      (boundedQueue ℕ).items host.connPool = [] ∧ host.findSocket 0x100000002 = some 2 ∧
      (host.sockTbl 2).state = .disconnected ∧
      Host.step (sampleSetup 8192 1).config host (.connect 0x100000002 5 6 {}) =
        .error (.abort (.assert "Exhausted connection!")) := by
  have passes : (sampleRun sampleExhausted).toOption.any
      (fun host => ((host.connPool.1 = [] ∧ host.findSocket 0x100000002 = some 2) ∧
        (host.sockTbl 2).state = .disconnected) ∧ host.closing = false) = true := by
    decide +kernel
  rcases sampleRun_reaches (fun _ _ _ => trivial) passes with ⟨host, reachable, holds⟩
  rcases of_decide_eq_true holds with ⟨⟨⟨exhausted, found⟩, disconnected⟩, closing⟩
  refine ⟨host, reachable, exhausted, found, disconnected, Host.step_eq_error.mpr ?_⟩
  have admitted : (hostMachine (boundedQueue ℕ) (sampleSetup 8192 1)).Reachable
      (Host.Admits (sampleSetup 8192 1).config openMode) host :=
    reachable.mono fun _ => Host.admits_openMode
  rcases hostOk_of_reachable admitted with ⟨listeners, ok⟩
  have connects := Host.connect_exhausted ok exhausted found disconnected 5 6 {}
  cases outcome : Host.connect (sampleSetup 8192 1).config 0x100000002 5 6 {} host with
  | ok pair =>
      rw [closing] at connects
      exact absurd (connects.of_ok outcome).1 nofun
  | error stop =>
      rw [(connects.of_error outcome).2] at outcome
      exact apply_bind_error outcome

end Exhausted

end Hermes
