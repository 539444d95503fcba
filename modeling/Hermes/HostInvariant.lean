import Hermes.Layout

/-!
# The invariant of the library

`HostOk` relates the two tables, the pools, the outstanding operations of the
provider, the memory regions and the notifications.  It is parametrized by what the
running code has in hand: a socket and a terminal it is working on, which need not be
consistent then, and the overlapped objects and references it holds.  Between two
steps nothing is in hand.

What a step may rely on depends on the runs considered.  A `Mode` says whether
`TerminalCloser` runs, after which completions for the closed connection can still
arrive, whether terminals are only reused when their registrations have completed,
and whether the provider makes the queues of every accepted connection.
-/

namespace Hermes

/-- The runs considered: whether terminals are closed, and only when the operations of their
connections have ended; whether they are only reused when their registrations have ended; and
whether every `Accept` gets its queues. -/
structure Mode where
  closers : Bool
  patient : Bool := false
  strict : Bool
  exact : Bool
  deriving DecidableEq, Repr

/-- Terminals may be closed while operations of their connections are outstanding. -/
def Mode.loose (mode : Mode) : Bool := mode.closers && !mode.patient

theorem Mode.loose_of_closers {mode : Mode} (noClosers : mode.closers = false) :
    mode.loose = false := by
  simp [Mode.loose, noClosers]

/-- What the running code works on: `making` is the terminal whose regions it is registering, `refs`
the references to listeners it holds. -/
structure Hand where
  sock : Option ℕ := none
  term : Option ℕ := none
  ovs : List ℕ := []
  refs : List ℕ := []
  making : Option ℕ := none

/-- The handle of a slot that has been freed `frees` times. -/
def handleOf (id frees : ℕ) : UInt64 := UInt64.ofNat ((frees + 1) * 2 ^ 32 + id)

/-- A terminal without its regions. -/
def Terminal.noRegions (terminal : Terminal) : Terminal :=
  { terminal with pMemRegion := none, pTagRegion := none }

/-- The pointers to the regions of a terminal. -/
def Terminal.regions (terminal : Terminal) : Option ℕ × Option ℕ :=
  (terminal.pTagRegion, terminal.pMemRegion)

/-- The terminal has recorded the region. -/
def Terminal.Records (terminal : Terminal) (region : ℕ) : Prop :=
  terminal.pTagRegion = some region ∨ terminal.pMemRegion = some region

/-- No token of the terminal's regions has been put in a hand shake. -/
def Terminal.Secret (terminal : Terminal) (disclosed : List ℕ) : Prop :=
  ∀ region, terminal.Records region → region ∉ disclosed

/-- The terminal has a pointer to the object. -/
def Terminal.Holds (terminal : Terminal) (object : ℕ) : Prop :=
  terminal.pQuePair = some object ∨ terminal.pCQ = some object ∨
    terminal.pConnector = some object ∨ terminal.Records object

/-- The terminal's objects are none of the listeners. -/
def Terminal.Apart (terminal : Terminal) (listeners : List ℕ) (objects : ℕ) : Prop :=
  ∀ object, terminal.Holds object → object < objects ∧ object ∉ listeners

namespace AsyncJob

/-- The socket whose attempt to connect a job goes on with. -/
def sock? : AsyncJob → Option ℕ
  | onConn id _ | onConnAck id | onAccepted id => some id
  | _ => none

/-- The region a job registers. -/
def region? : AsyncJob → Option ℕ
  | onTagRegistered _ region | onMemRegistered _ region => some region
  | _ => none

/-- The terminal a job registers a region for. -/
def registers? : AsyncJob → Option ℕ
  | onTagRegistered conId _ | onMemRegistered conId _ => some conId
  | _ => none

/-- The listener a job waits for a connection at. -/
def listens? : AsyncJob → Option ℕ
  | onConn _ listen => some listen
  | _ => none

end AsyncJob

/-- What there is at most one outstanding operation for. -/
inductive JobKey where
  | attempt (id : ℕ)
  | tag (conId : ℕ)
  | mem (conId : ℕ)
  | discon (conId : ℕ)
  | verb (conId : ℕ)
  deriving DecidableEq, Repr

def Mode.key (mode : Mode) : AsyncJob → Option JobKey
  | .onConn id _ | .onConnAck id => some (.attempt id)
  | .onAccepted id => if mode.loose then none else some (.attempt id)
  | .onTagRegistered conId _ => if mode.strict then some (.tag conId) else none
  | .onMemRegistered conId _ => if mode.strict then some (.mem conId) else none
  | .onDisconNotified conId => if mode.loose then none else some (.discon conId)
  | .verbCompletion conId => if mode.closers then none else some (.verb conId)

def HostConfig.SockId (config : HostConfig) (id : ℕ) : Prop :=
  1 ≤ id ∧ id ≤ 2 * config.maxConnection

def HostConfig.TermId (config : HostConfig) (conId : ℕ) : Prop :=
  1 ≤ conId ∧ conId ≤ config.maxConnection

/-- A socket that is not being worked on. -/
def Hand.Settled (config : HostConfig) (hand : Hand) (id : ℕ) : Prop :=
  config.SockId id ∧ hand.sock ≠ some id

/-- A socket is connected, or about to be, through a terminal. -/
structure Owns (config : HostConfig) (sock : HSocket) (terminal : Terminal) : Prop where
  listen : sock.pListen = none
  term : config.TermId sock.term
  handle : terminal.handle = sock.handle
  edges : terminal.rcvEnd.trailingEdge ≠ 0 ∧ terminal.sndEnd.trailingEdge ≠ 0
  pQuePair : terminal.pQuePair ≠ none
  pCQ : terminal.pCQ ≠ none
  pConnector : terminal.pConnector ≠ none
  pConnFunc : terminal.pConnFunc ≠ none

/-- A socket and its terminal agree with the socket's state. -/
def SocketOk (config : HostConfig) (sock : HSocket) (terminal : Terminal) : Prop :=
  match sock.state with
  | .inpool | .disconnected => sock.term = invalidTermId ∧ sock.pListen = none
  | .listening => sock.term = invalidTermId ∧ sock.pListen ≠ none
  | .accept1 => Owns config sock terminal
  | .connecting => Owns config sock terminal ∧ terminal.pDisconnectCont = none
  | .connAck | .connAgreed | .connected =>
      Owns config sock terminal ∧ terminal.pDisconnectCont ≠ none
  | .startToListen | .stopping => False

/-- The attempt to connect is not over. -/
def SocketState.attempting : SocketState → Bool
  | accept1 | connecting | connAck => true
  | _ => false

/-- The tables and the pools agree. -/
structure SlotsOk (config : HostConfig) (hand : Hand) (sockTbl : ℕ → HSocket)
    (connections : ℕ → Terminal) (frees : ℕ → ℕ) (sockItems connItems : List ℕ) : Prop where
  sockNodup : sockItems.Nodup
  sockIds : ∀ id ∈ sockItems, config.SockId id
  sockInHand : ∀ id, hand.sock = some id → config.SockId id ∧ id ∉ sockItems
  pooled : ∀ id, hand.Settled config id → (id ∈ sockItems ↔ (sockTbl id).state = .inpool)
  sockets : ∀ id, hand.Settled config id →
    SocketOk config (sockTbl id) (connections (sockTbl id).term)
  handles : ∀ id, config.SockId id → (sockTbl id).handle = handleOf id (frees id)
  connNodup : connItems.Nodup
  connIds : ∀ conId ∈ connItems, config.TermId conId
  termInHand : ∀ conId, hand.term = some conId → config.TermId conId ∧ conId ∉ connItems
  owner : ∀ conId, config.TermId conId → conId ∉ connItems → hand.term ≠ some conId →
    ∃ id, hand.Settled config id ∧ (sockTbl id).term = conId
  owned : ∀ id, hand.Settled config id → (sockTbl id).term ≠ invalidTermId →
    (sockTbl id).term ∉ connItems ∧ hand.term ≠ some (sockTbl id).term
  ownedOnce : ∀ id id', hand.Settled config id → hand.Settled config id' →
    (sockTbl id).term ≠ invalidTermId → (sockTbl id).term = (sockTbl id').term → id = id'
  void : ∀ conId ∈ connItems, (connections conId).voidFlds = connections conId

/-- What an outstanding operation will find when it completes. -/
def JobReady (config : HostConfig) (mode : Mode) (hand : Hand) (sockTbl : ℕ → HSocket)
    (connections : ℕ → Terminal) : AsyncJob → Prop
  | .onConn id _ => hand.Settled config id ∧ (sockTbl id).state = .accept1 ∧
      (connections (sockTbl id).term).pDisconnectCont = none
  | .onConnAck id => hand.Settled config id ∧ (sockTbl id).state = .connecting
  | .onAccepted id => config.SockId id ∧ (mode.loose = false → hand.Settled config id ∧
      ((sockTbl id).state = .accept1 ∨ (sockTbl id).state = .connAck) ∧
        (connections (sockTbl id).term).pDisconnectCont ≠ none)
  | .onDisconNotified conId => config.TermId conId ∧ (mode.loose = false →
      (connections conId).pDisconnectCont ≠ none ∧ ∀ id, hand.Settled config id →
        (sockTbl id).term = conId → (sockTbl id).state.attempting = false)
  | .verbCompletion conId => config.TermId conId ∧
      (mode.closers = false → (connections conId).pDisconnectCont ≠ none)
  | .onTagRegistered conId _ => config.TermId conId ∧
      (mode.strict = true → (connections conId).pTagRegion = none)
  | .onMemRegistered conId _ => config.TermId conId ∧
      (mode.strict = true → (connections conId).pMemRegion = none)

/-- The outstanding operations belong to what they will find when they complete. -/
structure JobsOk (config : HostConfig) (mode : Mode) (hand : Hand) (jobs : ℕ → AsyncJob → Prop)
    (sockTbl : ℕ → HSocket) (connections : ℕ → Terminal) : Prop where
  ready : ∀ {ov job}, jobs ov job → JobReady config mode hand sockTbl connections job
  once : ∀ {ov ov' job job' key}, jobs ov job → jobs ov' job' → mode.key job = some key →
    mode.key job' = some key → ov = ov'

/-- Every region is registered once, for one terminal, and the regions of terminals without a peer
are not disclosed. -/
structure RegionsOk (config : HostConfig) (hand : Hand) (jobs : ℕ → AsyncJob → Prop)
    (sockTbl : ℕ → HSocket) (connections : ℕ → Terminal) (connItems disclosed : List ℕ)
    (objects : ℕ) : Prop where
  outstanding : ∀ {ov job region}, jobs ov job → job.region? = some region →
    region < objects ∧ region ∉ disclosed ∧
      ∀ conId, config.TermId conId → ¬(connections conId).Records region
  once : ∀ {ov ov' job job' region}, jobs ov job → jobs ov' job' → job.region? = some region →
    job'.region? = some region → ov = ov'
  recorded : ∀ {conId region}, config.TermId conId → (connections conId).Records region →
    region < objects
  recordedOnce : ∀ {conId conId' region}, config.TermId conId → config.TermId conId' →
    (connections conId).Records region → (connections conId').Records region → conId = conId'
  disclosedLt : ∀ region ∈ disclosed, region < objects
  secretPool : ∀ conId ∈ connItems, (connections conId).Secret disclosed
  secretAccept : ∀ {id}, hand.Settled config id → (sockTbl id).state = .accept1 →
    (connections (sockTbl id).term).pDisconnectCont = none →
      (connections (sockTbl id).term).Secret disclosed
  both : ∀ {conId}, config.TermId conId → (connections conId).pMemRegion ≠ none →
    (connections conId).pTagRegion ≠ none
  started : ∀ {conId}, config.TermId conId → hand.term ≠ some conId →
    (connections conId).pDisconnectCont ≠ none → (connections conId).pMemRegion ≠ none
  connecting : ∀ {id}, hand.Settled config id → (sockTbl id).state = .connecting →
    (connections (sockTbl id).term).pMemRegion ≠ none

/-- When terminals are only reused after their registrations, a terminal has or awaits both of its
regions, or neither. -/
structure RegistersOk (config : HostConfig) (mode : Mode) (hand : Hand)
    (jobs : ℕ → AsyncJob → Prop) (connections : ℕ → Terminal) (connItems : List ℕ) : Prop where
  half : ∀ {conId}, config.TermId conId → hand.making ≠ some conId →
    (connections conId).pTagRegion ≠ none → (connections conId).pMemRegion ≠ none ∨
      ∃ ov region, jobs ov (.onMemRegistered conId region)
  awaitsMem : ∀ {ov conId region}, jobs ov (.onTagRegistered conId region) →
    hand.making ≠ some conId → ∃ ov' region', jobs ov' (.onMemRegistered conId region')
  awaitsTag : mode.closers = false → ∀ {ov conId region}, jobs ov (.onMemRegistered conId region) →
    (connections conId).pTagRegion ≠ none ∨ ∃ ov' region', jobs ov' (.onTagRegistered conId region')
  used : mode.closers = false → ∀ {conId}, config.TermId conId → conId ∉ connItems →
    hand.making ≠ some conId → (connections conId).pMemRegion ≠ none ∨
      ∃ ov region, jobs ov (.onMemRegistered conId region)

/-- Every call's notifier is kept by one terminal, and not called while the attempt lasts. -/
structure LogOk (config : HostConfig) (mode : Mode) (hand : Hand) (sockTbl : ℕ → HSocket)
    (connections : ℕ → Terminal) (calls : ℕ) (notified : List Notification) : Prop where
  called : ∀ {conId notifier}, config.TermId conId →
    (connections conId).pConnFunc = some notifier → notifier.call < calls
  once : ∀ {conId conId' notifier notifier'}, config.TermId conId → config.TermId conId' →
    (connections conId).pConnFunc = some notifier →
    (connections conId').pConnFunc = some notifier' → notifier.call = notifier'.call →
      conId = conId'
  logged : ∀ entry ∈ notified, entry.notifier.call < calls
  nodup : mode.closers = false → (notified.map fun entry => entry.notifier.call).Nodup
  quiet : ∀ {id notifier}, hand.Settled config id → (sockTbl id).state.attempting = true →
    (connections (sockTbl id).term).pConnFunc = some notifier →
      ∀ entry ∈ notified, entry.notifier.call ≠ notifier.call

/-- Every started terminal has a disconnect continuation of its own. -/
structure ContinuationsOk (config : HostConfig) (connections : ℕ → Terminal) (arenas : ℕ) :
    Prop where
  made : ∀ {conId continuation}, config.TermId conId →
    (connections conId).pDisconnectCont = some continuation → continuation < arenas
  once : ∀ {conId conId' continuation}, config.TermId conId → config.TermId conId' →
    (connections conId).pDisconnectCont = some continuation →
      (connections conId').pDisconnectCont = some continuation → conId = conId'

/-- Every overlapped object is in the pool, with the provider, or in hand. -/
structure OverlapsOk (hand : Hand) (overlaps : ℕ → HOverlap) (overlapItems pending : List ℕ) :
    Prop where
  all : (overlapItems ++ (hand.ovs ++ pending)).Perm (List.range kibi)
  blank : ∀ ov ∈ overlapItems, overlaps ov = {}
  taken : ∀ ov ∈ hand.ovs ++ pending, (overlaps ov).pNext ≠ none

/-- The job an overlapped object will run. -/
def HOverlap.job? (overlap : HOverlap) : Option AsyncJob := overlap.pNext.map Prod.fst

/-- How many of the operations wait for a connection at the listener. -/
def waiting (overlaps : ℕ → HOverlap) (pending : List ℕ) (listener : ℕ) : ℕ :=
  pending.countP fun ov => (overlaps ov).job?.bind AsyncJob.listens? = some listener

/-- A listener has one reference for the socket that holds it, one for each operation that waits
at it, and those in hand. -/
structure ListenersOk (config : HostConfig) (hand : Hand) (listeners : List ℕ)
    (sockTbl : ℕ → HSocket) (connections : ℕ → Terminal) (overlaps : ℕ → HOverlap)
    (pending : List ℕ) (refs : ℕ → ℕ) (objects : ℕ) : Prop where
  made : ∀ listener ∈ listeners, listener < objects
  held : ∀ {id listener}, hand.Settled config id → (sockTbl id).pListen = some listener →
    listener ∈ listeners ∧
      refs listener = 1 + waiting overlaps pending listener + hand.refs.count listener
  heldOnce : ∀ {id id' listener}, hand.Settled config id → hand.Settled config id' →
    (sockTbl id).pListen = some listener → (sockTbl id').pListen = some listener → id = id'
  unheld : ∀ listener ∈ listeners,
    (∀ id, hand.Settled config id → (sockTbl id).pListen ≠ some listener) →
      refs listener = waiting overlaps pending listener + hand.refs.count listener
  inHand : ∀ listener ∈ hand.refs, listener ∈ listeners
  apart : ∀ conId, config.TermId conId → (connections conId).Apart listeners objects
  jobs : ∀ ov ∈ pending, ∀ job, (overlaps ov).job? = some job →
    (∀ listener, job.listens? = some listener → listener ∈ listeners) ∧
      ∀ region, job.region? = some region → region ∉ listeners

/-- The references of listeners, when those that failed calls of `Accept` have left behind are
counted as in hand; with exact counts there are none. -/
def CountsOk (config : HostConfig) (mode : Mode) (hand : Hand) (listeners : List ℕ)
    (sockTbl : ℕ → HSocket) (connections : ℕ → Terminal) (overlaps : ℕ → HOverlap)
    (pending : List ℕ) (refs : ℕ → ℕ) (objects : ℕ) : Prop :=
  ∃ leaked : List ℕ, (mode.exact = true → leaked = []) ∧
    ListenersOk config { hand with refs := hand.refs ++ leaked } listeners sockTbl connections
      overlaps pending refs objects

/-- Every handle given to the client was the handle of its slot then. -/
structure HandlesOk (config : HostConfig) (frees : ℕ → ℕ) (delivered : List Delivery) : Prop where
  known : ∀ given ∈ delivered, config.SockId (handleToId given.handle) ∧
    given.handle = handleOf (handleToId given.handle) given.frees ∧
      given.frees ≤ frees (handleToId given.handle)

namespace Host

variable {queue : CircularQue ℕ}

/-- The operation is outstanding and will run the job. -/
def Pends (host : Host queue) (ov : ℕ) (job : AsyncJob) : Prop :=
  ov ∈ host.pending ∧ (host.overlaps ov).job? = some job

/-- An outstanding registration retires the arena. -/
def Awaits (host : Host queue) (arena : ℕ) : Prop :=
  ∃ ov ∈ host.pending, ∃ job, (host.overlaps ov).pNext = some (job, arena) ∧ job.region? ≠ none

end Host

/-- What the invariant needs of the arguments. -/
structure HostConfig.Sane (config : HostConfig) : Prop where
  edge : UInt64.ofNat config.bufSize ≠ 0
  few : 2 * config.maxConnection < 2 ^ 32
  small : config.maxConnection * config.bufSize * 2 < 2 ^ 32

/-- The invariant of the library. -/
structure HostOk {queue : CircularQue ℕ} (config : HostConfig) (mode : Mode) (listeners : List ℕ)
    (hand : Hand) (host : Host queue) : Prop where
  sane : config.Sane
  buffers : host.buffers.size = config.maxConnection * config.bufSize * 2
  sockCapacity : queue.getCapacity host.sockPool = 2 * config.maxConnection
  connCapacity : queue.getCapacity host.connPool = config.maxConnection
  overlapCapacity : queue.getCapacity host.overlapPool = kibi
  slots : SlotsOk config hand host.sockTbl host.connections host.frees
    (queue.items host.sockPool) (queue.items host.connPool)
  jobs : JobsOk config mode hand host.Pends host.sockTbl host.connections
  regions : RegionsOk config hand host.Pends host.sockTbl host.connections
    (queue.items host.connPool) host.disclosed host.objects
  registers : mode.strict = true → RegistersOk config mode hand host.Pends host.connections
    (queue.items host.connPool)
  log : LogOk config mode hand host.sockTbl host.connections host.calls host.notified
  continuations : ContinuationsOk config host.connections host.arenas
  overlaps : OverlapsOk hand host.overlaps (queue.items host.overlapPool) host.pending
  listens : CountsOk config mode hand listeners host.sockTbl host.connections host.overlaps
    host.pending host.refs host.objects
  handles : HandlesOk config host.frees host.delivered
  awaited : ∀ {arena}, host.Awaits arena → arena < host.arenas

theorem HostOk.rings {queue : CircularQue ℕ} {config : HostConfig} {mode : Mode}
    {listeners : List ℕ} {hand : Hand} {host : Host queue}
    (ok : HostOk config mode listeners hand host) : Host.RingsFit config host :=
  ⟨ok.sane.small, ok.buffers⟩

end Hermes
