import Hermes.HostSetup
import Hermes.HostStart
import Hermes.Base.Advance
import Mathlib.Logic.Relation

/-!
# What code may touch

A `Scope` says which sockets and terminals a piece of code may change, and whether it may
take overlapped objects and arenas, register regions and disclose their tokens.  `Moves`
is the preorder on the states of the library that code in a scope moves along.  It has
everything that is said elsewhere about how sockets, terminals, regions and histories
change from one state to the next, so each function is gone through once.
-/

namespace Hermes

open Program

variable {queue : CircularQue ℕ} {config : HostConfig}

section Sockets

/-- One change of state of a socket that keeps its handle. -/
inductive SocketState.Next : SocketState → SocketState → Prop where
  | allocated : Next .inpool .disconnected
  | startsToListen : Next .disconnected .startToListen
  | listens : Next .startToListen .listening
  | listenFailed : Next .startToListen .disconnected
  | accepts : Next .disconnected .accept1
  | connects : Next .disconnected .connecting
  | connectFailed : Next .connecting .disconnected
  | acknowledged : Next .connecting .connAck
  | acceptAgreed : Next .accept1 .connAgreed
  | connectAgreed : Next .connAck .connAgreed
  | connected : Next .connAgreed .connected
  | stops : Next .disconnected .stopping
  | stopsListening : Next .listening .stopping

/-- The states a socket can get to with the same handle. -/
def SocketState.Lives : SocketState → SocketState → Prop :=
  Relation.ReflTransGen SocketState.Next

theorem SocketState.Lives.of_connected {state : SocketState}
    (lives : SocketState.connected.Lives state) : state = .connected := by
  induction lives with
  | refl => rfl
  | tail _ next ih =>
      subst ih
      cases next

end Sockets

namespace Terminal

variable {terminal terminal' terminal'' : Terminal}

/-- Nothing has been sent or received on the terminal since it was last voided. -/
structure Unused (config : HostConfig) (terminal : Terminal) : Prop where
  indices : terminal.mSndIdx = 0 ∧ terminal.mRcvSize = 0 ∧ terminal.mRcvIdx = 0
  receiving : terminal.rcvBuf = none ∧ terminal.rcvProcessing = false
  sndEnd : terminal.sndEnd = ⟨0, 0⟩ ∨ terminal.sndEnd = ⟨UInt64.ofNat config.bufSize, 0⟩
  rcvEnd : terminal.rcvEnd = ⟨0, 0⟩ ∨ terminal.rcvEnd = ⟨UInt64.ofNat config.bufSize, 0⟩

/-- If the terminal has been started, its send queue is empty and nobody sends. -/
def Cleared (terminal : Terminal) : Prop :=
  terminal.pDisconnectCont ≠ none → terminal.sndQue = [] ∧ terminal.sndRunning = false

/-- How a terminal may change while nothing is sent or received on it. -/
structure Later (config : HostConfig) (terminal terminal' : Terminal) : Prop where
  tag : ∀ region, terminal.pTagRegion = some region → terminal'.pTagRegion = some region
  mem : ∀ region, terminal.pMemRegion = some region → terminal'.pMemRegion = some region
  pendingRead : terminal'.pendingRead = terminal.pendingRead
  unused : terminal.Unused config → terminal'.Unused config
  cleared : terminal.Cleared → terminal'.Cleared

theorem Later.refl (terminal : Terminal) : Later config terminal terminal :=
  ⟨fun _ tag => tag, fun _ mem => mem, rfl, id, id⟩

theorem Later.trans (first : Later config terminal terminal')
    (second : Later config terminal' terminal'') : Later config terminal terminal'' where
  tag region tag := second.tag region (first.tag region tag)
  mem region mem := second.mem region (first.mem region mem)
  pendingRead := second.pendingRead.trans first.pendingRead
  unused unused := second.unused (first.unused unused)
  cleared cleared := second.cleared (first.cleared cleared)

/-- The fields `Later` is about. -/
def traffic (terminal : Terminal) :=
  (terminal.pTagRegion, terminal.pMemRegion, terminal.pendingRead,
    (terminal.mSndIdx, terminal.mRcvSize, terminal.mRcvIdx),
    (terminal.rcvBuf, terminal.rcvProcessing), terminal.sndEnd, terminal.rcvEnd,
    terminal.pDisconnectCont, terminal.sndQue, terminal.sndRunning)

theorem Later.of_traffic (same : terminal'.traffic = terminal.traffic) :
    Later config terminal terminal' := by
  simp only [traffic, Prod.mk.injEq] at same
  rcases same with ⟨tag, mem, pendingRead, ⟨snd, size, rcv⟩, ⟨buf, processing⟩, sndEnd, rcvEnd,
    cont, sndQue, running⟩
  constructor
  · simp [tag]
  · simp [mem]
  · exact pendingRead
  · rintro ⟨indices, receiving, sndEnd', rcvEnd'⟩
    exact ⟨by rwa [snd, size, rcv], by rwa [buf, processing], by rwa [sndEnd], by rwa [rcvEnd]⟩
  · simp [Cleared, cont, sndQue, running]

theorem later_voidFlds (terminal : Terminal) : Later config terminal terminal.voidFlds :=
  ⟨fun _ tag => tag, fun _ mem => mem, rfl,
    fun _ => ⟨⟨rfl, rfl, rfl⟩, ⟨rfl, rfl⟩, .inl rfl, .inl rfl⟩,
    fun _ started => absurd rfl started⟩

end Terminal

section Stops

/-- The assertions of the pool of overlapped objects. -/
def poolChecks : List String :=
  ["Object stat changed while in pool!", "Double free!", "Double free overflow!"]

/-- It is none of the pool's assertions that fails. -/
def Stop.PoolSound (stop : Stop) : Prop :=
  ∀ text ∈ poolChecks, stop ≠ .abort (.assert text)

theorem poolSound_assert {text : String} (other : text ∉ poolChecks) :
    Stop.PoolSound (.abort (.assert text)) := by
  intro check member same
  cases same
  exact other member

theorem poolSound_of_ne {stop : Stop} (other : ∀ text, stop ≠ .abort (.assert text)) :
    stop.PoolSound :=
  fun text _ => other text

end Stops

namespace Host

section Slots

variable {before after first second third : Host queue} {id : ℕ}

/-- What can happen to a slot of the socket table. -/
structure Ages (before after : Host queue) (id : ℕ) : Prop where
  index : handleToId (after.sockTbl id).handle = handleToId (before.sockTbl id).handle
  life : after.frees id = before.frees id ∧
      (after.sockTbl id).handle = (before.sockTbl id).handle ∧
      (before.sockTbl id).state.Lives (after.sockTbl id).state ∧
      ((before.sockTbl id).state = .connected →
        (after.sockTbl id).term = (before.sockTbl id).term) ∨
    before.frees id < after.frees id ∧ (before.sockTbl id).state ≠ .connected

theorem Ages.of_same (sockTbl : after.sockTbl id = before.sockTbl id)
    (frees : after.frees id = before.frees id) : Ages before after id where
  index := by rw [sockTbl]
  life := .inl ⟨frees, by rw [sockTbl], by rw [sockTbl]; exact .refl, fun _ => by rw [sockTbl]⟩

theorem Ages.trans (left : Ages first second id) (right : Ages second third id) :
    Ages first third id := by
  refine ⟨right.index.trans left.index, ?_⟩
  rcases left.life with ⟨frees, handle, lives, keeps⟩ | ⟨freed, free⟩
  · rcases right.life with ⟨frees', handle', lives', keeps'⟩ | ⟨freed', free'⟩
    · refine .inl ⟨frees'.trans frees, handle'.trans handle, lives.trans lives', ?_⟩
      intro connected
      have still : (second.sockTbl id).state = .connected := by
        rw [connected] at lives
        exact lives.of_connected
      exact (keeps' still).trans (keeps connected)
    · refine .inr ⟨frees ▸ freed', ?_⟩
      intro connected
      rw [connected] at lives
      exact free' lives.of_connected
  · refine .inr ⟨?_, free⟩
    rcases right.life with ⟨frees', _⟩ | ⟨freed', _⟩
    · rwa [frees']
    · exact freed.trans freed'

/-- What `FreeSocket` changes. -/
def SlotFreed (id : ℕ) (before after : Host queue) : Prop :=
  ∃ sockPool, queue.getCapacity sockPool = queue.getCapacity before.sockPool ∧
    after = { before with
      sockTbl := Function.update before.sockTbl id
        { before.sockTbl id with
          state := .inpool, handle := (before.sockTbl id).handle + 0x100000000 }
      frees := Function.update before.frees id (before.frees id + 1)
      sockPool }

end Slots

section Asynchronous

variable {first second third before after : Host queue}

/-- Overlapped objects, arenas and the history of both are the same. -/
structure SameArenas (before after : Host queue) : Prop where
  events : after.events = before.events
  overlapPool : after.overlapPool = before.overlapPool
  overlaps : after.overlaps = before.overlaps
  pending : after.pending = before.pending
  arenas : after.arenas = before.arenas

theorem SameArenas.trans (left : SameArenas first second) (right : SameArenas second third) :
    SameArenas first third :=
  ⟨right.events.trans left.events, right.overlapPool.trans left.overlapPool,
    right.overlaps.trans left.overlaps, right.pending.trans left.pending,
    right.arenas.trans left.arenas⟩

/-- Beside the tables nothing changes that has to do with overlapped objects, arenas and regions,
but that objects are made. -/
structure SameRegions (before after : Host queue) : Prop extends SameArenas before after where
  regions : ∀ conId, (after.connections conId).regions = (before.connections conId).regions
  disclosed : after.disclosed = before.disclosed
  registered : after.registered = before.registered
  objects : before.objects ≤ after.objects
  buffers : after.buffers = before.buffers
  connectionSpan : after.connectionSpan = before.connectionSpan

theorem SameRegions.refl (host : Host queue) : SameRegions host host :=
  ⟨⟨rfl, rfl, rfl, rfl, rfl⟩, fun _ => rfl, rfl, rfl, le_rfl, rfl, rfl⟩

theorem SameRegions.trans (left : SameRegions first second) (right : SameRegions second third) :
    SameRegions first third :=
  ⟨left.toSameArenas.trans right.toSameArenas,
    fun conId => (right.regions conId).trans (left.regions conId),
    right.disclosed.trans left.disclosed, right.registered.trans left.registered,
    left.objects.trans right.objects, right.buffers.trans left.buffers,
    right.connectionSpan.trans left.connectionSpan⟩

end Asynchronous

/-- What a piece of code may touch: sockets, terminals, overlapped objects with arenas and regions,
and the tokens of regions.  Unless `lives` holds nothing is said of how sockets and terminals
change. -/
structure Scope where
  socks : ℕ → Prop
  terms : ℕ → Prop
  asyncs : Prop
  discloses : Prop
  lives : Prop

/-- Any code of the library. -/
def Scope.any : Scope := ⟨fun _ => True, fun _ => True, True, True, True⟩

/-- Code that only works on the tables. -/
def Scope.calm : Scope := ⟨fun _ => True, fun _ => True, False, False, False⟩

/-- Code that leaves the sockets alone. -/
def Scope.still (scope : Scope) : Scope := { scope with socks := fun _ => False }

/-- What may stop code in a scope: without overlapped objects, none of their assertions. -/
def Scope.Fault (scope : Scope) (stop : Stop) : Prop := scope.asyncs ∨ stop.PoolSound

/-- How the tables change in a scope. -/
structure Lived (config : HostConfig) (scope : Scope) (before after : Host queue) : Prop where
  sockets : ∀ id, Ages before after id
  socks : ∀ id, ¬scope.socks id →
    after.sockTbl id = before.sockTbl id ∧ after.frees id = before.frees id
  owned : ∀ id, (after.sockTbl id).term = (before.sockTbl id).term ∨
    scope.terms (after.sockTbl id).term
  terminals : ∀ conId,
    Terminal.Later config (before.connections conId) (after.connections conId)
  terms : ∀ conId, ¬scope.terms conId → (before.connections conId).pTagRegion ≠ none →
    (before.connections conId).pMemRegion ≠ none →
    after.connections conId = before.connections conId
  connPool : ∀ conId ∈ queue.items after.connPool,
    conId ∈ queue.items before.connPool ∨ scope.terms conId
  sockPool : queue.getCapacity after.sockPool = queue.getCapacity before.sockPool
  disclosed : ¬scope.discloses → after.disclosed = before.disclosed

/-- How the library's state changes in a scope. -/
structure Moves (config : HostConfig) (scope : Scope) (before after : Host queue) : Prop where
  buffers : after.buffers = before.buffers
  connectionSpan : after.connectionSpan = before.connectionSpan
  events : before.events <+: after.events
  notified : before.notified <+: after.notified
  lived : scope.lives → Lived config scope before after
  same : ¬scope.asyncs → SameRegions before after

variable {scope : Scope} {host before after first second third : Host queue} {id conId : ℕ}

theorem fault_assert {text : String} (other : text ∉ poolChecks) :
    scope.Fault (.abort (.assert text)) :=
  .inr (poolSound_assert other)

theorem fault_of_ne {stop : Stop} (other : ∀ text, stop ≠ .abort (.assert text)) :
    scope.Fault stop :=
  .inr (poolSound_of_ne other)

theorem Lived.refl (config : HostConfig) (scope : Scope) (host : Host queue) :
    Lived config scope host host where
  sockets _ := .of_same rfl rfl
  socks _ _ := ⟨rfl, rfl⟩
  owned _ := .inl rfl
  terminals _ := .refl _
  terms _ _ _ _ := rfl
  connPool _ member := .inl member
  sockPool := rfl
  disclosed _ := rfl

theorem Lived.trans (left : Lived config scope first second)
    (right : Lived config scope second third) : Lived config scope first third where
  sockets id := (left.sockets id).trans (right.sockets id)
  socks id other := ⟨(right.socks id other).1.trans (left.socks id other).1,
    (right.socks id other).2.trans (left.socks id other).2⟩
  owned id := by
    rcases right.owned id with same | inScope
    · rw [same]
      exact left.owned id
    · exact .inr inScope
  terminals conId := (left.terminals conId).trans (right.terminals conId)
  terms conId other tag mem := by
    have same := left.terms conId other tag mem
    exact (right.terms conId other (by rwa [same]) (by rwa [same])).trans same
  connPool conId member := by
    rcases right.connPool conId member with member' | inScope
    · exact left.connPool conId member'
    · exact .inr inScope
  sockPool := right.sockPool.trans left.sockPool
  disclosed secret := (right.disclosed secret).trans (left.disclosed secret)

theorem Moves.refl (host : Host queue) : Moves config scope host host :=
  ⟨rfl, rfl, List.prefix_rfl, List.prefix_rfl, fun _ => .refl _ _ host, fun _ => .refl host⟩

instance : Std.Refl (Moves config scope : Host queue → Host queue → Prop) where
  refl := .refl

instance : IsTrans (Host queue) (Moves config scope) where
  trans _ _ _ left right :=
    { buffers := right.buffers.trans left.buffers
      connectionSpan := right.connectionSpan.trans left.connectionSpan
      events := left.events.trans right.events
      notified := left.notified.trans right.notified
      lived := fun lives => (left.lived lives).trans (right.lived lives)
      same := fun calm => (left.same calm).trans (right.same calm) }

/-- Code that leaves the sockets alone is in a scope with sockets as well. -/
theorem Moves.of_still (moves : Moves config scope.still before after) :
    Moves config scope before after :=
  { moves with
    lived := fun lives =>
      { moves.lived lives with
        socks := fun id _ => (moves.lived lives).socks id False.elim } }

section Changes

/-- The sockets, the terminals and their pools, the memory of both and the tokens disclosed. -/
def tables (host : Host queue) :=
  (host.sockTbl, host.frees, host.connections, host.connPool, host.sockPool, host.disclosed,
    host.buffers, host.connectionSpan)

/-- What has to do with overlapped objects and arenas, and the regions registered. -/
def asyncState (host : Host queue) :=
  (host.events, host.overlapPool, host.overlaps, host.pending, host.arenas, host.registered)

theorem Lived.of_tables (same : after.tables = before.tables) :
    Lived config scope before after := by
  simp only [tables, Prod.mk.injEq] at same
  rcases same with ⟨sockTbl, frees, connections, connPool, sockPool, disclosed, _⟩
  constructor
  case sockets => exact fun _ => .of_same (by rw [sockTbl]) (by rw [frees])
  case socks => simp [sockTbl, frees]
  case owned => simp [sockTbl]
  case terminals =>
    rw [connections]
    exact fun _ => .refl _
  case terms => simp [connections]
  case connPool =>
    rw [connPool]
    exact fun _ member => .inl member
  case sockPool => rw [sockPool]
  case disclosed => exact fun _ => disclosed

/-- Nothing changes but what no scope is about. -/
theorem Moves.of_same (tables : after.tables = before.tables)
    (asyncState : after.asyncState = before.asyncState) (objects : before.objects ≤ after.objects)
    (notified : before.notified <+: after.notified) : Moves config scope before after := by
  have lived : Lived config scope before after := .of_tables tables
  simp only [Host.tables, Host.asyncState, Prod.mk.injEq] at tables asyncState
  rcases tables with ⟨_, _, connections, _, _, disclosed, buffers, spans⟩
  rcases asyncState with ⟨events, overlapPool, overlaps, pending, arenas, registered⟩
  refine ⟨buffers, spans, by simp [events], notified, fun _ => lived, fun _ => ?_⟩
  exact ⟨⟨events, overlapPool, overlaps, pending, arenas⟩, fun _ => by rw [connections],
    disclosed, registered, objects, buffers, spans⟩

/-- Overlapped objects, arenas and registrations change. -/
theorem Moves.of_tables (asyncs : scope.asyncs) (tables : after.tables = before.tables)
    (events : before.events <+: after.events) (notified : after.notified = before.notified) :
    Moves config scope before after := by
  have lived : Lived config scope before after := .of_tables tables
  simp only [Host.tables, Prod.mk.injEq] at tables
  rcases tables with ⟨_, _, _, _, _, _, buffers, spans⟩
  exact ⟨buffers, spans, events, by simp [notified], fun _ => lived, fun calm => absurd asyncs calm⟩

/-- A terminal changes that is in scope or has not got both regions. -/
theorem Moves.setTerminal {terminal : Terminal} (touches : scope.terms conId ∨
      (host.connections conId).pTagRegion = none ∨ (host.connections conId).pMemRegion = none)
    (later : scope.lives → Terminal.Later config (host.connections conId) terminal)
    (regions : ¬scope.asyncs → terminal.regions = (host.connections conId).regions) :
    Moves config scope host
      { host with connections := Function.update host.connections conId terminal } := by
  refine ⟨rfl, rfl, List.prefix_rfl, List.prefix_rfl, fun lives => ?_, fun calm => ?_⟩
  · refine { Lived.refl config scope host with
      sockets := fun _ => .of_same rfl rfl, terminals := fun conId' => ?_, terms := ?_ }
    · by_cases same : conId' = conId
      · subst same
        simpa using later lives
      · simp only [Function.update_of_ne same]
        exact .refl _
    · intro conId' other tag mem
      apply Function.update_of_ne
      rintro rfl
      rcases touches with inScope | untagged | unset
      · exact other inScope
      · exact tag untagged
      · exact mem unset
  · refine { SameRegions.refl host with regions := fun conId' => ?_ }
    by_cases same : conId' = conId
    · subst same
      simpa using regions calm
    · simp [same]

/-- A socket in scope changes without being freed. -/
theorem Moves.setSocket {sock : HSocket} (inScope : scope.socks id)
    (handle : scope.lives → sock.handle = (host.sockTbl id).handle)
    (lives : scope.lives → (host.sockTbl id).state.Lives sock.state)
    (other : scope.lives → (host.sockTbl id).state = .connected →
      sock.term = (host.sockTbl id).term)
    (term : scope.lives → sock.term = (host.sockTbl id).term ∨ scope.terms sock.term) :
    Moves config scope host { host with sockTbl := Function.update host.sockTbl id sock } := by
  refine ⟨rfl, rfl, List.prefix_rfl, List.prefix_rfl, fun live => ?_, fun _ => ?_⟩
  · refine { Lived.refl config scope host with sockets := ?_, socks := ?_, owned := ?_ }
    · intro id'
      by_cases same : id' = id
      · subst same
        refine ⟨by simp [handle live], .inl ⟨rfl, ?_⟩⟩
        simp only [Function.update_self]
        exact ⟨handle live, lives live, other live⟩
      · exact .of_same (Function.update_of_ne same _ _) rfl
    · intro id' outside
      refine ⟨Function.update_of_ne ?_ _ _, rfl⟩
      rintro rfl
      exact outside inScope
    · intro id'
      by_cases same : id' = id
      · subst same
        simpa using term live
      · simp [same]
  · exact { SameRegions.refl host with }

/-- The pool of terminals changes. -/
theorem Moves.setConnPool {connPool : queue.Que}
    (items : ∀ conId ∈ queue.items connPool, conId ∈ queue.items host.connPool ∨
      scope.terms conId) : Moves config scope host { host with connPool } :=
  ⟨rfl, rfl, List.prefix_rfl, List.prefix_rfl,
    fun _ => { Lived.refl config scope host with
      sockets := fun _ => .of_same rfl rfl, connPool := items },
    fun _ => { SameRegions.refl host with }⟩

/-- The pool of sockets changes. -/
theorem Moves.setSockPool {sockPool : queue.Que}
    (capacity : queue.getCapacity sockPool = queue.getCapacity host.sockPool) :
    Moves config scope host { host with sockPool } :=
  ⟨rfl, rfl, List.prefix_rfl, List.prefix_rfl,
    fun _ => { Lived.refl config scope host with
      sockets := fun _ => .of_same rfl rfl, sockPool := capacity },
    fun _ => { SameRegions.refl host with }⟩

/-- The tokens of regions are disclosed. -/
theorem Moves.disclose (asyncs : scope.asyncs) (discloses : scope.discloses)
    (disclosed : List ℕ) : Moves config scope host { host with disclosed } :=
  ⟨rfl, rfl, List.prefix_rfl, List.prefix_rfl,
    fun _ => { Lived.refl config scope host with
      sockets := fun _ => .of_same rfl rfl
      disclosed := fun secret => absurd discloses secret },
    fun calm => absurd asyncs calm⟩

theorem handleToId_freed (handle : UInt64) :
    handleToId (handle + 0x100000000) = handleToId handle := by
  simp only [handleToId, UInt64.toNat_add, UInt64.reduceToNat]
  omega

/-- A slot in scope is freed whose socket is not connected. -/
theorem Moves.freed (freed : SlotFreed id before after) (inScope : scope.socks id)
    (free : scope.lives → (before.sockTbl id).state ≠ .connected) :
    Moves config scope before after := by
  rcases freed with ⟨sockPool, capacity, rfl⟩
  refine ⟨rfl, rfl, List.prefix_rfl, List.prefix_rfl, fun live => ?_, fun _ => ?_⟩
  · refine { Lived.refl config scope before with
      sockets := ?_, socks := ?_, owned := ?_, sockPool := capacity }
    · intro id'
      by_cases same : id' = id
      · subst same
        refine ⟨?_, .inr ⟨by simp, free live⟩⟩
        simpa using handleToId_freed _
      · exact .of_same (Function.update_of_ne same _ _) (Function.update_of_ne same _ _)
    · intro id' outside
      have other : id' ≠ id := by
        rintro rfl
        exact outside inScope
      exact ⟨Function.update_of_ne other _ _, Function.update_of_ne other _ _⟩
    · intro id'
      by_cases same : id' = id
      · subst same
        simp
      · simp [same]
  · exact { SameRegions.refl before with }

end Changes

end Host

end Hermes
