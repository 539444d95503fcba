import Hermes.LibraryStep

/-!
# Runs of the library and its connections

The invariant of the tables and the invariants of the connections hold together in
every run.  A terminal that is used again begins its next connection as a new one
would, but for the edge reads answered `ND_CANCELED`: they stay counted as pending,
and after two of them no connection of the terminal reads an edge again.
-/

namespace Hermes

open Program

variable {queue : CircularQue ℕ} {setup : Setup}

section Beginning

variable {config : HostConfig} {host after : Host queue} {listeners : List ℕ} {conId canceled : ℕ}
  {terminal terminal' : Terminal}

/-- Nothing goes through the terminal, and only canceled reads are counted as pending. -/
structure Terminal.Idle (config : HostConfig) (canceled : ℕ) (terminal : Terminal) : Prop where
  unused : terminal.Unused config
  cleared : terminal.Cleared
  reads : terminal.pendingRead = canceled

theorem Terminal.Idle.later (idle : terminal.Idle config canceled)
    (later : Terminal.Later config terminal terminal') : terminal'.Idle config canceled :=
  ⟨later.unused idle.unused, later.cleared idle.cleared, later.pendingRead.trans idle.reads⟩

theorem Terminal.idle_of_void (void : terminal.voidFlds = terminal)
    (reads : terminal.pendingRead = canceled) : terminal.Idle config canceled := by
  refine ⟨?_, ?_, reads⟩
  all_goals rw [← void]
  · exact ⟨⟨rfl, rfl, rfl⟩, ⟨rfl, rfl⟩, .inl rfl, .inl rfl⟩
  · exact fun begun => absurd rfl begun

/-- The send ring of a terminal is what `GetSndBuf` returns. -/
theorem Host.getSndBuf_ring (fit : Host.RingsFit config host) (termId : config.TermId conId) :
    Host.getSndBuf config conId host = .ok (ringAt config host conId true, host) := by
  rw [Host.getSndBuf_eq fit termId.1 termId.2, ringAt, ringSlot]
  congr 4
  simp only [if_true]
  ring

/-- A ring of a sensible size at an aligned address begins its connection. -/
theorem Connection.start?_eq {sendBuf : Span} {exponent : ℕ} (small : exponent < 32)
    (power : sendBuf.size = 2 ^ exponent) (aligned : 16 ∣ sendBuf.data) (terminal : Terminal)
    (memories : Memory UInt8 × Memory UInt8) :
    ∃ connection, Connection.start? sendBuf terminal memories = some connection ∧
      connection.rings.sendBuf = sendBuf ∧ connection.rings.rcvData = terminal.rmtBufAddr ∧
        connection.link =
          { term := terminal, mem := memories.1, rmt := memories.2, landed := sendBuf.size } := by
  have log : Nat.log2 sendBuf.size = exponent := by
    rw [power, Nat.log2_two_pow]
  have fits : sendBuf.size = 2 ^ Nat.log2 sendBuf.size ∧ Nat.log2 sendBuf.size < 32 ∧
      16 ∣ sendBuf.data := by
    rw [log]
    exact ⟨power, small, aligned⟩
  exact ⟨_, dif_pos fits, rfl, rfl, rfl⟩

/-- The terminal of a connected socket through which nothing has gone is as a new connection needs
it, but for the count of pending reads. -/
theorem HostOk.prepared (ok : HostOk config openMode listeners {} host)
    (attached : host.attached conId = true)
    (idle : (host.connections conId).Idle config canceled) {rings : LinkConfig}
    (ring : rings.ring = config.bufSize)
    (rcvData : rings.rcvData = (host.connections conId).rmtBufAddr) :
    rings.Prepared { host.connections conId with pendingRead := 0 } := by
  rcases (Host.attached_iff ok).mp attached with ⟨id, sockId, connected, rfl⟩
  have fits := ok.slots.sockets id (.of_none sockId rfl)
  simp only [SocketOk, connected] at fits
  rcases fits with ⟨owns, begun⟩
  have mem := ok.regions.started owns.term (by simp) begun
  rcases idle.cleared begun with ⟨sndQue, sndRunning⟩
  constructor
  case sndEnd =>
    rcases idle.unused.sndEnd with void | ready
    · exact absurd (congrArg CirTag.trailingEdge void) owns.edges.2
    · rw [ring]
      exact ready
  case sndQue => exact sndQue
  case sndRunning => exact sndRunning
  case mSndIdx => exact idle.unused.indices.1
  case pendingRead => rfl
  case rmtBufAddr => exact rcvData.symm
  case pMemRegion => exact Option.isSome_iff_ne_none.mpr mem
  case pTagRegion => exact Option.isSome_iff_ne_none.mpr (ok.regions.both owns.term mem)
  case pQuePair => exact Option.isSome_iff_ne_none.mpr owns.pQuePair

end Beginning

section Invariant

variable {lib lib' : Library queue} {conId : ℕ}

/-- Any step of a connection. -/
def AnyStep (_ : Connection) (_ : LinkAction) : Prop := True

/-- A connection and the record of its terminal agree. -/
structure Library.Linked (setup : Setup) (lib : Library queue) (conId : ℕ)
    (connection : Connection) : Prop where
  record : lib.host.connections conId =
    connection.link.term.withReceiving (lib.host.connections conId)
  rings : connection.rings.sendBuf = ringAt setup.config lib.host conId true
  reads : connection.link.term.pendingRead = connection.link.outReads + lib.canceled conId

/-- The invariant of the tables and of what connects them to the connections. -/
structure Library.Ok (setup : Setup) (lib : Library queue) : Prop where
  tables : ∃ listeners, HostOk setup.config openMode listeners {} lib.host
  pages : lib.host.buffers.data = setup.pages
  bufSize : ∃ exponent, 4 ≤ exponent ∧ exponent < 32 ∧ setup.config.bufSize = 2 ^ exponent
  attached : ∀ conId, (lib.links conId).isSome = lib.host.attached conId
  idle : ∀ conId, lib.links conId = none →
    (lib.host.connections conId).Idle setup.config (lib.canceled conId)
  linked : ∀ conId connection, lib.links conId = some connection →
    lib.Linked setup conId connection

namespace Library

theorem ok_of_start (started : (libraryMachine queue setup).start lib) : lib.Ok setup := by
  rcases started with ⟨host, made, rfl⟩
  rcases Host.factory_started made with ⟨sizes, counts, admitted, fits, started⟩
  have ok : HostOk setup.config openMode [] {} host := started.ok (admitted.sane fits) openMode
  rcases started.rest with ⟨overlapPool, _, _, same⟩
  have connections : ∀ conId, host.connections conId = {} := by
    rw [same]
    exact fun _ => rfl
  constructor
  case tables => exact ⟨[], ok⟩
  case pages =>
    rw [same]
    rfl
  case bufSize =>
    have low := admitted.sizesLow
    have high := admitted.sizesHigh
    exact ⟨sizes - 1, by omega, by omega, admitted.bufSize.1⟩
  case attached =>
    intro conId
    cases attached : host.attached conId with
    | false => rfl
    | true =>
        rcases (Host.attached_iff ok).mp attached with ⟨id, sockId, connected, _⟩
        rw [started.sockTbl id sockId.1 sockId.2] at connected
        cases connected
  case idle =>
    intro conId _
    simp only [connections]
    exact Terminal.idle_of_void rfl rfl
  case linked =>
    intro conId connection present
    cases present

/-- The send rings are aligned. -/
theorem Ok.aligned (ok : lib.Ok setup) (aligned : 16 ∣ setup.pages) (conId : ℕ) :
    16 ∣ (ringAt setup.config lib.host conId true).data := by
  rcases ok.bufSize with ⟨exponent, low, _, bufSize⟩
  have ring : 16 ∣ setup.config.bufSize := by
    rw [bufSize]
    exact pow_dvd_pow 2 low
  rw [ringAt, ok.pages]
  exact Nat.dvd_add aligned (Dvd.dvd.mul_left ring _)

/-- What a step of the tables does to the connection of a terminal. -/
inductive Relinks (setup : Setup) (lib : Library queue) (host : Host queue) (conId : ℕ) :
    Option Connection → Option Connection → Prop where
  | rests (idle : (host.connections conId).Idle setup.config (lib.canceled conId))
      (attached : host.attached conId = false) : Relinks setup lib host conId none none
  | begins {connection : Connection}
      (idle : (host.connections conId).Idle setup.config (lib.canceled conId))
      (attached : host.attached conId = true)
      (rings : connection.rings.sendBuf = ringAt setup.config host conId true)
      (rcvData : connection.rings.rcvData = (host.connections conId).rmtBufAddr)
      (link : ∃ mem rmt, connection.link =
        { term := host.connections conId, mem := mem, rmt := rmt,
          landed := connection.rings.ring }) :
      Relinks setup lib host conId none (some connection)
  | stays {connection : Connection} (attached : host.attached conId = true)
      (same : host.connections conId = lib.host.connections conId) :
      Relinks setup lib host conId (some connection) (some connection)
  | ends {connection : Connection}
      (idle : (host.connections conId).Idle setup.config (lib.canceled conId))
      (attached : host.attached conId = false) :
      Relinks setup lib host conId (some connection) none

variable {host : Host queue} {action : HostAction}
  {memories : ℕ → Memory UInt8 × Memory UInt8}

/-- The tables after one of their steps. -/
theorem Ok.after (ok : lib.Ok setup)
    (stepped : Host.step setup.config lib.host action = .ok host) :
    (∃ listeners, HostOk setup.config openMode listeners {} host) ∧
      host.buffers = lib.host.buffers := by
  rcases ok.tables with ⟨listeners, tables⟩
  rcases Host.step_eq_ok.mp stepped with ⟨done, performed⟩
  exact ⟨⟨_, (Host.perform_ensures tables Host.admits_openMode).of_ok performed⟩,
    (Host.elapsed_step tables stepped).buffers⟩

/-- A terminal that gets attached begins a connection in its rings. -/
theorem Ok.connection_begins (ok : lib.Ok setup) (aligned : 16 ∣ setup.pages)
    {listeners : List ℕ} (tables : HostOk setup.config openMode listeners {} host)
    (buffers : host.buffers = lib.host.buffers) (attached : host.attached conId = true)
    (links : lib.links conId = none) :
    ∃ connection, lib.relink setup.config host memories conId = some connection ∧
      connection.rings.sendBuf = ringAt setup.config host conId true ∧
      connection.rings.rcvData = (host.connections conId).rmtBufAddr ∧
      ∃ mem rmt, connection.link =
        { term := host.connections conId, mem := mem, rmt := rmt,
          landed := connection.rings.ring } := by
  rcases (Host.attached_iff tables).mp attached with ⟨id, sockId, connected, rfl⟩
  have fits := tables.slots.sockets id (.of_none sockId rfl)
  simp only [SocketOk, connected] at fits
  have sendBuf := Host.getSndBuf_ring tables.rings fits.1.term
  rcases ok.bufSize with ⟨exponent, _, small, bufSize⟩
  have place : 16 ∣ (ringAt setup.config host (host.sockTbl id).term true).data := by
    rw [ringAt, buffers]
    exact ok.aligned aligned _
  have size : (ringAt setup.config host (host.sockTbl id).term true).size = 2 ^ exponent := bufSize
  rcases Connection.start?_eq small size place (host.connections (host.sockTbl id).term)
    (memories (host.sockTbl id).term) with ⟨connection, starts, rings, rcvData, link⟩
  refine ⟨connection, ?_, rings, rcvData, (memories (host.sockTbl id).term).1,
    (memories (host.sockTbl id).term).2, ?_⟩
  · simp [relink, attached, links, sendBuf, starts]
  · rw [link, LinkConfig.ring, rings]

theorem Ok.relinks (ok : lib.Ok setup) (aligned : 16 ∣ setup.pages)
    (allowed : lib.Allowed (.host action memories))
    (stepped : Host.step setup.config lib.host action = .ok host) (conId : ℕ) :
    Relinks setup lib host conId (lib.links conId)
      (lib.relink setup.config host memories conId) := by
  rcases ok.tables with ⟨listeners, tables⟩
  rcases ok.after stepped with ⟨⟨listeners', afterTables⟩, buffers⟩
  have quiet : ∀ handle req, action ≠ .send handle req := by
    rintro handle req rfl
    exact allowed
  have outcome := Host.terminal_step tables quiet stepped conId
  have present := ok.attached conId
  cases attached : host.attached conId with
  | false =>
      have gone : lib.relink setup.config host memories conId = none := by
        simp [relink, attached]
      rw [gone]
      rcases outcome with ⟨_, still, _⟩ | ⟨⟨notices, rfl⟩, _, void, reads⟩ | ⟨before, later⟩
      · exact absurd (still.symm.trans attached) (by simp)
      · cases links : lib.links conId with
        | none =>
            exact .rests (Terminal.idle_of_void void (reads.trans (ok.idle conId links).reads))
              attached
        | some connection =>
            have linked := ok.linked conId connection links
            have rest : connection.link.AtRest := allowed connection links
            refine .ends (Terminal.idle_of_void void (reads.trans ?_)) attached
            rw [linked.record]
            exact linked.reads.trans (by rw [rest.1, Nat.zero_add])
      · rw [before] at present
        cases links : lib.links conId with
        | none => exact .rests ((ok.idle conId links).later later) attached
        | some connection => simp [links] at present
  | true =>
      rcases outcome with ⟨before, _, same⟩ | ⟨_, ended, _⟩ | ⟨before, later⟩
      · rw [before] at present
        rcases Option.isSome_iff_exists.mp present with ⟨connection, links⟩
        have stays : lib.relink setup.config host memories conId = some connection := by
          simp [relink, attached, links]
        rw [links, stays]
        exact .stays attached same
      · exact absurd (attached.symm.trans ended) (by simp)
      · rw [before] at present
        cases links : lib.links conId with
        | some connection => simp [links] at present
        | none =>
            rcases ok.connection_begins aligned afterTables buffers attached links with
              ⟨connection, begun, rings, rcvData, link⟩
            rw [begun]
            exact .begins ((ok.idle conId links).later later) attached rings rcvData link

/-- A step of the tables. -/
theorem Ok.host_step (ok : lib.Ok setup) (aligned : 16 ∣ setup.pages)
    (allowed : lib.Allowed (.host action memories))
    (stepped : Host.step setup.config lib.host action = .ok host) :
    Ok setup { lib with host, links := lib.relink setup.config host memories } := by
  rcases ok.after stepped with ⟨tables, buffers⟩
  have relinks := ok.relinks aligned allowed stepped
  constructor
  case tables => exact tables
  case pages =>
    dsimp only
    rw [buffers]
    exact ok.pages
  case bufSize => exact ok.bufSize
  case attached =>
    intro conId
    have outcome := relinks conId
    dsimp only
    generalize lib.relink setup.config host memories conId = next at outcome ⊢
    generalize lib.links conId = before at outcome
    cases outcome with
    | rests _ attached | begins _ attached | stays attached | ends _ attached =>
        exact attached.symm
  case idle =>
    intro conId links
    have outcome := relinks conId
    dsimp only at links
    rw [links] at outcome
    generalize lib.links conId = before at outcome
    cases outcome with
    | rests idle | ends idle => exact idle
  case linked =>
    intro conId connection links
    have outcome := relinks conId
    dsimp only at links
    rw [links] at outcome
    have linked := ok.linked conId connection
    generalize lib.links conId = before at outcome linked
    cases outcome with
    | begins idle attached rings rcvData link =>
        rcases link with ⟨mem, rmt, link⟩
        constructor
        case record => rw [link]; rfl
        case rings => exact rings
        case reads => rw [link]; exact idle.reads.trans (Nat.zero_add _).symm
    | stays attached same =>
        rcases linked rfl with ⟨record, rings, reads⟩
        constructor
        case record => rwa [same]
        case rings => rw [rings, ringAt, ringAt, buffers]
        case reads => exact reads

/-- The connection of a terminal after a step of the tables. -/
theorem Ok.host_part (ok : lib.Ok setup) (aligned : 16 ∣ setup.pages)
    (allowed : lib.Allowed (.host action memories))
    (stepped : Host.step setup.config lib.host action = .ok host) (conId : ℕ)
    {partAllowed : Connection → LinkAction → Prop} :
    connectionMachine.PartStep partAllowed (lib.links conId)
      (lib.relink setup.config host memories conId) := by
  rcases ok.after stepped with ⟨⟨listeners, tables⟩, _⟩
  have outcome := ok.relinks aligned allowed stepped conId
  generalize lib.relink setup.config host memories conId = next at outcome ⊢
  generalize lib.links conId = before at outcome ⊢
  cases outcome with
  | rests | stays => exact .rests _
  | ends => exact .ends _
  | begins idle attached rings rcvData link =>
      rcases link with ⟨mem, rmt, link⟩
      have ring : _ = setup.config.bufSize := congrArg Span.size rings
      exact .begins ⟨_, mem, rmt, tables.prepared attached idle ring rcvData, link⟩

theorem advance_eq_ok {action : LinkAction} :
    lib.advance conId action = .ok lib' ↔ ∃ connection link, lib.links conId = some connection ∧
      connection.link.step connection.rings action = .ok link ∧
      lib' =
        { lib.setTerminal conId (link.term.withReceiving (lib.host.connections conId)) with
          links := Function.update lib.links conId (some { connection with link })
          canceled := Function.update lib.canceled conId
            (lib.canceled conId + connection.link.cancels action) } := by
  rw [advance]
  cases links : lib.links conId with
  | none => simp
  | some connection =>
      simp only [connectionMachine, bind_eq_ok, pure, Except.pure, Except.ok.injEq,
        Option.some.injEq]
      constructor
      · rintro ⟨_, ⟨link, stepped, rfl⟩, rfl⟩
        exact ⟨connection, link, rfl, stepped, rfl⟩
      · rintro ⟨_, link, rfl, stepped, rfl⟩
        exact ⟨_, ⟨link, stepped, rfl⟩, rfl⟩

/-- The record of a terminal with a connection changes only in what the connection uses. -/
theorem Ok.works (ok : lib.Ok setup) (present : (lib.links conId).isSome) {terminal : Terminal}
    (works : Terminal.Works (lib.host.connections conId) terminal) :
    (∃ listeners, HostOk setup.config openMode listeners {} (lib.setTerminal conId terminal).host) ∧
      ∀ conId',
        (lib.setTerminal conId terminal).host.attached conId' = lib.host.attached conId' := by
  rcases ok.tables with ⟨listeners, tables⟩
  have attached := present.symm.trans (ok.attached conId)
  rcases (Host.attached_iff tables).mp attached.symm with ⟨id, sockId, connected, rfl⟩
  have changed := tables.works sockId connected works
  refine ⟨⟨listeners, changed⟩, fun conId' => ?_⟩
  exact Bool.eq_iff_iff.mpr ((Host.attached_iff changed).trans (Host.attached_iff tables).symm)

/-- A step of a connection. -/
theorem Ok.advance_step (ok : lib.Ok setup) {action : LinkAction}
    (forward : ∀ edge, action = .land edge → UInt64.ofNat edge ≠ 0)
    (stepped : lib.advance conId action = .ok lib') : lib'.Ok setup := by
  rcases advance_eq_ok.mp stepped with ⟨connection, link, links, moved, rfl⟩
  have cases := step_cases moved
  have linked := ok.linked conId connection links
  have works := (cases.sends forward).works linked.record
  rcases ok.works (by rw [links]; rfl) works with ⟨tables, attached⟩
  constructor
  case tables => exact tables
  case pages => exact ok.pages
  case bufSize => exact ok.bufSize
  case attached =>
    intro conId'
    refine Eq.trans ?_ (attached conId').symm
    rw [← ok.attached conId']
    by_cases same : conId' = conId
    · subst same
      simp [links]
    · simp [same]
  case idle =>
    intro conId' none
    by_cases same : conId' = conId
    · subst same
      simp at none
    · simp only [setTerminal, Function.update_of_ne same] at none ⊢
      exact ok.idle conId' none
  case linked =>
    intro conId' connection' present
    by_cases same : conId' = conId
    · subst same
      simp only [Function.update_self, Option.some.injEq] at present
      subst present
      constructor
      case record => simp [setTerminal, Terminal.withReceiving]
      case rings => exact linked.rings
      case reads => simpa using cases.reads linked.reads
    · simp only [Function.update_of_ne same] at present
      rcases ok.linked conId' connection' present with ⟨record, rings, reads⟩
      constructor
      case record => simpa [setTerminal, Function.update_of_ne same] using record
      case rings => exact rings
      case reads => simpa [Function.update_of_ne same] using reads

theorem advance_part {conId' : ℕ} {action : LinkAction}
    {partAllowed : Connection → LinkAction → Prop}
    (admitted : conId = conId' → ∀ connection, lib.links conId' = some connection →
      partAllowed connection action)
    (stepped : lib.advance conId action = .ok lib') :
    connectionMachine.PartStep partAllowed (lib.links conId') (lib'.links conId') := by
  rcases advance_eq_ok.mp stepped with ⟨connection, link, links, moved, rfl⟩
  by_cases same : conId' = conId
  · subst same
    have goes : connectionMachine.step connection action = .ok { connection with link } := by
      simp [connectionMachine, moved, bind, Except.bind, pure, Except.pure]
    simp only [links, Function.update_self]
    exact .goes (admitted rfl connection links) goes
  · simp only [Function.update_of_ne same]
    exact .rests _

/-- Something is received. -/
theorem Ok.receive_step (ok : lib.Ok setup) (present : (lib.links conId).isSome) {other : Terminal}
    (edge : other.rcvEnd.trailingEdge ≠ 0) :
    (lib.setTerminal conId ((lib.host.connections conId).withReceiving other)).Ok setup := by
  have works : Terminal.Works (lib.host.connections conId)
      ((lib.host.connections conId).withReceiving other) :=
    ⟨rfl, fun edges => ⟨edge, edges.2⟩⟩
  rcases ok.works present works with ⟨tables, attached⟩
  constructor
  case tables => exact tables
  case pages => exact ok.pages
  case bufSize => exact ok.bufSize
  case attached => exact fun conId' => (ok.attached conId').trans (attached conId').symm
  case idle =>
    intro conId' absent
    have links : lib.links conId' = none := absent
    have different : conId' ≠ conId := by
      rintro rfl
      simp [links] at present
    simp only [setTerminal, Function.update_of_ne different]
    exact ok.idle conId' links
  case linked =>
    intro conId' connection links
    rcases ok.linked conId' connection links with ⟨record, rings, reads⟩
    refine ⟨?_, rings, reads⟩
    by_cases same : conId' = conId
    · subst same
      simp only [setTerminal, Function.update_self]
      conv_lhs => rw [record]
      rfl
    · simpa [setTerminal, Function.update_of_ne same] using record

/-- What a step can do: a step of the tables or of a connection, something received, or nothing. -/
inductive Moves (setup : Setup) (lib : Library queue) : LibraryAction → Library queue → Prop where
  | tables {action : HostAction} {memories : ℕ → Memory UInt8 × Memory UInt8} {host : Host queue}
      (moved : Host.step setup.config lib.host action = .ok host) :
      Moves setup lib (.host action memories)
        { lib with host, links := lib.relink setup.config host memories }
  | sent {handle : UInt64} {thread : ℕ} {req : SndReq} {conId : ℕ} {next : Library queue}
      (moved : lib.advance conId (.call thread req) = .ok next) :
      Moves setup lib (.send handle thread req) next
  | unsent {handle : UInt64} {thread : ℕ} {req : SndReq} :
      Moves setup lib (.send handle thread req) lib
  | link {conId : ℕ} {action : LinkAction} {next : Library queue}
      (moved : lib.advance conId action = .ok next) : Moves setup lib (.link conId action) next
  | received {conId : ℕ} {other : Terminal} (present : (lib.links conId).isSome) :
      Moves setup lib (.receive conId other)
        (lib.setTerminal conId ((lib.host.connections conId).withReceiving other))

theorem moves_of_step {action : LibraryAction}
    (stepped : lib.step setup.config action = .ok lib') : Moves setup lib action lib' := by
  cases action with
  | host action memories =>
      simp only [step, bind_eq_ok, pure, Except.pure, Except.ok.injEq] at stepped
      rcases stepped with ⟨host, stepped, rfl⟩
      exact .tables stepped
  | send handle thread req =>
      simp only [step, bind_eq_ok] at stepped
      rcases stepped with ⟨⟨status, _⟩, _, stepped⟩
      split at stepped
      · split at stepped
        · exact .sent stepped
        · cases stepped
          exact .unsent
      · cases stepped
        exact .unsent
  | link conId action => exact .link stepped
  | receive conId other =>
      rw [step] at stepped
      cases links : lib.links conId with
      | none => simp [links] at stepped
      | some connection =>
          simp only [links, Except.ok.injEq] at stepped
          subst stepped
          exact .received (by rw [links]; rfl)

theorem Ok.step_ok (ok : lib.Ok setup) (aligned : 16 ∣ setup.pages) {action : LibraryAction}
    (allowed : lib.Allowed action) (stepped : lib.step setup.config action = .ok lib') :
    lib'.Ok setup := by
  have moves := moves_of_step stepped
  cases moves with
  | tables moved => exact ok.host_step aligned allowed moved
  | sent moved => exact ok.advance_step (by simp) moved
  | unsent => exact ok
  | link moved =>
      refine ok.advance_step ?_ moved
      rintro edge rfl
      exact allowed
  | received present => exact ok.receive_step present allowed

theorem Ok.step_part (ok : lib.Ok setup) (aligned : 16 ∣ setup.pages) {action : LibraryAction}
    (allowed : lib.Allowed action) (stepped : lib.step setup.config action = .ok lib')
    (conId : ℕ) :
    connectionMachine.PartStep AnyStep (lib.links conId) (lib'.links conId) := by
  have moves := moves_of_step stepped
  cases moves with
  | tables moved => exact ok.host_part aligned allowed moved conId
  | sent moved => exact advance_part (fun _ _ _ => trivial) moved
  | link moved => exact advance_part (fun _ _ _ => trivial) moved
  | unsent | received => exact .rests _

/-- The invariant holds in every run. -/
theorem ok_of_reachable (aligned : 16 ∣ setup.pages)
    (reachable : (libraryMachine queue setup).Reachable Library.Allowed lib) : lib.Ok setup := by
  refine reachable.invariant (fun lib => lib.Ok setup) ok_of_start ?_
  exact fun ok allowed stepped => ok.step_ok aligned allowed stepped

/-- A connection at work is in a reachable state of its machine. -/
theorem connection_of_reachable (aligned : 16 ∣ setup.pages)
    (reachable : (libraryMachine queue setup).Reachable Library.Allowed lib)
    {connection : Connection} (present : lib.links conId = some connection) :
    connectionMachine.Reachable AnyStep connection := by
  have initial : ∀ {lib : Library queue}, (libraryMachine queue setup).start lib →
      lib.Ok setup ∧ lib.links conId = none := by
    intro lib started
    refine ⟨ok_of_start started, ?_⟩
    rcases started with ⟨host, _, rfl⟩
    rfl
  exact reachable.reachable_part (fun lib => lib.Ok setup) initial
    (fun ok allowed stepped => ok.step_ok aligned allowed stepped)
    (fun ok allowed stepped => ok.step_part aligned allowed stepped conId) present

end Library

end Invariant

section Connections

variable {connection : Connection}

/-- A connection begins with flow control and the discipline of the threads, whatever the count of
pending reads. -/
theorem connection_start (started : connectionMachine.start connection) :
    Flow connection.rings connection.link ∧ Discipline connection.link := by
  rcases connection with ⟨rings, link⟩
  rcases started with ⟨terminal, mem, rmt, prepared, same⟩
  dsimp only at prepared same
  subst same
  have fresh : (linkMachine rings).start
      { term := { terminal with pendingRead := 0 }, mem, rmt, landed := rings.ring } :=
    ⟨_, mem, rmt, prepared, rfl⟩
  exact ⟨(Flow.start fresh).frame rfl rfl rfl rfl rfl rfl rfl rfl rfl rfl rfl rfl,
    (Discipline.start fresh).environment ⟨rfl, rfl, rfl, rfl, rfl, rfl⟩ rfl rfl rfl le_rfl⟩

/-- Flow control and the discipline of the threads hold of every connection. -/
theorem connection_invariant (reachable : connectionMachine.Reachable AnyStep connection) :
    Flow connection.rings connection.link ∧ Discipline connection.link := by
  refine reachable.invariant
    (fun connection => Flow connection.rings connection.link ∧ Discipline connection.link)
    connection_start ?_
  · rintro connection action next ⟨flow, discipline⟩ _ stepped
    simp only [connectionMachine, bind_eq_ok, pure, Except.pure, Except.ok.injEq] at stepped
    rcases stepped with ⟨link, stepped, rfl⟩
    have cases := step_cases stepped
    exact ⟨flow.step discipline.emitReady cases, discipline.step flow cases⟩

/-- A connection without canceled reads began with a count of zero, and is a run of one connection
on its own. -/
theorem connection_is_link (reachable : connectionMachine.Reachable AnyStep connection)
    (reads : connection.link.term.pendingRead = connection.link.outReads) :
    (linkMachine connection.rings).Reachable AnyAction connection.link := by
  have counted : ∃ canceled, connection.link.term.pendingRead =
      connection.link.outReads + canceled ∧
      (canceled = 0 → (linkMachine connection.rings).Reachable AnyAction connection.link) := by
    refine reachable.invariant (fun connection => ∃ canceled, connection.link.term.pendingRead =
      connection.link.outReads + canceled ∧
      (canceled = 0 → (linkMachine connection.rings).Reachable AnyAction connection.link)) ?_ ?_
    · rintro ⟨rings, link⟩ ⟨terminal, mem, rmt, prepared, same⟩
      dsimp only at prepared same
      subst same
      refine ⟨terminal.pendingRead, (Nat.zero_add _).symm, fun none => ?_⟩
      have whole : { terminal with pendingRead := 0 } = terminal := by rw [← none]
      rw [whole] at prepared
      exact .of_start ⟨terminal, mem, rmt, prepared, rfl⟩
    · rintro connection action next ⟨canceled, counted, before⟩ _ stepped
      simp only [connectionMachine, bind_eq_ok, pure, Except.pure, Except.ok.injEq] at stepped
      rcases stepped with ⟨link, stepped, rfl⟩
      refine ⟨_, (step_cases stepped).reads counted, fun none => ?_⟩
      exact (before (by omega)).tail trivial stepped
  rcases counted with ⟨canceled, counted, runs⟩
  exact runs (by omega)

end Connections

section Results

/-- In every reachable state the terminals of the connected sockets, and no others, have a
connection.  Its ring is the one `GetSndBuf` returns and shares no byte with another's, the
terminal's record shows its fields, its flow control is safe and its requests are in order, and if
no read of the terminal was ever canceled it is a reachable state of one connection on its own. -/
theorem connections_safe (queue : CircularQue ℕ) (setup : Setup) (aligned : 16 ∣ setup.pages)
    {lib : Library queue} (reachable : (libraryMachine queue setup).Reachable Library.Allowed lib)
    (conId : ℕ) :
    ((lib.links conId).isSome ↔ ∃ id, setup.config.SockId id ∧
      (lib.host.sockTbl id).state = .connected ∧ (lib.host.sockTbl id).term = conId) ∧
    ∀ connection, lib.links conId = some connection →
      Host.getSndBuf setup.config conId lib.host = .ok (connection.rings.sendBuf, lib.host) ∧
      (∀ conId' connection', lib.links conId' = some connection' → conId' ≠ conId →
        Disjoint connection.rings.sendBuf.bytes connection'.rings.sendBuf.bytes) ∧
      lib.host.connections conId =
        connection.link.term.withReceiving (lib.host.connections conId) ∧
      FlowSafe connection.rings connection.link ∧ InOrder connection.link ∧
      (lib.canceled conId = 0 →
        (linkMachine connection.rings).Reachable AnyAction connection.link) := by
  have ok := Library.ok_of_reachable aligned reachable
  rcases ok.tables with ⟨listeners, tables⟩
  have attached : ∀ conId, (lib.links conId).isSome ↔ ∃ id, setup.config.SockId id ∧
      (lib.host.sockTbl id).state = .connected ∧ (lib.host.sockTbl id).term = conId := by
    intro conId
    rw [ok.attached conId]
    exact Host.attached_iff tables
  have termId : ∀ {conId connection}, lib.links conId = some connection →
      setup.config.TermId conId := by
    intro conId connection links
    rcases (attached conId).mp (by rw [links]; rfl) with ⟨id, sockId, connected, rfl⟩
    have fits := tables.slots.sockets id (.of_none sockId rfl)
    simp only [SocketOk, connected] at fits
    exact fits.1.term
  refine ⟨attached conId, fun connection links => ?_⟩
  have linked := ok.linked conId connection links
  have started := Library.connection_of_reachable aligned reachable links
  rcases connection_invariant started with ⟨flow, discipline⟩
  refine ⟨?_, ?_, linked.record, flow.safe, discipline.inOrder, ?_⟩
  · rw [linked.rings]
    exact Host.getSndBuf_ring tables.rings (termId links)
  · intro conId' connection' links' different
    rw [linked.rings, (ok.linked conId' connection' links').rings]
    exact ringAt_disjoint (termId links).1 (termId links').1 (by simp [different.symm])
  · intro none
    apply connection_is_link started
    rw [linked.reads, none, Nat.add_zero]

/-- The thread an action moves in a connection. -/
def LibraryAction.thread? : LibraryAction → Option ℕ
  | .send _ thread _ => some thread
  | .link _ action => action.thread?
  | _ => none

/-- The actions of a client with one thread that closes nothing. -/
def LibraryAction.routine : LibraryAction → Bool
  | .host (.send _ _) _ | .host (.closeTerminal _ _) _ => false
  | .host _ _ => true
  | .send _ thread _ => thread = 0
  | .link _ (.run thread _) => thread = 0
  | _ => false

theorem LibraryAction.routine_allowed {action : LibraryAction} (routine : action.routine = true)
    (lib : Library queue) :
    lib.Allowed action ∧ ∀ thread, thread ≠ 0 → action.thread? ≠ some thread := by
  cases action with
  | host action memories =>
      refine ⟨?_, fun _ _ => by simp [thread?]⟩
      cases action
      case send => cases routine
      case closeTerminal => cases routine
      all_goals trivial
  | send handle thread req =>
      have zero : thread = 0 := of_decide_eq_true routine
      exact ⟨trivial, fun other different => by simpa [thread?, zero] using different.symm⟩
  | link conId action =>
      cases action
      case run thread replies =>
        have zero : thread = 0 := of_decide_eq_true routine
        refine ⟨trivial, fun other different => ?_⟩
        simpa [thread?, LinkAction.thread?, zero] using different.symm
      all_goals cases routine
  | receive => cases routine

/-- The sample with its connections. -/
def sampleLibrary : Library (boundedQueue ℕ) := { host := sampleHost }

abbrev sampleMachine : Machine (Library (boundedQueue ℕ)) LibraryAction Stop :=
  libraryMachine (boundedQueue ℕ) (sampleSetup 8192 1)

theorem sampleLibrary_start : sampleMachine.start sampleLibrary :=
  ⟨sampleHost, sampleHost_made, rfl⟩

/-- All memory is zero. -/
def blankMemories : ℕ → Memory UInt8 × Memory UInt8 := fun _ => (fun _ => 0, fun _ => 0)

def onTables (actions : List HostAction) : List LibraryAction :=
  actions.map fun action => .host action blankMemories

/-- A message of 16 bytes is sent to the accepted socket by a thread that takes some steps. -/
def sampleSend (steps : ℕ) (replies : SendReplies) : List LibraryAction :=
  .send 0x100000002 0 (filledReq 16 0x41) :: List.replicate steps (.link 1 (.run 0 replies))

/-- The accepted socket has sent a message: a frame of 48 bytes. -/
theorem connections_safe_message :
    ∃ (lib : Library (boundedQueue ℕ)) (connection : Connection), lib.links 1 = some connection ∧
      connection.link.written = 48 ∧ FlowSafe connection.rings connection.link := by
  have passes : (sampleMachine.execute sampleLibrary
      (onTables sampleConnected ++ sampleSend 4 {})).toOption.any
        (fun lib => (lib.links 1).any fun connection => connection.link.written = 48) = true := by
    decide +kernel
  have routine : (onTables sampleConnected ++ sampleSend 4 {}).all LibraryAction.routine = true :=
    rfl
  rcases Machine.Reachable.of_execute sampleLibrary_start (fun lib action member =>
    (LibraryAction.routine_allowed (List.all_eq_true.mp routine action member) lib).1) passes with
    ⟨lib, reachable, holds⟩
  cases links : lib.links 1 with
  | none => simp [links] at holds
  | some connection =>
      simp only [links, Option.any_some, decide_eq_true_eq] at holds
      have safe := (connections_safe (boundedQueue ℕ) (sampleSetup 8192 1) (by decide) reachable
        1).2 connection links
      exact ⟨lib, connection, links, holds, safe.2.2.2.1⟩

end Results

end Hermes
