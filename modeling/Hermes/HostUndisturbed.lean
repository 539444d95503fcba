import Hermes.HostLife

/-!
# Connections do not disturb each other

A connected socket and its terminal are out of the scope of every operation and every
completion that is not called for them, so in every run they stay as they are until the
socket's own `Send` queues a request or `TerminalCloser` ends the connection.
-/

namespace Hermes

open Program

variable {queue : CircularQue ℕ} {config : HostConfig}

namespace Host

section Steps

variable {listeners : List ℕ} {host : Host queue} {id termId : ℕ}

/-- Everything but one socket and its terminal. -/
def Scope.besides (id termId : ℕ) : Scope :=
  ⟨fun id' => id' ≠ id, fun conId => conId ≠ termId, True, True, True⟩

/-- What keeps a step away from one connected socket and its terminal. -/
theorem within_of_connected (ok : HostOk config openMode listeners {} host)
    (sockId : config.SockId id) (connected : (host.sockTbl id).state = .connected) :
    Within config (.besides id (host.sockTbl id).term) host := by
  have settled : ∀ {id'}, config.SockId id' → Hand.Settled config {} id' :=
    fun inRange => .of_none inRange rfl
  have fits := ok.slots.sockets id (settled sockId)
  simp only [SocketOk, connected] at fits
  have owns := fits.1
  constructor
  case invalid => exact owns.term.ne.symm
  case pool =>
    rintro _ conId member rfl
    exact (ok.slots.owned id (settled sockId) owns.term.ne).1 member
  case free =>
    rintro id' state rfl
    exact state trivial connected
  case owned =>
    intro _ id' inRange other same
    exact other (ok.slots.ownedOnce id id' (settled sockId) (settled inRange) owns.term.ne
      same.symm).symm
  case capacity => exact fun _ => ok.sockCapacity
  case index => exact fun _ _ inRange => handleToId_sock ok inRange
  case calm => exact fun dies => absurd trivial dies

/-- `TerminalCloser` closes the socket of a started terminal. -/
theorem closeTerminal_closes (ok : HostOk config openMode listeners {} host)
    (notices : List StatusCode) :
    Ensures (closeTerminal config termId notices)
      (fun _ after => HostOk config openMode listeners {} after ∧ config.TermId termId ∧
        ∃ id, config.SockId id ∧ (host.sockTbl id).term = termId ∧ Closed id host after)
      (fun _ => True) host := by
  by_cases inRange : config.TermId termId
  · by_cases idle : (host.connections termId).pDisconnectCont = none
    · unfold closeTerminal
      refine ensures_getTerminal inRange ?_
      rw [if_pos idle]
      exact trivial
    · refine (closeStarted_ensures ok rfl inRange idle nofun notices).mono ?_ fun _ stops => stops
      exact fun _ _ closed => ⟨closed.1, inRange, closed.2⟩
  · unfold closeTerminal
    exact ensures_getTerminal_of (fun _ => trivial) fun inRange' => absurd inRange' inRange

/-- `Send` queues a request with the terminal of its socket. -/
theorem send_touches (ok : HostOk config openMode listeners {} host) {id : ℕ}
    (sockId : config.SockId id) (connected : (host.sockTbl id).state = .connected)
    (handle : UInt64) (req : SndReq) :
    Ensures (send config handle req) (fun _ after => after.sockTbl = host.sockTbl ∧
      (after.connections (host.sockTbl id).term = host.connections (host.sockTbl id).term ∨
        handle = (host.sockTbl id).handle ∧ after.connections (host.sockTbl id).term =
          ((host.connections (host.sockTbl id).term).sendLocked req).1))
      (fun _ => True) host := by
  have quiet : ∀ status : StatusCode, Ensures (pure status : Code queue StatusCode)
      (fun _ after => after.sockTbl = host.sockTbl ∧
        (after.connections (host.sockTbl id).term = host.connections (host.sockTbl id).term ∨
          handle = (host.sockTbl id).handle ∧ after.connections (host.sockTbl id).term =
            ((host.connections (host.sockTbl id).term).sendLocked req).1))
      (fun _ => True) host := fun _ => ⟨rfl, .inl rfl⟩
  unfold send
  split
  · exact quiet _
  refine .step apply_get ?_
  cases found : host.findSocket handle with
  | none => exact quiet _
  | some pSock =>
      rcases findSocket_some ok found with ⟨inRange, _, same⟩
      dsimp only
      split
      · exact quiet _
      split
      · exact quiet _
      refine ensures_getTerminal_of (fun _ => trivial) fun _ => ?_
      refine ensures_audit (fun _ => trivial) fun _ => .step rfl (.of_eq rfl ⟨rfl, ?_⟩)
      by_cases equal : pSock = id
      · subst equal
        exact .inr ⟨same.symm, Function.update_self _ _ _⟩
      · left
        apply Function.update_of_ne
        intro sameTerm
        exact (within_of_connected ok sockId connected).owned trivial inRange equal sameTerm.symm

end Steps

end Host

section Runs

variable {setup : Setup} {host after : Host queue}

/-- A step that neither sends on a connected socket nor ends its connection leaves the socket and
the record of its terminal as they are. -/
theorem Host.step_undisturbed {listeners : List ℕ} {host after : Host queue} {id : ℕ}
    {action : HostAction} (ok : HostOk config openMode listeners {} host)
    (sockId : config.SockId id) (connected : (host.sockTbl id).state = .connected)
    (stepped : Host.step config host action = .ok after) :
    (∃ notices, action = .closeTerminal (host.sockTbl id).term notices) ∨
    after.sockTbl id = host.sockTbl id ∧
      (after.connections (host.sockTbl id).term = host.connections (host.sockTbl id).term ∨
        ∃ req, action = .send (host.sockTbl id).handle req ∧
          after.connections (host.sockTbl id).term =
            ((host.connections (host.sockTbl id).term).sendLocked req).1) := by
  rcases Host.step_eq_ok.mp stepped with ⟨done, performed⟩
  have fits := ok.slots.sockets id (.of_none sockId rfl)
  simp only [SocketOk, connected] at fits
  rcases fits with ⟨owns, begun⟩
  have mem : (host.connections (host.sockTbl id).term).pMemRegion ≠ none :=
    ok.regions.started owns.term (by simp) begun
  have plainly : action.Plain → (∀ handle req, action ≠ .send handle req) →
      after.sockTbl id = host.sockTbl id ∧
        after.connections (host.sockTbl id).term = host.connections (host.sockTbl id).term := by
    intro plain quiet
    have inScope := Host.inScope_perform trivial trivial trivial ok
      (Host.within_of_connected ok sockId connected) plain quiet
    have lived := (inScope.of_ok performed).lived trivial
    exact ⟨(lived.socks id (by simp [Host.Scope.besides])).1,
      lived.terms _ (by simp [Host.Scope.besides]) (ok.regions.both owns.term mem) mem⟩
  cases action
  case send handle req =>
    rcases Program.bind_eq_ok.mp performed with ⟨status, last, sent, returned⟩
    cases returned
    have touched := (Host.send_touches ok sockId connected handle req).of_ok sent
    rcases touched with ⟨sockTbl, same | ⟨rfl, queued⟩⟩
    · exact .inr ⟨by rw [sockTbl], .inl same⟩
    · exact .inr ⟨by rw [sockTbl], .inr ⟨req, rfl, queued⟩⟩
  case closeTerminal termId notices =>
    by_cases same : termId = (host.sockTbl id).term
    · exact .inl ⟨notices, by rw [same]⟩
    rcases (Host.closeTerminal_closes ok notices).of_ok performed with
      ⟨_, _, owner, _, rfl, closed⟩
    have other : id ≠ owner := by
      rintro rfl
      exact same rfl
    exact .inr ⟨closed.others id other, .inl (closed.connections _ (Ne.symm same))⟩
  all_goals
    rcases plainly trivial (by simp) with ⟨sockets, terms⟩
    exact .inr ⟨sockets, .inl terms⟩

/-- Nothing another socket goes through disturbs a connection: in every reachable state a step
leaves a connected socket and the record of its terminal exactly as they are, unless it is a `Send`
on this socket, which only queues the request, or the end of this connection. -/
theorem connections_undisturbed (queue : CircularQue ℕ) (setup : Setup) {host after : Host queue}
    (reachable : (hostMachine queue setup).Reachable (fun _ _ => True) host) {id : ℕ}
    (sockId : setup.config.SockId id) (connected : (host.sockTbl id).state = .connected)
    {action : HostAction} (stepped : Host.step setup.config host action = .ok after) :
    (∃ notices, action = .closeTerminal (host.sockTbl id).term notices) ∨
    after.sockTbl id = host.sockTbl id ∧
      (after.connections (host.sockTbl id).term = host.connections (host.sockTbl id).term ∨
        ∃ req, action = .send (host.sockTbl id).handle req ∧
          after.connections (host.sockTbl id).term =
            ((host.connections (host.sockTbl id).term).sendLocked req).1) := by
  rcases hostOk_of_any reachable with ⟨listeners, ok⟩
  exact Host.step_undisturbed ok sockId connected stepped

/-- Every call of an accept succeeds at once. -/
def sampleAgreed : Replies :=
  { sampleRegistered with
    getConnectionRequest := ndSuccess
    handShake := ⟨⟨4096, 0⟩, 0x900000, 0x910000, 7, 8⟩
    accept := ndSuccess
    localIp := 0x0A000001 }

/-- The second socket is connected. -/
def sampleConnected : List HostAction :=
  sampleListen ++ [.accept sampleHandle 5 6 sampleAgreed]

/-- The listener of a connected socket is closed. -/
theorem connections_undisturbed_close :
    ∃ host after : Host (boundedQueue ℕ), (host.sockTbl 2).state = .connected ∧
      (host.sockTbl 1).state ≠ (after.sockTbl 1).state ∧ after.sockTbl 2 = host.sockTbl 2 := by
  have passes : (sampleRun sampleConnected).toOption.any (fun host =>
      (host.sockTbl 2).state = .connected ∧
        (Host.step (sampleSetup 8192 1).config host (.closeSocket sampleHandle 0)).toOption.any
          (fun after => (host.sockTbl 1).state ≠ (after.sockTbl 1).state) = true) = true := by
    decide +kernel
  rcases sampleRun_reaches (fun _ _ _ => trivial) passes with ⟨host, reachable, holds⟩
  rcases of_decide_eq_true holds with ⟨connected, closes⟩
  cases stepped : Host.step (sampleSetup 8192 1).config host (.closeSocket sampleHandle 0) with
  | error stop =>
      rw [stepped] at closes
      cases closes
  | ok after =>
      rw [stepped] at closes
      have sockId : (sampleSetup 8192 1).config.SockId 2 := ⟨by decide, by decide⟩
      have undisturbed := connections_undisturbed (boundedQueue ℕ) (sampleSetup 8192 1) reachable
        sockId connected stepped
      rcases undisturbed with ⟨_, impossible⟩ | ⟨same, _⟩
      · cases impossible
      · exact ⟨host, after, connected, of_decide_eq_true closes, same⟩

end Runs

end Hermes
