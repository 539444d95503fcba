import Hermes.HostTables

/-!
# References to listeners

A listener object has one reference for the listening socket that holds it and one for
each accept that waits at it, unless an `Accept` failed to get its queues: the reference
this call added is never released.
-/

namespace Hermes

open Program

variable {queue : CircularQue ℕ} {config : HostConfig} {host : Host queue} {setup : Setup}
  {action : HostAction}

section Counts

/-- Every `Accept` that gets to its terminal gets the queues it asks for. -/
def Host.GetsQues (config : HostConfig) (host : Host queue) : HostAction → Prop
  | .accept handle _ _ replies => host.Accepts handle → replies.makesQues config = true
  | _ => True

/-- Runs in which references to listeners are counted. -/
def countMode : Mode := { closers := true, strict := false, exact := true }

theorem Host.GetsQues.admits (gets : Host.GetsQues config host action) :
    Host.Admits config countMode host action := by
  cases action
  case accept => exact ⟨nofun, fun _ => gets⟩
  case connect => exact nofun
  case closeTerminal => exact ⟨rfl, nofun⟩
  all_goals exact trivial

/-- A socket that listens holds the listener. -/
def Host.Holds (config : HostConfig) (host : Host queue) (listener : ℕ) : Prop :=
  ∃ id, config.SockId id ∧ (host.sockTbl id).state = .listening ∧
    (host.sockTbl id).pListen = some listener

/-- In every run whose accepts get their queues, the references to a listener are one for the
listening socket that holds it, and one for each accept that waits for a connection at it. -/
theorem listener_references (queue : CircularQue ℕ) (setup : Setup) {host : Host queue}
    {listeners : List ℕ}
    (reachable : (listenMachine queue setup).Reachable
      (fun state action => Host.GetsQues setup.config state.1 action) (host, listeners))
    {listener : ℕ} (made : listener ∈ listeners) :
    (host.Holds setup.config listener →
      host.refs listener = 1 + waiting host.overlaps host.pending listener) ∧
    (¬host.Holds setup.config listener →
      host.refs listener = waiting host.overlaps host.pending listener) ∧
    (¬host.Holds setup.config listener → waiting host.overlaps host.pending listener = 0 →
      host.refs listener = 0) := by
  have admitted : (listenMachine queue setup).Reachable
      (fun state => Host.Admits setup.config countMode state.1) (host, listeners) :=
    reachable.mono Host.GetsQues.admits
  have ok := reachable_hostOk admitted
  rcases ok.listens with ⟨leaked, exact, counts⟩
  cases exact rfl
  have unheld : ¬host.Holds setup.config listener →
      host.refs listener = waiting host.overlaps host.pending listener := by
    intro nobody
    refine counts.unheld listener made ?_
    intro id settled holds
    have listening := (ok.slots.sockets id settled).parts.2.mp (by rw [holds]; exact nofun)
    exact nobody ⟨id, settled.1, listening, holds⟩
  refine ⟨?_, unheld, fun nobody none => (unheld nobody).trans none⟩
  rintro ⟨id, sockId, _, holds⟩
  exact (counts.held (.of_none sockId rfl) holds).2

/-- In every reachable state a listener has a reference for each accept that waits at it. -/
theorem HostOk.refs_ne_zero {mode : Mode} {listeners : List ℕ} {ov id listener : ℕ}
    (ok : HostOk config mode listeners {} host) (waits : host.Pends ov (.onConn id listener)) :
    host.refs listener ≠ 0 := by
  rcases ok.listens with ⟨leaked, _, counts⟩
  have made := (counts.jobs ov waits.1 _ waits.2).1 listener rfl
  have counted : 0 < waiting host.overlaps host.pending listener := by
    apply List.countP_pos_iff.mpr
    refine ⟨ov, waits.1, ?_⟩
    simp [waits.2, AsyncJob.listens?]
  by_cases held : ∃ id, Hand.Settled config {} id ∧ (host.sockTbl id).pListen = some listener
  · rcases held with ⟨id, settled, holds⟩
    have refs := (counts.held settled holds).2
    omega
  · have refs := counts.unheld listener made fun id settled holds => held ⟨id, settled, holds⟩
    omega

/-- The end of a list of actions of the sample, with the listeners made. -/
def sampleListeners (actions : List HostAction) : Except Stop (Host (boundedQueue ℕ) × List ℕ) :=
  (listenMachine (boundedQueue ℕ) (sampleSetup 8192 1)).execute (sampleHost, []) actions

theorem sampleListeners_reaches {allowed : Host (boundedQueue ℕ) × List ℕ → HostAction → Prop}
    {actions : List HostAction} {test : Host (boundedQueue ℕ) × List ℕ → Bool}
    (admitted : ∀ state, ∀ action ∈ actions, allowed state action)
    (passes : (sampleListeners actions).toOption.any test = true) :
    ∃ state, (listenMachine (boundedQueue ℕ) (sampleSetup 8192 1)).Reachable allowed state ∧
      test state = true :=
  Machine.Reachable.of_execute ⟨sampleHost_made, rfl⟩ admitted passes

/-- An accept waits at the listener of a socket. -/
theorem listener_references_pending_accept :
    ∃ host : Host (boundedQueue ℕ), host.Holds (sampleSetup 8192 1).config 0 ∧
      waiting host.overlaps host.pending 0 = 1 ∧
      host.refs 0 = 1 + waiting host.overlaps host.pending 0 := by
  have passes : (sampleListeners (sampleListen ++ [.accept sampleHandle 5 6 {}])).toOption.any
      (fun state => (state.2 = [0] ∧ waiting state.1.overlaps state.1.pending 0 = 1) ∧
        (state.1.sockTbl 1).state = .listening ∧ (state.1.sockTbl 1).pListen = some 0) = true := by
    decide +kernel
  have gets : ∀ state : Host (boundedQueue ℕ) × List ℕ,
      ∀ action ∈ sampleListen ++ [.accept sampleHandle 5 6 {}],
        Host.GetsQues (sampleSetup 8192 1).config state.1 action := by
    intro state
    simp only [sampleListen, List.cons_append, List.nil_append, List.mem_cons, List.not_mem_nil,
      or_false, forall_eq_or_imp, forall_eq]
    exact ⟨trivial, trivial, fun _ => by decide⟩
  rcases sampleListeners_reaches gets passes with
    ⟨⟨host, listeners⟩, reachable, holds⟩
  rcases of_decide_eq_true holds with ⟨⟨made, waits⟩, listening, pListen⟩
  have held : host.Holds (sampleSetup 8192 1).config 0 :=
    ⟨1, ⟨by decide, by decide⟩, listening, pListen⟩
  refine ⟨host, held, waits, (listener_references _ _ reachable ?_).1 held⟩
  rw [show listeners = [0] from made]
  exact List.mem_singleton_self 0

theorem sampleSockId {id : ℕ} (sockId : (sampleSetup 8192 1).config.SockId id) :
    id = 1 ∨ id = 2 := by
  have max : (sampleSetup 8192 1).config.maxConnection = 1 := rfl
  rcases sockId with ⟨low, high⟩
  omega

/-- An accept whose completion queue is refused, and the socket closed after it. -/
def sampleLeak : List HostAction :=
  sampleListen ++ [.accept sampleHandle 5 6 { createCompletionQueue := ndConnectionRefused },
    .closeSocket sampleHandle 0]

/-- The listener keeps a reference, though nobody holds it and no accept waits at it. -/
theorem failed_accept_leaks_reference :
    ∃ host : Host (boundedQueue ℕ),
      (listenMachine (boundedQueue ℕ) (sampleSetup 8192 1)).Reachable (fun _ _ => True)
        (host, [0]) ∧
      ¬host.Holds (sampleSetup 8192 1).config 0 ∧ host.pending = [] ∧ host.refs 0 = 1 := by
  have passes : (sampleListeners sampleLeak).toOption.any
      (fun state => (state.2 = [0] ∧ state.1.pending = [] ∧ state.1.refs 0 = 1) ∧
        (state.1.sockTbl 1).pListen = none ∧ (state.1.sockTbl 2).pListen = none) = true := by
    decide +kernel
  rcases sampleListeners_reaches (fun _ _ _ => trivial) passes with
    ⟨⟨host, listeners⟩, reachable, holds⟩
  rcases of_decide_eq_true holds with ⟨⟨rfl, pending, refs⟩, first, second⟩
  refine ⟨host, reachable, ?_, pending, refs⟩
  rintro ⟨id, sockId, _, holds⟩
  rcases sampleSockId sockId with rfl | rfl
  · rw [first] at holds
    cases holds
  · rw [second] at holds
    cases holds

end Counts

end Hermes
