import Hermes.Base.Merge
import Hermes.LibraryRun
import Hermes.LinkStream

/-!
# From `Send` to the peer

What an application passes to `Send` on a connected socket, from any number of
threads, is what the peer can read from its ring: each request is inserted once, in
the order of its thread, and the packets at the peer are a prefix of the encoding of
the messages inserted.  `messages_intact` says so of runs of the whole library,
whatever the provider refuses and the other sockets do, and however the terminal was
used before.  `messages_delivered` is about connections whose writes the provider
takes: they never stop the process, and nothing is missing at the peer in the end.
-/

namespace Hermes

open Memory Packets Program

variable {queue : CircularQue ℕ} {setup : Setup}

section Accounts

variable {config : LinkConfig} {link link' : Link} {thread : ℕ} {stack : List Activation}

/-- The request with which a thread is inside `Send`, before it inserts it. -/
def Activation.sending? : Activation → Option SndReq
  | sending req => some req
  | _ => none

/-- The requests with which a thread is inside `Send`. -/
def Link.inSend (link : Link) (thread : ℕ) : List SndReq :=
  (link.threads thread).filterMap Activation.sending?

/-- The request an action passes to `Send`, with its thread. -/
def LinkAction.passes : LinkAction → List (ℕ × SndReq)
  | .call thread req => if sendAdmits req.buf then [(thread, req)] else []
  | _ => []

/-- Of the requests passed to `Send`, each thread's are inserted in order, up to one. -/
def Link.Accounts (link : Link) (passed : List (ℕ × SndReq)) : Prop :=
  ∃ inserted : ℕ → List SndReq, Merges inserted link.inserted ∧
    ∀ thread, ofSource passed thread = inserted thread ++ link.inSend thread

theorem Link.inSend_setStack_self : (link.setStack thread stack).inSend thread =
    stack.filterMap Activation.sending? := by
  rw [Link.inSend, setStack_self]

theorem Link.inSend_setStack_other {other : ℕ} (different : other ≠ thread) :
    (link.setStack thread stack).inSend other = link.inSend other := by
  rw [Link.inSend, setStack_other link different, Link.inSend]

theorem StackShape.sendsOnce {req : SndReq} {rest : List Activation}
    (shape : StackShape (.sending req :: rest)) : rest.filterMap Activation.sending? = [] := by
  cases shape <;> rfl

theorem StackShape.free (shape : StackShape stack) (free : callsFrom stack = true) :
    stack.filterMap Activation.sending? = [] := by
  cases shape with
  | idle => rfl
  | single activation => cases activation <;> simp_all [callsFrom, Activation.sending?]
  | nested => cases free

theorem sending?_afterEdge (packet : Option (NextPacket × HRESULT)) :
    (afterEdge packet).filterMap Activation.sending? = [] := by
  cases packet <;> rfl

namespace Link.Accounts

variable {passed : List (ℕ × SndReq)}

/-- A thread goes on, and is inside `Send` as before. -/
theorem goes (accounts : link.Accounts passed) {base : Link}
    (inserted : base.inserted = link.inserted) (threads : base.threads = link.threads)
    (same : stack.filterMap Activation.sending? = link.inSend thread) :
    (base.setStack thread stack).Accounts passed := by
  rcases accounts with ⟨sequences, merges, balanced⟩
  refine ⟨sequences, inserted ▸ merges, fun other => ?_⟩
  rw [balanced other]
  by_cases here : other = thread
  · subst here
    rw [Link.inSend_setStack_self, same]
  · rw [Link.inSend_setStack_other here, Link.inSend, Link.inSend, threads]

/-- A thread inserts the request it is inside `Send` with. -/
theorem inserts (accounts : link.Accounts passed) {base : Link} {req : SndReq}
    {rest : List Activation} (stackEq : link.threads thread = .sending req :: rest)
    (shape : StackShape (link.threads thread)) (inserted : base.inserted = link.inserted ++ [req])
    (threads : base.threads = link.threads)
    (same : stack.filterMap Activation.sending? = rest.filterMap Activation.sending?) :
    (base.setStack thread stack).Accounts passed := by
  rcases accounts with ⟨sequences, merges, balanced⟩
  have concat := merges.concat thread req
  rw [← inserted] at concat
  refine ⟨_, concat, fun other => ?_⟩
  rw [balanced other]
  by_cases here : other = thread
  · subst here
    rw [stackEq] at shape
    have only : link.inSend other = [req] := by
      rw [Link.inSend, stackEq]
      exact congrArg (req :: ·) shape.sendsOnce
    rw [Link.inSend_setStack_self, same, shape.sendsOnce, only, Function.update_self,
      List.append_nil]
  · rw [Link.inSend_setStack_other here, Function.update_of_ne here, Link.inSend, Link.inSend,
      threads]

/-- A thread's step. -/
theorem run (accounts : link.Accounts passed) (discipline : Discipline link)
    {replies : SendReplies} (ran : RunStep config link thread replies link') :
    link'.Accounts passed := by
  have shape := discipline.shape thread
  cases ran with
  | queued stackEq | entered stackEq => exact accounts.inserts stackEq shape rfl rfl rfl
  | skipped stackEq | read stackEq =>
      refine accounts.goes rfl rfl ?_
      simp [Link.inSend, stackEq, sending?_afterEdge, List.filterMap_cons, Activation.sending?]
  | dropped stackEq | posted stackEq | checked stackEq | noSpace stackEq | space stackEq
  | left stackEq | closed stackEq | passed stackEq | again stackEq | finished stackEq
  | notified stackEq | returned stackEq | emptied stackEq | popped stackEq =>
      refine accounts.goes rfl rfl ?_
      simp [Link.inSend, stackEq, List.filterMap_cons, Activation.sending?]

/-- A call of `Send` is accounted for until its request is inserted, and no step loses, repeats or
reorders a thread's requests. -/
theorem step (accounts : link.Accounts passed) (discipline : Discipline link)
    {action : LinkAction} (stepped : LinkStep config link action link') :
    link'.Accounts (passed ++ action.passes) := by
  cases stepped with
  | @called thread req free admitted =>
      rcases accounts with ⟨sequences, merges, balanced⟩
      refine ⟨sequences, merges, fun other => ?_⟩
      have none := (discipline.shape thread).free free
      simp only [LinkAction.passes, if_pos admitted, ofSource_append, balanced other]
      by_cases here : other = thread
      · subst here
        rw [Link.inSend_setStack_self, Link.inSend, none]
        simp [Activation.sending?, none]
      · rw [Link.inSend_setStack_other here, ofSource_single_ne here, List.append_nil]
  | refused rejected =>
      simpa [LinkAction.passes, rejected] using accounts
  | entered free =>
      simp only [LinkAction.passes, List.append_nil]
      exact accounts.goes rfl rfl (by simp [Link.inSend, List.filterMap_cons, Activation.sending?])
  | run ran => simpa [LinkAction.passes] using accounts.run discipline ran
  | _ =>
      simp only [LinkAction.passes, List.append_nil]
      exact accounts

theorem start (inserted : link.inserted = []) (threads : ∀ thread, link.threads thread = []) :
    link.Accounts [] :=
  ⟨fun _ => [], by rw [inserted]; exact .nil, fun thread => by simp [Link.inSend, threads]⟩

end Link.Accounts

end Accounts

section Serves

variable {connection : Connection} {passed : List (ℕ × SndReq)}

/-- A connection that has been passed exactly these requests. -/
structure Connection.Serves (connection : Connection) (passed : List (ℕ × SndReq)) : Prop where
  flow : Flow connection.rings connection.link
  discipline : Discipline connection.link
  accounts : connection.link.Accounts passed

namespace Connection.Serves

theorem start (started : connectionMachine.start connection) : connection.Serves [] := by
  rcases connection_start started with ⟨flow, discipline⟩
  rcases started with ⟨terminal, mem, rmt, _, same⟩
  refine ⟨flow, discipline, ?_⟩
  rw [same]
  exact .start rfl fun _ => rfl

theorem step (serves : connection.Serves passed) {action : LinkAction} {link : Link}
    (stepped : connection.link.step connection.rings action = .ok link) :
    ({ connection with link } : Connection).Serves (passed ++ action.passes) := by
  have cases := step_cases stepped
  constructor
  case flow => exact serves.flow.step serves.discipline.emitReady cases
  case discipline => exact serves.discipline.step serves.flow cases
  case accounts => exact serves.accounts.step serves.discipline cases

/-- What the peer has taken and finds in its ring begins the encoding of the messages. -/
theorem reads (serves : connection.Serves passed) :
    ∃ resident, connection.link.resident connection.rings = .ok resident ∧
      connection.link.taken ++ resident <+: canonical connection.link.messages := by
  rcases resident_prefix serves.flow with ⟨resident, found, isPrefix⟩
  refine ⟨resident, found, ?_⟩
  rw [canonical_messages]
  exact isPrefix.trans serves.discipline.inOrder.processed

/-- When no thread is inside `Send`, the requests of all threads have been inserted. -/
theorem inserts (serves : connection.Serves passed)
    (returned : ∀ thread, connection.link.inSend thread = []) :
    Merges (ofSource passed) connection.link.inserted := by
  rcases serves.accounts with ⟨sequences, merges, balanced⟩
  have same : ofSource passed = sequences := by
    funext thread
    rw [balanced thread, returned thread, List.append_nil]
  rwa [same]

end Connection.Serves

/-- A faithful step of a connection. -/
def FaithfulStep (connection : Connection) (action : LinkAction) : Prop :=
  Faithful connection.link action

/-- A connection that has been faithful since it began, with any count of pending reads. -/
theorem connection_sound (reachable : connectionMachine.Reachable FaithfulStep connection) :
    Sound connection.rings connection.link := by
  have holds : (Flow connection.rings connection.link ∧ Discipline connection.link) ∧
      Sound connection.rings connection.link := by
    refine reachable.invariant (fun connection =>
      (Flow connection.rings connection.link ∧ Discipline connection.link) ∧
        Sound connection.rings connection.link) ?_ ?_
    · rintro ⟨rings, link⟩ started
      refine ⟨connection_start started, ?_⟩
      rcases started with ⟨terminal, mem, rmt, prepared, same⟩
      dsimp only at prepared same
      subst same
      have sound : Sound rings
          { term := { terminal with pendingRead := 0 }, mem, rmt, landed := rings.ring } :=
        .start ⟨_, mem, rmt, prepared, rfl⟩
      exact sound.frame rfl rfl rfl sound.sending sound.inserted rfl rfl rfl rfl
    · rintro connection action next ⟨⟨flow, discipline⟩, sound⟩ faithful stepped
      simp only [connectionMachine, bind_eq_ok, pure, Except.pure, Except.ok.injEq] at stepped
      rcases stepped with ⟨link, stepped, rfl⟩
      have cases := step_cases stepped
      exact ⟨⟨flow.step discipline.emitReady cases, discipline.step flow cases⟩,
        sound.step flow discipline faithful cases⟩
  exact holds.2

end Serves

section Delivery

variable {lib lib' : Library queue} {conId : ℕ} {connection : Connection}
  {passed : List (ℕ × SndReq)}

/-- A `Send` that succeeds has checked its buffer, and its terminal has the socket's handle. -/
theorem Host.send_passes {config : HostConfig} {host : Host queue} {listeners : List ℕ}
    (ok : HostOk config openMode listeners {} host) (handle : UInt64) (req : SndReq) :
    Ensures (Host.send config handle req)
      (fun status _ => status = hOk → sendAdmits req.buf = true ∧
        ∀ pSock, host.findSocket handle = some pSock →
          (host.connections (host.sockTbl pSock).term).handle = handle)
      (fun _ => True) host := by
  have refuses : ∀ {status : StatusCode} {holds : Prop}, status ≠ hOk → status = hOk → holds :=
    fun different same => absurd same different
  unfold Host.send
  by_cases large : req.buf.size > maxMsgSize
  · rw [if_pos large]
    exact refuses (by decide)
  rw [if_neg large, ensures_bind, ensures_get]
  cases found : host.findSocket handle with
  | none => exact refuses (by decide)
  | some pSock =>
      rcases Host.findSocket_some ok found with ⟨sockId, _, same⟩
      dsimp only
      by_cases busy : host.closing = true ∨ (host.sockTbl pSock).state ≠ .connected
      · rw [if_pos busy]
        exact refuses (by decide)
      rw [if_neg busy]
      by_cases refused : ¬sendAdmits req.buf = true
      · rw [if_pos refused]
        exact refuses (by decide)
      rw [if_neg refused]
      have fits := ok.slots.sockets pSock (.of_none sockId rfl)
      simp only [SocketOk, not_not.mp (not_or.mp busy).2] at fits
      have owned : (host.connections (host.sockTbl pSock).term).handle = handle := by
        rw [fits.1.handle, same]
      refine Host.ensures_getTerminal fits.1.term (.step (Host.audit_eq owned) (.step rfl ?_))
      intro _
      refine ⟨not_not.mp refused, ?_⟩
      rintro _ ⟨⟩
      exact owned

namespace Library

/-- The requests a step passes on to the connection of a terminal, with their threads. -/
def passes (config : HostConfig) (conId : ℕ) (lib : Library queue) :
    LibraryAction → List (ℕ × SndReq)
  | .send handle thread req =>
      match Host.send config handle req lib.host, lib.host.findSocket handle with
      | .ok (status, _), some pSock =>
          if status = hOk ∧ (lib.host.sockTbl pSock).term = conId then [(thread, req)] else []
      | _, _ => []
  | _ => []

/-- The step does not end the connection of a terminal. -/
def Keeps (conId : ℕ) : LibraryAction → Prop
  | .host (.closeTerminal conId' _) _ => conId' ≠ conId
  | _ => True

/-- The step neither ends the connection of a terminal nor is unfaithful to it: the buffers sent on
its socket are aligned, and the provider takes its writes. -/
def Attends (conId : ℕ) (lib : Library queue) : LibraryAction → Prop
  | .host (.closeTerminal conId' _) _ => conId' ≠ conId
  | .send handle _ req =>
      (lib.host.connections conId).handle = handle → msgAlign ∣ req.buf.data
  | .link conId' action =>
      conId' = conId → ∀ connection, lib.links conId = some connection →
        Faithful connection.link action
  | _ => True

theorem Attends.keeps {action : LibraryAction} (attends : lib.Attends conId action) :
    Keeps conId action := by
  cases action with
  | host action memories =>
      cases action
      case closeTerminal => exact attends
      all_goals trivial
  | _ => trivial

/-- The terminal's connection, if it has begun, has been passed exactly these requests. -/
structure Served (setup : Setup) (conId : ℕ) (lib : Library queue)
    (passed : List (ℕ × SndReq)) : Prop where
  ok : lib.Ok setup
  free : lib.links conId = none → passed = []
  serves : ∀ connection, lib.links conId = some connection → connection.Serves passed

/-- A `Send` passes its request on to the connection of its socket, or changes nothing. -/
theorem Ok.send_step (ok : lib.Ok setup) {handle : UInt64} {thread : ℕ} {req : SndReq}
    (stepped : lib.step setup.config (.send handle thread req) = .ok lib') :
    (lib' = lib ∧ ∀ conId, lib.passes setup.config conId (.send handle thread req) = []) ∨
    ∃ conId', sendAdmits req.buf = true ∧ (lib.host.connections conId').handle = handle ∧
      lib.advance conId' (.call thread req) = .ok lib' ∧
      ∀ conId, lib.passes setup.config conId (.send handle thread req) =
        if conId' = conId then [(thread, req)] else [] := by
  simp only [Library.step, bind_eq_ok] at stepped
  rcases stepped with ⟨⟨status, after⟩, sent, stepped⟩
  rcases ok.tables with ⟨listeners, tables⟩
  have checked := (Host.send_passes tables handle req).of_ok sent
  cases found : lib.host.findSocket handle with
  | none =>
      simp only [found, pure, Except.pure, Except.ok.injEq] at stepped
      exact .inl ⟨stepped.symm, fun _ => by simp [passes, sent, found]⟩
  | some pSock =>
      simp only [found] at stepped
      split at stepped
      case isTrue succeeds =>
        rcases checked succeeds with ⟨admitted, owned⟩
        refine .inr ⟨_, admitted, owned pSock found, stepped, fun conId => ?_⟩
        simp [passes, sent, found, succeeds]
      case isFalse fails =>
        cases stepped
        exact .inl ⟨rfl, fun _ => by simp [passes, sent, found, fails]⟩

/-- Only the end of a connection detaches its terminal. -/
theorem Ok.keeps_link (ok : lib.Ok setup) {action : HostAction}
    {memories : ℕ → Memory UInt8 × Memory UInt8} {host : Host queue}
    (quiet : ∀ handle req, action ≠ .send handle req)
    (other : ∀ notices, action ≠ .closeTerminal conId notices)
    (stepped : Host.step setup.config lib.host action = .ok host)
    (links : lib.links conId = some connection) :
    lib.relink setup.config host memories conId = some connection := by
  rcases ok.tables with ⟨listeners, tables⟩
  have before : lib.host.attached conId = true := by
    rw [← ok.attached conId, links]
    rfl
  rcases Host.terminal_step tables quiet stepped conId with
    ⟨_, still, _⟩ | ⟨closes, _⟩ | ⟨detached, _⟩
  · simp [relink, still, links]
  · rcases closes with ⟨notices, closes⟩
    exact absurd closes (other notices)
  · rw [before] at detached
    cases detached

namespace Served

theorem begins (ok : lib.Ok setup) (free : lib.links conId = none) : lib.Served setup conId [] := by
  refine ⟨ok, fun _ => rfl, ?_⟩
  simp [free]

/-- A step of some connection. -/
theorem advance (served : lib.Served setup conId passed) (ok : lib'.Ok setup) {conId' : ℕ}
    {action : LinkAction} (stepped : lib.advance conId' action = .ok lib') :
    lib'.Served setup conId (passed ++ if conId' = conId then action.passes else []) := by
  rcases advance_eq_ok.mp stepped with ⟨connection, link, links, moved, rfl⟩
  by_cases same : conId' = conId
  · subst same
    refine ⟨ok, fun none => ?_, fun connection' present => ?_⟩
    · simp at none
    · simp only [Function.update_self, Option.some.injEq] at present
      subst present
      rw [if_pos rfl]
      exact (served.serves connection links).step moved
  · rw [if_neg same, List.append_nil]
    refine ⟨ok, fun none => served.free ?_, fun connection' present => ?_⟩
    · simpa [Function.update_of_ne (Ne.symm same)] using none
    · apply served.serves
      simpa [Function.update_of_ne (Ne.symm same)] using present

/-- A step of the tables. -/
theorem tables (served : lib.Served setup conId passed) (aligned : 16 ∣ setup.pages)
    {action : HostAction} {memories : ℕ → Memory UInt8 × Memory UInt8} {host : Host queue}
    (allowed : lib.Allowed (.host action memories)) (keeps : Keeps conId (.host action memories))
    (stepped : Host.step setup.config lib.host action = .ok host) :
    Served setup conId
      { lib with host, links := lib.relink setup.config host memories } passed := by
  have ok := served.ok
  have part : connectionMachine.PartStep AnyStep (lib.links conId) _ :=
    ok.host_part aligned allowed stepped conId
  have quiet : ∀ handle req, action ≠ .send handle req := by
    rintro handle req rfl
    exact allowed
  have other : ∀ notices, action ≠ .closeTerminal conId notices := by
    rintro notices rfl
    exact keeps rfl
  have stays : ∀ {connection}, lib.links conId = some connection →
      lib.relink setup.config host memories conId = some connection :=
    ok.keeps_link quiet other stepped
  refine ⟨ok.host_step aligned allowed stepped, fun none => served.free ?_, ?_⟩
  · cases links : lib.links conId with
    | none => rfl
    | some connection =>
        dsimp only at none
        rw [stays links] at none
        cases none
  · intro connection present
    dsimp only at present
    cases links : lib.links conId with
    | none =>
        rw [links, present] at part
        rw [served.free links]
        cases part with
        | begins started => exact .start started
    | some before =>
        rw [stays links] at present
        cases present
        exact served.serves _ links

theorem step (served : lib.Served setup conId passed) (aligned : 16 ∣ setup.pages)
    {action : LibraryAction} (allowed : lib.Allowed action) (keeps : Keeps conId action)
    (stepped : lib.step setup.config action = .ok lib') :
    lib'.Served setup conId (passed ++ lib.passes setup.config conId action) := by
  have ok := served.ok.step_ok aligned allowed stepped
  cases action with
  | host action memories =>
      simp only [Library.step, bind_eq_ok, pure, Except.pure, Except.ok.injEq] at stepped
      rcases stepped with ⟨host, moved, rfl⟩
      simp only [passes, List.append_nil]
      exact served.tables aligned allowed keeps moved
  | send handle thread req =>
      rcases served.ok.send_step stepped with ⟨rfl, nothing⟩ | ⟨conId', admitted, _, moved, passes⟩
      · simpa [nothing] using served
      · simpa [passes, LinkAction.passes, admitted] using served.advance ok moved
  | link conId' action =>
      have none : action.passes = [] := by
        cases action
        case call => exact allowed.elim
        all_goals rfl
      simpa [passes, none] using served.advance ok stepped
  | receive conId' other =>
      rw [Library.step] at stepped
      cases links : lib.links conId' with
      | none => simp [links] at stepped
      | some connection =>
          simp only [links, Except.ok.injEq] at stepped
          subst stepped
          simp only [passes, List.append_nil]
          exact ⟨ok, served.free, served.serves⟩

/-- A run. -/
theorem run (served : lib.Served setup conId passed) (aligned : 16 ∣ setup.pages)
    {passed' : List (ℕ × SndReq)}
    (run : ((libraryMachine queue setup).logged (passes setup.config conId)).Run
      (fun state action => state.1.Allowed action ∧ Keeps conId action)
      (lib, passed) (lib', passed')) : lib'.Served setup conId passed' := by
  refine @Machine.Run.preserves _ _ _ _ _
    (fun state => state.1.Served setup conId state.2) ?_ _ _ run served
  rintro ⟨lib, passed⟩ action ⟨next, passed'⟩ served ⟨allowed, keeps⟩ stepped
  rcases Machine.logged_step.mp stepped with ⟨moved, grows⟩
  dsimp only at grows
  subst grows
  exact served.step aligned allowed keeps moved

end Served

/-- A step that attends to a terminal is a faithful one of its connection, if it is one. -/
theorem Ok.attended_part (ok : lib.Ok setup) (aligned : 16 ∣ setup.pages) {action : LibraryAction}
    (allowed : lib.Allowed action) (attends : lib.Attends conId action)
    (stepped : lib.step setup.config action = .ok lib') :
    connectionMachine.PartStep FaithfulStep (lib.links conId) (lib'.links conId) := by
  cases action with
  | host action memories =>
      simp only [Library.step, bind_eq_ok, pure, Except.pure, Except.ok.injEq] at stepped
      rcases stepped with ⟨host, moved, rfl⟩
      exact ok.host_part aligned allowed moved conId
  | send handle thread req =>
      rcases ok.send_step stepped with ⟨rfl, _⟩ | ⟨conId', _, owned, moved, _⟩
      · exact .rests _
      · apply advance_part _ moved
        rintro rfl connection _
        exact attends owned
  | link conId' action => exact advance_part attends stepped
  | receive conId' other =>
      rw [Library.step] at stepped
      cases links : lib.links conId' with
      | none => simp [links] at stepped
      | some connection =>
          simp only [links, Except.ok.injEq] at stepped
          subst stepped
          exact .rests _

/-- A connection attended to since it began. -/
theorem sound_of_run (ok : lib.Ok setup) (aligned : 16 ∣ setup.pages)
    (free : lib.links conId = none) {passed' : List (ℕ × SndReq)}
    (run : ((libraryMachine queue setup).logged (passes setup.config conId)).Run
      (fun state action => state.1.Allowed action ∧ state.1.Attends conId action)
      (lib, passed) (lib', passed')) (present : lib'.links conId = some connection) :
    Sound connection.rings connection.link := by
  apply connection_sound
  refine @Machine.Run.reachable_part _ _ _ _ _ _ _ _ _ _ (fun state => state.1.links conId)
    (fun state => state.1.Ok setup) ?_ ?_ _ _ run ok free _ present
  · rintro state action next ok ⟨allowed, _⟩ stepped
    exact ok.step_ok aligned allowed (Machine.logged_step.mp stepped).1
  · rintro state action next ok ⟨allowed, attends⟩ stepped
    exact ok.attended_part aligned allowed attends (Machine.logged_step.mp stepped).1

/-- A sound connection does not stop the process while it stays faithful. -/
theorem advance_ne (links : lib.links conId = some connection) (serves : connection.Serves passed)
    (sound : Sound connection.rings connection.link) {action : LinkAction}
    (faithful : Faithful connection.link action) (reason : Abort) :
    lib.advance conId action ≠ .error (.abort reason) := by
  have succeeds := sound.step_succeeds serves.flow serves.discipline faithful reason
  cases stepped : connection.link.step connection.rings action with
  | ok link =>
      simp [advance, links, connectionMachine, stepped, bind, Except.bind, pure, Except.pure]
  | error stop =>
      rw [stepped] at succeeds
      simpa [advance, links, connectionMachine, stepped, bind, Except.bind] using succeeds

end Library

end Delivery

section Results

/-- From the beginning of a connection on, whatever its provider and the rest of the library do and
however its terminal was used before, nothing is forged, repeated or reordered on the way from
`Send` to the peer: every request passed to `Send` on its socket is inserted once, each thread's in
order, or its thread is still inside `Send`; and what the peer has taken and finds in its ring
assembles to a beginning of the messages inserted. -/
theorem messages_intact (queue : CircularQue ℕ) (setup : Setup) (aligned : 16 ∣ setup.pages)
    {lib after : Library queue} {passed : List (ℕ × SndReq)}
    (reachable : (libraryMachine queue setup).Reachable Library.Allowed lib)
    {conId : ℕ} (free : lib.links conId = none)
    (run : ((libraryMachine queue setup).logged (Library.passes setup.config conId)).Run
      (fun state action => state.1.Allowed action ∧ Library.Keeps conId action)
      (lib, []) (after, passed))
    {connection : Connection} (present : after.links conId = some connection) :
    (∃ inserted : ℕ → List SndReq, Merges inserted connection.link.inserted ∧
      ∀ thread, ofSource passed thread = inserted thread ++ connection.link.inSend thread) ∧
    ∃ resident, connection.link.resident connection.rings = .ok resident ∧
      connection.link.taken ++ resident <+: canonical connection.link.messages ∧
      ∃ assembly, assemble (connection.link.taken ++ resident) = some assembly ∧
        assembly.messages <+: connection.link.messages ∧
        ∀ unfinished ∈ assembly.unfinished, ∃ message,
          assembly.messages ++ [message] <+: connection.link.messages ∧
            unfinished.body <+: message := by
  have begun : lib.Served setup conId [] := .begins (Library.ok_of_reachable aligned reachable) free
  have serves := (begun.run aligned run).serves connection present
  rcases serves.reads with ⟨resident, found, isPrefix⟩
  exact ⟨serves.accounts, resident, found, isPrefix, assemble_prefix packetSize_pos isPrefix⟩

theorem LibraryAction.routine_keeps {action : LibraryAction} (routine : action.routine = true)
    (conId : ℕ) : Library.Keeps conId action := by
  cases action with
  | host action memories =>
      cases action
      case closeTerminal => cases routine
      all_goals trivial
  | _ => trivial

/-- Two empty messages are sent to the accepted socket, and the write of the first is canceled. -/
def sampleLost : List LibraryAction :=
  onTables sampleConnected ++ (sampleSend 10 { firstHalf := ndCanceled } ++ sampleSend 10 {})

/-- Both messages are inserted, and what their peer finds is a beginning of them. -/
theorem messages_intact_lost :
    ∃ (after : Library (boundedQueue ℕ)) (connection : Connection)
      (resident : List (Packet UInt8)), after.links 1 = some connection ∧
      connection.link.written = 96 ∧ connection.link.called.length = 2 ∧
      connection.link.resident connection.rings = .ok resident ∧
      connection.link.taken ++ resident <+: canonical connection.link.messages := by
  have passes : (((sampleMachine.logged (Library.passes (sampleSetup 8192 1).config 1)).guarded
      (fun _ action => action.routine) .blocked).execute (sampleLibrary, [])
        sampleLost).toOption.any (fun state => (state.1.links 1).any fun connection =>
          connection.link.written = 96 ∧ connection.link.called.length = 2) = true := by
    decide +kernel
  rcases Machine.Run.of_checked (fun state action routine =>
    And.intro (LibraryAction.routine_allowed routine state.1).1
      (LibraryAction.routine_keeps routine 1)) passes with ⟨⟨after, passed⟩, run, holds⟩
  cases links : after.links 1 with
  | none => simp [links] at holds
  | some connection =>
      simp only [links, Option.any_some, decide_eq_true_eq] at holds
      rcases messages_intact (boundedQueue ℕ) (sampleSetup 8192 1) (by decide)
        (.of_start sampleLibrary_start) rfl run links with ⟨_, resident, found, isPrefix, _⟩
      exact ⟨after, connection, resident, links, holds.1, holds.2, found, isPrefix⟩

/-- If besides the connection is faithful from its beginning on, none of its faithful steps stops
the process, and once it is drained and no thread is inside `Send`, the peer has exactly the
messages passed, each thread's in order. -/
theorem messages_delivered (queue : CircularQue ℕ) (setup : Setup) (aligned : 16 ∣ setup.pages)
    {lib after : Library queue} {passed : List (ℕ × SndReq)}
    (reachable : (libraryMachine queue setup).Reachable Library.Allowed lib)
    {conId : ℕ} (free : lib.links conId = none)
    (run : ((libraryMachine queue setup).logged (Library.passes setup.config conId)).Run
      (fun state action => state.1.Allowed action ∧ state.1.Attends conId action)
      (lib, []) (after, passed))
    {connection : Connection} (present : after.links conId = some connection) :
    (∀ action reason, Faithful connection.link action →
      after.advance conId action ≠ .error (.abort reason)) ∧
    (connection.link.Drained → (∀ thread, connection.link.inSend thread = []) →
      ∃ messages, assemble connection.link.taken = some ⟨messages, none⟩ ∧
        Merges (fun thread => (ofSource passed thread).map fun req => req.buf.bytes) messages) := by
  have ok := Library.ok_of_reachable aligned reachable
  have begun : lib.Served setup conId [] := .begins ok free
  have keeps := run.mono fun admitted => And.intro admitted.1 admitted.2.keeps
  have serves := (begun.run aligned keeps).serves connection present
  have sound := Library.sound_of_run ok aligned free run present
  refine ⟨fun action reason faithful => Library.advance_ne present serves sound faithful reason,
    fun drained returned => ⟨connection.link.messages, ?_, (serves.inserts returned).map _⟩⟩
  rw [drained_taken serves.flow serves.discipline sound drained]
  exact assemble_flatMap packetSize_pos _

/-- A check of the actions of a client that closes nothing, while the provider takes all writes. -/
def Library.tended (lib : Library queue) : LibraryAction → Bool
  | .host (.send _ _) _ | .host (.closeTerminal _ _) _ => false
  | .host _ _ => true
  | .send _ _ req => msgAlign ∣ req.buf.data
  | .link conId (.run _ replies) =>
      (lib.links conId).all (fun connection => connection.link.term.rmtMemToken ≠ 0) ∧
        accepted replies.secondHalf ∧ accepted replies.firstHalf ∧ accepted replies.read
  | .link _ .deliver | .link _ .take => true
  | _ => false

theorem Library.tended_attends {lib : Library queue} {action : LibraryAction}
    (tended : lib.tended action = true) (conId : ℕ) :
    lib.Allowed action ∧ lib.Attends conId action := by
  cases action with
  | host action memories =>
      cases action
      case send => cases tended
      case closeTerminal => cases tended
      all_goals exact ⟨trivial, trivial⟩
  | send handle thread req =>
      exact ⟨trivial, fun _ => of_decide_eq_true tended⟩
  | link conId' action =>
      cases action
      case run thread replies =>
        simp only [Library.tended, decide_eq_true_eq, Option.all_eq_true] at tended
        rcases tended with ⟨openToken, second, first, read⟩
        refine ⟨trivial, ?_⟩
        rintro rfl connection links
        exact ⟨openToken connection links, second, first, .inl read⟩
      case deliver => exact ⟨trivial, fun _ _ _ => trivial⟩
      case take => exact ⟨trivial, fun _ _ _ => trivial⟩
      all_goals cases tended
  | receive => cases tended

/-- An empty message is sent to the accepted socket, and the peer takes it. -/
def sampleDelivered : List LibraryAction :=
  onTables sampleConnected ++
    (sampleSend 10 {} ++ [.link 1 .deliver, .link 1 .deliver, .link 1 .take])

/-- The peer of the accepted socket has exactly the message sent. -/
theorem messages_delivered_message :
    ∃ (after : Library (boundedQueue ℕ)) (connection : Connection) (messages : List (List UInt8)),
      after.links 1 = some connection ∧
      assemble connection.link.taken = some ⟨messages, none⟩ ∧
      Merges (fun thread => (ofSource [(0, filledReq 16 0x41)] thread).map
        fun req => req.buf.bytes) messages := by
  have passes : (((sampleMachine.logged (Library.passes (sampleSetup 8192 1).config 1)).guarded
      (fun state action => state.1.tended action) .blocked).execute (sampleLibrary, [])
        sampleDelivered).toOption.any (fun state =>
          state.2 = [(0, filledReq 16 0x41)] ∧ (state.1.links 1).any fun connection =>
            connection.link.threads 0 = [] ∧ connection.link.term.sndQue = [] ∧
              connection.link.wire.isEmpty ∧
              connection.link.consumed = connection.link.delivered) = true := by
    decide +kernel
  rcases Machine.Run.of_checked (fun state action tended => Library.tended_attends tended 1)
    passes with ⟨⟨after, passed⟩, run, holds⟩
  rcases of_decide_eq_true holds with ⟨rfl, holds⟩
  cases links : after.links 1 with
  | none => simp [links] at holds
  | some connection =>
      simp only [links, Option.any_some, decide_eq_true_eq] at holds
      rcases holds with ⟨resting, sndQue, wire, consumed⟩
      rcases messages_delivered (boundedQueue ℕ) (sampleSetup 8192 1) (by decide)
        (.of_start sampleLibrary_start) rfl run links with ⟨_, recovers⟩
      have begun : sampleLibrary.Served (sampleSetup 8192 1) 1 [] :=
        .begins (Library.ok_of_start sampleLibrary_start) rfl
      have keeps := run.mono fun admitted => And.intro admitted.1 admitted.2.keeps
      rcases ((begun.run (by decide) keeps).serves connection links).accounts with
        ⟨inserted, _, balanced⟩
      have returned : ∀ thread, connection.link.inSend thread = [] := by
        intro thread
        by_cases zero : thread = 0
        · rw [zero, Link.inSend, resting]
          rfl
        · have nothing := (balanced thread).symm
          rw [ofSource_single_ne zero] at nothing
          exact (List.append_eq_nil_iff.mp nothing).2
      rcases recovers ⟨sndQue, List.isEmpty_iff.mp wire, consumed⟩ returned with
        ⟨messages, assembled, merges⟩
      exact ⟨after, connection, messages, links, assembled, merges⟩

end Results

end Hermes
