import Hermes.HostTables

/-!
# Completions while the library closes

`TerminalCloser` is assumed to close a terminal only when the operations that its
connection has started have ended.  Then a connection that is accepted while the
library closes either stands afterwards or has told its terminal to close, and the
disconnect notification of a connection tells its terminal to close; neither stops the
process, if the provider names the address the library was opened with and an
overlapped object is free.
-/

namespace Hermes

open Program

variable {queue : CircularQue ℕ} {setup : Setup} {config : HostConfig} {listeners : List ℕ}
  {host after : Host queue} {action : HostAction} {id termId ov arena : ℕ} {job : AsyncJob}
  {hr : HRESULT} {replies : Replies} {err : StatusCode}

section Patience

/-- A terminal is closed only when the operations of its connection have ended. -/
def Host.Patient (config : HostConfig) (host : Host queue) : HostAction → Prop
  | .closeTerminal term _ => config.TermId term ∧ host.Finished term
  | _ => True

/-- Runs in which terminals are closed when the operations of their connections have ended. -/
def patientMode : Mode := { closers := true, patient := true, strict := false, exact := false }

theorem Host.Patient.admits (patient : Host.Patient config host action) :
    Host.Admits config patientMode host action := by
  cases action
  case accept => exact ⟨nofun, nofun⟩
  case connect => exact nofun
  case closeTerminal => exact ⟨rfl, fun _ => patient⟩
  all_goals exact trivial

theorem hostOk_of_patient
    (reachable : (hostMachine queue setup).Reachable (Host.Patient setup.config) host) :
    ∃ listeners, HostOk setup.config patientMode listeners {} host :=
  hostOk_of_reachable (reachable.mono fun patient => patient.admits)

/-- Nothing the invariant excludes. -/
def Stop.Unexpected (config : HostConfig) (stop : Stop) : Prop :=
  ¬patientMode.Tolerates config stop

theorem unexpected_assert {text : String}
    (other : text ∉ duplicateInit ++ ["Exhausted connection!", "Rmote protocol mismatch!",
      "Local address mismatch!",
      "Notification error not handled! We don't expect immediate return either!",
      "Pending status not expected after IOCP notification!", "Resource pool empty!"]) :
    Stop.Unexpected config (.abort (.assert text)) := by
  rw [List.mem_append, not_or] at other
  rintro (expected | ⟨_, twice⟩ | ⟨_, rfl⟩ | ⟨loose, _⟩)
  · exact other.2 (by simp only [List.mem_cons, List.not_mem_nil, or_false] at expected ⊢; tauto)
  · exact other.1 twice
  · exact other.2 (by decide)
  · cases loose

theorem unexpected_undefined {text : String} :
    Stop.Unexpected config (.abort (.undefined text)) := by
  intro loose
  cases loose

end Patience

namespace Host

/-- The terminal's disconnect continuation has been posted. -/
def Told (host : Host queue) (termId : ℕ) : Prop :=
  ∃ continuation err, (host.connections termId).pDisconnectCont = some continuation ∧
    (continuation, err) ∈ host.posts

/-- The terminal whose closing the handler of an operation may ask for. -/
def served (host : Host queue) : AsyncJob → ℕ
  | .onAccepted id => (host.sockTbl id).term
  | .onDisconNotified termId => termId
  | _ => invalidTermId

/-- What the handler of an operation of a connection does to the tables, and what it posts: the
connection stands, or its terminal is told to close. -/
structure Moved (job : AsyncJob) (before after : Host queue) : Prop where
  term : ∀ id, (after.sockTbl id).term = (before.sockTbl id).term
  state : ∀ id, (after.sockTbl id).state = (before.sockTbl id).state ∨
    job = .onAccepted id ∧ (before.sockTbl id).state.attempting = true ∧
      ((after.sockTbl id).state = .connAgreed ∨ (after.sockTbl id).state = .connected)
  continuations : ∀ conId,
    (after.connections conId).pDisconnectCont = (before.connections conId).pDisconnectCont
  posts : before.posts <+: after.posts
  posted : ∀ entry ∈ after.posts, entry ∈ before.posts ∨
    (before.connections (before.served job)).pDisconnectCont = some entry.1
  closing : after.closing = before.closing
  ends : (∃ id, job = .onAccepted id ∧ (after.sockTbl id).state = .connected) ∨
    after.Told (before.served job)

/-- What the handler changes: it may also ask for the disconnect notification. -/
structure Handled (job : AsyncJob) (before after : Host queue) : Prop
    extends Moved job before after where
  kept : ∀ {ov job'}, before.Pends ov job' → after.Pends ov job'
  pends : ∀ {ov job'}, after.Pends ov job' → before.Pends ov job' ∨
    ∃ id, job = .onAccepted id ∧ job' = .onDisconNotified (before.sockTbl id).term

/-- What the completion of the operation changes. -/
structure Completed (ov : ℕ) (job : AsyncJob) (before after : Host queue) : Prop
    extends Moved job before after where
  kept : ∀ {ov' job'}, before.Pends ov' job' → ov' ≠ ov → after.Pends ov' job'
  pends : ∀ {ov' job'}, after.Pends ov' job' → ov' ≠ ov ∧ before.Pends ov' job' ∨
    ∃ id, job = .onAccepted id ∧ job' = .onDisconNotified (before.sockTbl id).term
  room : queue.items after.overlapPool ≠ []

section Handlers

/-- The terminal of the accepted socket is told to close. -/
theorem onConnAcceptedFinal_handles (bad : err ≠ hOk)
    (inRange : config.TermId (host.sockTbl id).term) :
    Ensures (onConnAcceptedFinal config id err arena) (fun _ after =>
        ∃ continuation retired events,
          (host.connections (host.sockTbl id).term).pDisconnectCont = some continuation ∧
          after = { host with
            posts := host.posts ++ [(continuation, err)]
            retired, events })
      (Stop.Unexpected config) host := by
  unfold onConnAcceptedFinal
  rw [if_pos bad]
  refine .step apply_get (ensures_getTerminal inRange ?_)
  refine ensures_audit (fun _ => unexpected_assert (by decide)) fun _ => ?_
  refine ensures_derefPtr (fun _ => unexpected_undefined) fun continuation holds => ?_
  exact .of_eq rfl ⟨continuation, _, _, holds, rfl⟩

/-- The terminal is told to close. -/
theorem onDisconNotified_handles :
    Ensures (onDisconNotified termId) (fun _ after => ∃ continuation,
        (host.connections termId).pDisconnectCont = some continuation ∧
        after = { host with posts := host.posts ++ [(continuation, errorGracefulDisconnect)] })
      (Stop.Unexpected config) host := by
  unfold onDisconNotified
  refine .step apply_get (ensures_derefPtr (fun _ => unexpected_undefined) ?_)
  exact fun continuation holds => .of_eq rfl ⟨continuation, holds, rfl⟩

/-- An overlapped object is free again. -/
theorem freeObj_handles :
    Ensures (freeObj ov) (fun _ after => ∃ overlapPool events,
        queue.items overlapPool = queue.items host.overlapPool ++ [ov] ∧
        after = { host with overlapPool, overlaps := Function.update host.overlaps ov {}, events })
      (Stop.Unexpected config) host := by
  unfold freeObj
  refine .step apply_get (ensures_audit (fun _ => unexpected_assert (by decide)) fun _ => ?_)
  refine .step rfl ?_
  cases added : queue.add host.overlapPool ov with
  | none => exact unexpected_assert (by decide)
  | some overlapPool => exact .step rfl (.of_eq rfl ⟨_, _, (queue.items_of_add added).1, rfl⟩)

/-- The disconnect notification is outstanding afterwards, or it has told the terminal to close. -/
structure Notifies (termId : ℕ) (before after : Host queue) : Prop where
  sockTbl : after.sockTbl = before.sockTbl
  connections : after.connections = before.connections
  posts : ∃ more, after.posts = before.posts ++ more ∧ ∀ entry ∈ more,
    (before.connections termId).pDisconnectCont = some entry.1
  closing : after.closing = before.closing
  kept : ∀ {ov job}, before.Pends ov job → after.Pends ov job
  pends : ∀ {ov job}, after.Pends ov job → before.Pends ov job ∨ job = .onDisconNotified termId

theorem notifyDisconnect_handles (room : queue.items host.overlapPool ≠ [])
    (apart : ∀ ov ∈ queue.items host.overlapPool, ov ∉ host.pending) (hr : HRESULT) (arena : ℕ)
    (pReceiver : Option ℕ) :
    Ensures (do
      let ov ← getObj (.onDisconNotified termId) arena pReceiver
      finishCall ov hr (onDisconNotified termId))
      (fun _ after => Notifies termId host after) (Stop.Unexpected config) host := by
  rw [ensures_bind]
  unfold getObj
  rw [ensures_bind, ensures_get]
  cases taken : queue.get host.overlapPool with
  | none => exact absurd (queue.items_of_get_none taken) room
  | some pair =>
      rcases pair with ⟨ov, overlapPool⟩
      rcases queue.items_of_get taken with ⟨items, _⟩
      have free : ov ∉ host.pending := by
        apply apart
        rw [items]
        exact List.mem_cons_self
      have other : ∀ {ov'}, ov' ∈ host.pending → ov' ≠ ov := by
        rintro ov' member rfl
        exact free member
      dsimp only
      refine .step (apply_set _) (ensures_audit (fun _ => unexpected_assert (by decide)) ?_)
      refine fun _ => .step rfl (.step rfl ?_)
      rw [ensures_pure]
      unfold finishCall
      by_cases final : hr ≠ ndPending
      · rw [if_pos final]
        refine .step rfl (onDisconNotified_handles.bind ?_)
        rintro _ _ ⟨continuation, holds, rfl⟩
        refine freeObj_handles.mono ?_ fun _ stops => stops
        rintro _ _ ⟨overlapPool', events, _, rfl⟩
        constructor
        case sockTbl | connections | closing => rfl
        case posts => exact ⟨_, rfl, by simpa using holds⟩
        case kept =>
          rintro ov' job' ⟨member, runs⟩
          exact ⟨member, by simpa [other member] using runs⟩
        case pends =>
          rintro ov' job' ⟨member, runs⟩
          exact .inl ⟨member, by simpa [other member] using runs⟩
      · rw [if_neg final]
        refine .of_eq rfl ?_
        constructor
        case sockTbl | connections | closing => rfl
        case posts => exact ⟨[], by simp, by simp⟩
        case kept =>
          rintro ov' job' ⟨member, runs⟩
          exact ⟨List.mem_append_left _ member, by simpa [other member] using runs⟩
        case pends =>
          rintro ov' job' ⟨member, runs⟩
          rcases List.mem_append.mp member with old | new
          · exact .inl ⟨old, by simpa [other old] using runs⟩
          · rw [List.mem_singleton.mp new] at runs
            exact .inr (by simpa [HOverlap.job?] using runs.symm)

/-- The accepted socket goes on, or its terminal is told to close. -/
theorem Moved.of_socket {sock : HSocket} {more : List (ℕ × StatusCode)}
    (sockTbl : after.sockTbl = Function.update host.sockTbl id sock)
    (term : sock.term = (host.sockTbl id).term)
    (state : sock.state = (host.sockTbl id).state ∨ (host.sockTbl id).state.attempting = true ∧
      (sock.state = .connAgreed ∨ sock.state = .connected))
    (continuations : ∀ conId, (after.connections conId).pDisconnectCont =
      (host.connections conId).pDisconnectCont)
    (posts : after.posts = host.posts ++ more)
    (posted : ∀ entry ∈ more,
      (host.connections (host.sockTbl id).term).pDisconnectCont = some entry.1)
    (closing : after.closing = host.closing) (ends : sock.state = .connected ∨ more ≠ []) :
    Moved (.onAccepted id) host after := by
  constructor
  case term =>
    intro id'
    by_cases same : id' = id
    · simp [sockTbl, same, term]
    · simp [sockTbl, same]
  case state =>
    intro id'
    by_cases same : id' = id
    · simpa [sockTbl, same] using state
    · simp [sockTbl, same]
  case continuations => exact continuations
  case posts => exact ⟨more, posts.symm⟩
  case posted =>
    intro entry member
    rw [posts] at member
    exact (List.mem_append.mp member).imp_right (posted entry)
  case closing => exact closing
  case ends =>
    refine ends.imp (fun connected => ⟨id, rfl, by simpa [sockTbl] using connected⟩) fun some => ?_
    rcases List.exists_mem_of_ne_nil more some with ⟨entry, member⟩
    refine ⟨entry.1, entry.2, (continuations _).trans (posted entry member), ?_⟩
    rw [posts]
    exact List.mem_append_right _ member

/-- `OnConnAccepted`: the connection stands, or its terminal is told to close. -/
theorem onConnAccepted_handles (inRange : config.TermId (host.sockTbl id).term)
    (room : queue.items host.overlapPool ≠ [])
    (apart : ∀ ov ∈ queue.items host.overlapPool, ov ∉ host.pending)
    (home : replies.localIp = config.homeIp) (hr : HRESULT) (arena : ℕ) :
    Ensures (onConnAccepted config id hr arena replies)
      (fun _ after => Handled (.onAccepted id) host after) (Stop.Unexpected config) host := by
  -- The two tables may have changed when the terminal is told to close.
  have final : ∀ {sock : HSocket} {connections : ℕ → Terminal} {err : StatusCode}, err ≠ hOk →
      sock.term = (host.sockTbl id).term →
      (sock.state = (host.sockTbl id).state ∨
        (host.sockTbl id).state.attempting = true ∧ sock.state = .connAgreed) →
      (∀ conId, (connections conId).pDisconnectCont =
        (host.connections conId).pDisconnectCont) →
        Ensures (onConnAcceptedFinal config id err arena)
          (fun _ after => Handled (.onAccepted id) host after) (Stop.Unexpected config)
          { host with sockTbl := Function.update host.sockTbl id sock, connections } := by
    intro sock connections err bad term state same
    have inRange' : config.TermId (Function.update host.sockTbl id sock id).term := by
      simpa [term] using inRange
    refine (onConnAcceptedFinal_handles bad inRange').mono ?_ fun _ stops => stops
    rintro _ _ ⟨continuation, retired, events, holds, rfl⟩
    simp only [Function.update_self, term] at holds
    constructor
    case toMoved =>
      refine .of_socket rfl term (state.imp_right fun agreed => ⟨agreed.1, .inl agreed.2⟩) same rfl
        ?_ rfl (.inr (by simp))
      intro entry member
      rw [List.mem_singleton.mp member]
      exact (same _).symm.trans holds
    case kept => exact fun outstanding => outstanding
    case pends => exact fun outstanding => .inl outstanding
  unfold onConnAccepted
  by_cases bad : hr ≠ hOk
  · rw [if_pos bad]
    have now := @final (host.sockTbl id) host.connections hr bad rfl (.inl rfl) fun _ => rfl
    rwa [Function.update_eq_self] at now
  rw [if_neg bad]
  refine .step apply_get (ensures_audit (fun _ => unexpected_assert (by decide)) fun state => ?_)
  have attempting : (host.sockTbl id).state.attempting = true := by
    rcases state with state | state <;> rw [state, SocketState.attempting]
  refine .step rfl (ensures_getTerminal inRange ?_)
  refine ensures_derefPtr (fun _ => unexpected_undefined) fun connector _ => ?_
  by_cases noPeer : replies.peerAddress ≠ hOk
  · rw [if_pos noPeer]
    exact final noPeer rfl (.inr ⟨attempting, rfl⟩) fun _ => rfl
  rw [if_neg noPeer]
  have sameCont : ∀ conId, (Function.update host.connections (host.sockTbl id).term
      { host.connections (host.sockTbl id).term with
        rmtIpAddr := replies.peerIp, rmtPort := replies.peerPort } conId).pDisconnectCont =
        (host.connections conId).pDisconnectCont := by
    intro conId
    by_cases equal : conId = (host.sockTbl id).term
    · rw [equal, Function.update_self]
    · rw [Function.update_of_ne equal]
  refine .step rfl ?_
  by_cases noLocal : replies.localAddress ≠ hOk
  · rw [if_pos noLocal]
    exact final noLocal rfl (.inr ⟨attempting, rfl⟩) sameCont
  rw [if_neg noLocal]
  refine .step rfl (.step (audit_eq home) ?_)
  refine ensures_derefPtr (fun _ => unexpected_undefined) fun continuation _ => ?_
  simp only [Function.update_self, Function.update_idem]
  refine ensures_bind.mpr ((ensures_bind.mp (notifyDisconnect_handles ?_ ?_
    replies.notifyDisconnect _ _)).mono ?_ fun _ stops => stops)
  · exact room
  · exact apart
  intro ov _ called
  refine called.bind ?_
  rintro _ middle ⟨sockTbl, connections, ⟨more, posts, posted⟩, closing, kept, pends⟩
  refine .step apply_get (ensures_audit (fun _ => unexpected_assert (by decide)) fun _ => ?_)
  refine .step rfl (.step apply_get ?_)
  refine ensures_derefPtr (fun _ => unexpected_undefined) fun notifier _ => ?_
  refine .step rfl (.of_eq rfl ?_)
  dsimp only at sockTbl connections posts posted closing
  constructor
  case toMoved =>
    apply Moved.of_socket
    case sockTbl => simp [sockTbl]; rfl
    case term => rfl
    case state => exact .inr ⟨attempting, .inr rfl⟩
    case continuations =>
      intro conId
      rw [connections]
      exact sameCont conId
    case posts => exact posts
    case posted => exact fun entry member => (sameCont _).symm.trans (posted entry member)
    case closing => exact closing
    case ends => exact .inl rfl
  case kept => exact fun outstanding => kept outstanding
  case pends => exact fun outstanding => (pends outstanding).imp_right fun new => ⟨id, rfl, new⟩

/-- The completion of an operation whose handler does no more. -/
theorem run_completes {mode : Mode} (ok : HostOk config mode listeners {} host)
    (outstanding : host.Pends ov job) (final : hr ≠ ndPending)
    (handles : ∀ arena events, Ensures (runJob config job arena hr replies)
      (fun _ after => Handled job { host with pending := host.pending.erase ov, events } after)
      (Stop.Unexpected config) { host with pending := host.pending.erase ov, events }) :
    Ensures (run config ov hr replies) (fun _ after => Completed ov job host after)
      (Stop.Unexpected config) host := by
  have nodup := ok.overlaps.pendingNodup
  rcases outstanding with ⟨member, runs⟩
  rcases Option.map_eq_some_iff.mp runs with ⟨⟨job', arena⟩, next, same⟩
  cases same
  refine Ensures.congr ?_ (run_eq member next final)
  refine (handles arena _).bind ?_
  intro _ middle handled
  refine freeObj_handles.mono ?_ fun _ stops => stops
  rintro _ _ ⟨overlapPool, events, items, rfl⟩
  constructor
  case toMoved => exact { handled.toMoved with }
  case kept =>
    intro ov' job' outstanding other
    rcases handled.kept ((HostOk.pends_erase nodup).mpr ⟨other, outstanding⟩) with ⟨pending, runs⟩
    exact ⟨pending, by simpa [other] using runs⟩
  case pends =>
    rintro ov' job' ⟨pending, runs⟩
    have other : ov' ≠ ov := by
      rintro rfl
      simp [HOverlap.job?] at runs
    rcases handled.pends ⟨pending, by simpa [other] using runs⟩ with old | new
    · exact .inl ((HostOk.pends_erase nodup).mp old)
    · exact .inr new
  case room => simp [items]

/-- The connection of a socket is accepted, or the provider could not. -/
theorem completeAccepted_ensures (ok : HostOk config patientMode listeners {} host)
    (outstanding : host.Pends ov (.onAccepted id)) (final : hr ≠ ndPending)
    (room : queue.items host.overlapPool ≠ []) (home : replies.localIp = config.homeIp) :
    Ensures (run config ov hr replies) (fun _ after => Completed ov (.onAccepted id) host after)
      (Stop.Unexpected config) host := by
  apply run_completes ok outstanding final
  intro arena events
  rcases (ok.jobs.ready outstanding).2 rfl with ⟨settled, state, _⟩
  have attempting : (host.sockTbl id).state.attempting = true := by
    rcases state with state | state <;> rw [state, SocketState.attempting]
  have owns := (ok.slots.sockets id settled).attempts attempting
  refine onConnAccepted_handles ?_ ?_ ?_ home hr arena
  · exact owns.term
  · exact room
  · intro ov' free pending
    have distinct := List.nodup_append.mp ok.overlaps.nodup
    exact distinct.2.2 ov' free ov' (List.mem_of_mem_erase pending) rfl

/-- A disconnect is noticed. -/
theorem completeDisconnect_ensures (ok : HostOk config patientMode listeners {} host)
    (outstanding : host.Pends ov (.onDisconNotified termId)) (final : hr ≠ ndPending) :
    Ensures (run config ov hr replies)
      (fun _ after => Completed ov (.onDisconNotified termId) host after)
      (Stop.Unexpected config) host := by
  apply run_completes ok outstanding final
  intro arena events
  refine onDisconNotified_handles.mono ?_ fun _ stops => stops
  rintro _ _ ⟨continuation, holds, rfl⟩
  constructor
  case toMoved =>
    constructor
    case term => exact fun _ => rfl
    case state => exact fun _ => .inl rfl
    case continuations => exact fun _ => rfl
    case posts => exact List.prefix_append _ _
    case posted =>
      intro entry member
      rcases List.mem_append.mp member with old | new
      · exact .inl old
      · rw [List.mem_singleton.mp new]
        exact .inr holds
    case closing => rfl
    case ends => exact .inr ⟨continuation, errorGracefulDisconnect, holds, by simp⟩
  case kept => exact fun outstanding => outstanding
  case pends => exact fun outstanding => .inl outstanding

end Handlers

end Host

end Hermes
