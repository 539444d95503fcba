import Hermes.HostLife

/-!
# How calls and attempts end

What a client can rely on in every run: a call that returns an error has had no lasting
effect, a notifier is called at most once, an accept that fails before its terminal is
started gives everything back and says so once, a connect that fails there aborts the
process, and without `TerminalCloser` the process stops for few reasons.
-/

namespace Hermes

open Program

variable {queue : CircularQue ℕ} {config : HostConfig} {setup : Setup}

section Calls

/-- A call that acquires something in stages. -/
inductive TableCall where
  | listen (handle : UInt64) (port : UInt16)
  | accept (handle : UInt64) (connectCallback rcvCallback : ℕ)
  | connect (handle : UInt64) (connectCallback rcvCallback : ℕ)
  deriving DecidableEq, Repr

namespace TableCall

def run (config : HostConfig) (replies : Replies) : TableCall → Code queue StatusCode
  | listen handle port => Host.listen handle port replies
  | accept handle connectCallback rcvCallback =>
      Host.accept config handle connectCallback rcvCallback replies
  | connect handle connectCallback rcvCallback =>
      Host.connect config handle connectCallback rcvCallback replies

/-- The call has had no lasting effect: all tables are as they were, but that an accept has used up
one handle of the slot it took; the listener that `Listen` made is released, and the arena that
`Connect` obtained is retired exactly once. -/
structure NoEffect (call : TableCall) (before after : Host queue) : Prop
    extends Host.Undone before after where
  handle : (∃ handle connectCallback rcvCallback,
      call = .accept handle connectCallback rcvCallback) ∨
    ∀ id, (after.sockTbl id).handle = (before.sockTbl id).handle
  listener : ∀ handle port, call = .listen handle port →
    ∀ object, before.objects ≤ object → object < after.objects → after.refs object = 0
  arena : ∀ handle connectCallback rcvCallback,
    call = .connect handle connectCallback rcvCallback → after.arenas ≠ before.arenas →
      after.retired.count before.arenas = before.retired.count before.arenas + 1

theorem noEffect_ensures {listeners : List ℕ} {host : Host queue}
    (ok : HostOk config openMode listeners {} host) (call : TableCall) (replies : Replies) :
    Ensures (call.run config replies) (fun status after => status ≠ hOk → call.NoEffect host after)
      (openMode.Tolerates config) host := by
  cases call with
  | listen handle port =>
      have listens : Ensures (Host.listen handle port replies) _ (openMode.Tolerates config) host :=
        Host.listen_ensures ok
      refine listens.mono ?_ fun _ stops => stops
      rintro status after ⟨_, undone⟩ failed
      exact
        { (undone failed).toUndone with
          handle := .inr (undone failed).handles'
          listener := fun _ _ _ => (undone failed).released
          arena := fun _ _ _ same => by cases same }
  | accept handle connectCallback rcvCallback =>
      have accepts : Ensures (Host.accept config handle connectCallback rcvCallback replies) _
          (openMode.Tolerates config) host :=
        Host.accept_ensures ok nofun nofun connectCallback rcvCallback
      refine accepts.mono ?_ fun _ stops => stops
      rintro status after ⟨_, undone, _⟩ failed
      exact
        { undone failed with
          handle := .inl ⟨_, _, _, rfl⟩
          listener := fun _ _ same => by cases same
          arena := fun _ _ _ same => by cases same }
  | connect handle connectCallback rcvCallback =>
      have connects : Ensures (Host.connect config handle connectCallback rcvCallback replies) _
          (openMode.Tolerates config) host :=
        Host.connect_ensures ok nofun connectCallback rcvCallback
      refine connects.mono ?_ fun _ stops => stops
      rintro status after ⟨_, undone⟩ failed
      rcases undone failed with ⟨undone, handles, retired⟩
      exact
        { undone with
          handle := .inr handles
          listener := fun _ _ same => by cases same
          arena := fun _ _ _ _ => retired }

end TableCall

/-- A call of `Listen`, `Accept` or `Connect` that returns an error leaves every socket with its
state, terminal and listener, both pools with their ids and every terminal as it was but for its
regions.  `Listen` releases the listener it made, `Accept` has only used up a handle, and `Connect`
has retired the arena it took. -/
theorem failed_calls_undone (queue : CircularQue ℕ) (setup : Setup) {host : Host queue}
    (reachable : (hostMachine queue setup).Reachable (fun _ _ => True) host) (handle : UInt64)
    (replies : Replies) {status : StatusCode} {after : Host queue} (failed : status ≠ hOk) :
    (∀ port, Host.listen handle port replies host = .ok (status, after) →
      Host.ListenUndone host after) ∧
    (∀ connectCallback rcvCallback,
      Host.accept setup.config handle connectCallback rcvCallback replies host =
        .ok (status, after) → Host.Undone host after) ∧
    ∀ connectCallback rcvCallback,
      Host.connect setup.config handle connectCallback rcvCallback replies host =
        .ok (status, after) →
      Host.Undone host after ∧ (∀ id, (after.sockTbl id).handle = (host.sockTbl id).handle) ∧
        (after.arenas ≠ host.arenas →
          after.retired.count host.arenas = host.retired.count host.arenas + 1) := by
  rcases hostOk_of_any reachable with ⟨listeners, ok⟩
  have undoes : ∀ call : TableCall, call.run setup.config replies host = .ok (status, after) →
      call.NoEffect host after :=
    fun call returned => (call.noEffect_ensures ok replies).of_ok returned failed
  refine ⟨?_, ?_, ?_⟩
  · intro port returned
    have undone := undoes (.listen handle port) returned
    rcases undone.handle with ⟨_, _, _, impossible⟩ | handles
    · cases impossible
    · exact { undone.toUndone with handles' := handles, released := undone.listener _ _ rfl }
  · intro connectCallback rcvCallback returned
    exact (undoes (.accept handle connectCallback rcvCallback) returned).toUndone
  · intro connectCallback rcvCallback returned
    have undone := undoes (.connect handle connectCallback rcvCallback) returned
    rcases undone.handle with ⟨_, _, _, impossible⟩ | handles
    · cases impossible
    · exact ⟨undone.toUndone, handles, undone.arena _ _ _ rfl⟩

/-- An accept for which the provider makes no completion queue. -/
theorem failed_calls_undone_no_queue :
    ∃ before after : Host (boundedQueue ℕ), (before.sockTbl 1).state = .listening ∧
      Host.accept (sampleSetup 8192 1).config sampleHandle 5 6
        { createCompletionQueue := eNotSufficientBuffer } before =
          .ok (eNotSufficientBuffer, after) ∧ Host.Undone before after := by
  have passes : (sampleRun sampleListen).toOption.any
      (fun host => (host.sockTbl 1).state = .listening ∧
        (Host.accept (sampleSetup 8192 1).config sampleHandle 5 6
          { createCompletionQueue := eNotSufficientBuffer } host).toOption.any
            (fun pair => pair.1 = eNotSufficientBuffer) = true) = true := by decide +kernel
  rcases sampleRun_reaches (fun _ _ _ => trivial) passes with ⟨before, reachable, holds⟩
  rcases of_decide_eq_true holds with ⟨listening, fails⟩
  cases returned : Host.accept (sampleSetup 8192 1).config sampleHandle 5 6
      { createCompletionQueue := eNotSufficientBuffer } before with
  | error stop =>
      rw [returned] at fails
      cases fails
  | ok pair =>
      rcases pair with ⟨status, after⟩
      rw [returned] at fails
      have same : status = eNotSufficientBuffer := of_decide_eq_true fails
      subst same
      exact ⟨before, after, listening, returned,
        (failed_calls_undone _ _ reachable sampleHandle _ (by decide)).2.1 5 6 returned⟩

/-- Whatever the state before a call of `Listen`, `Accept` or `Connect` and wherever the provider
fails it, a call that returns an error has had no lasting effect. -/
theorem refused_call_undone (queue : CircularQue ℕ) (setup : Setup) {host : Host queue}
    (reachable : (hostMachine queue setup).Reachable (fun _ _ => True) host) (call : TableCall)
    (replies : Replies) {status : StatusCode} {after : Host queue}
    (returned : call.run setup.config replies host = .ok (status, after))
    (failed : status ≠ hOk) : call.NoEffect host after := by
  rcases hostOk_of_any reachable with ⟨listeners, ok⟩
  exact (call.noEffect_ensures ok replies).of_ok returned failed

/-- A connect whose connector cannot be bound, after its regions have been registered. -/
theorem refused_call_undone_no_bind :
    ∃ before after : Host (boundedQueue ℕ),
      TableCall.NoEffect (.connect sampleHandle 5 6) before after ∧
      before.retired = [] ∧ after.arenas = 2 ∧ after.retired.count 0 = 1 := by
  have passes : (sampleRun [.createSocket]).toOption.any
      (fun host => (host.retired = [] ∧ host.arenas = 0) ∧
        ((TableCall.connect sampleHandle 5 6).run (sampleSetup 8192 1).config
          { sampleRegistered with bindConnector := eNotSufficientBuffer } host).toOption.any
            (fun pair => pair.1 = eNotSufficientBuffer ∧ pair.2.arenas = 2) = true) = true := by
    decide +kernel
  rcases sampleRun_reaches (fun _ _ _ => trivial) passes with ⟨before, reachable, holds⟩
  rcases of_decide_eq_true holds with ⟨⟨retired, arenas⟩, fails⟩
  cases returned : (TableCall.connect sampleHandle 5 6).run (sampleSetup 8192 1).config
      { sampleRegistered with bindConnector := eNotSufficientBuffer } before with
  | error stop =>
      rw [returned] at fails
      cases fails
  | ok pair =>
      rcases pair with ⟨status, after⟩
      rw [returned] at fails
      rcases of_decide_eq_true fails with ⟨same, begun⟩
      have failed : status ≠ hOk := by
        rw [show status = eNotSufficientBuffer from same]
        decide
      have undone := refused_call_undone _ _ reachable _ _ returned failed
      have begins : after.arenas ≠ before.arenas := by
        rw [arenas, show after.arenas = 2 from begun]
        decide
      have once := undone.arena _ _ _ rfl begins
      rw [arenas, retired] at once
      exact ⟨before, after, undone, retired, begun, once⟩

end Calls

section Notifications

theorem filter_eq_singleton {Entry Key : Type*} [DecidableEq Key] {key : Entry → Key}
    {entries : List Entry} (nodup : (entries.map key).Nodup) {entry : Entry}
    (member : entry ∈ entries) : entries.filter (fun other => key other = key entry) = [entry] := by
  induction entries with
  | nil => cases member
  | cons first rest ih =>
      rw [List.map_cons, List.nodup_cons] at nodup
      rcases List.mem_cons.mp member with same | later
      · subst same
        have others : rest.filter (fun other => key other = key entry) = [] := by
          rw [List.filter_eq_nil_iff]
          intro other present same
          exact nodup.1 (of_decide_eq_true same ▸ List.mem_map_of_mem present)
        rw [List.filter_cons_of_pos (by simp), others]
      · have different : key first ≠ key entry := by
          intro same
          exact nodup.1 (same ▸ List.mem_map_of_mem later)
        rw [List.filter_cons_of_neg (by simpa using different), ih nodup.2 later]

/-- What a call's notifier has been told. -/
def Host.told (host : Host queue) (call : ℕ) : List Notification :=
  host.notified.filter fun entry => entry.notifier.call = call

/-- What a notifier was told in a run without `TerminalCloser` is all it will have been told. -/
theorem Host.told_later {host later : Host queue}
    (reachable : (hostMachine queue setup).Reachable (fun _ action => action.Plain) host)
    (run : (hostMachine queue setup).Run (fun _ action => action.Plain) host later)
    {entry : Notification} (member : entry ∈ host.notified) :
    later.told entry.notifier.call = [entry] := by
  have kept := (elapsed_of_run (reachable.mono fun _ => trivial)
    (run.mono fun _ => trivial)).notified
  have admitted : (hostMachine queue setup).Reachable (Host.Admits setup.config plainMode) later :=
    (reachable.trans run).mono HostAction.Plain.admits
  rcases hostOk_of_reachable admitted with ⟨listeners, ok⟩
  exact filter_eq_singleton (ok.log.nodup rfl) (kept.mem member)

/-- In every run without `TerminalCloser` a notifier is called at most once for the call that passed
it, what it has been told is never taken back, and only notifiers of calls that were made are
called. -/
theorem notified_once (queue : CircularQue ℕ) (setup : Setup) {host later : Host queue}
    (reachable : (hostMachine queue setup).Reachable (fun _ action => action.Plain) host)
    (run : (hostMachine queue setup).Run (fun _ action => action.Plain) host later) :
    (∀ call, (later.told call).length ≤ 1) ∧
      (∀ entry ∈ host.notified, later.told entry.notifier.call = [entry]) ∧
      ∀ entry ∈ later.notified, entry.notifier.call < later.calls := by
  have reached := reachable.trans run
  rcases hostOk_of_reachable (reached.mono HostAction.Plain.admits) with ⟨listeners, ok⟩
  have once : ∀ entry ∈ later.notified, later.told entry.notifier.call = [entry] :=
    fun entry member => Host.told_later reached (.refl later) member
  refine ⟨?_, fun entry member => Host.told_later reachable run member, ok.log.logged⟩
  intro call
  cases told : later.told call with
  | nil => simp
  | cons entry rest =>
      have member : entry ∈ later.told call := by simp [told]
      rw [Host.told, List.mem_filter, decide_eq_true_eq] at member
      have single := once entry member.1
      rw [member.2, told] at single
      simp [single]

/-- A request that fails at once. -/
def sampleRefused : List HostAction :=
  sampleListen ++ [.accept sampleHandle 5 6 { getConnectionRequest := ndCanceled }]

theorem notified_once_refused :
    ∃ host : Host (boundedQueue ℕ), host.notified ≠ [] ∧
      ∀ entry ∈ host.notified, host.told entry.notifier.call = [entry] := by
  have passes : (sampleRun sampleRefused).toOption.any (fun host => host.notified ≠ []) = true := by
    decide +kernel
  have plain : ∀ action ∈ sampleRefused, action.Plain := by
    simp [sampleRefused, sampleListen, HostAction.Plain]
  rcases sampleRun_reaches (fun _ => plain) passes with ⟨host, reachable, holds⟩
  exact ⟨host, of_decide_eq_true holds, (notified_once _ _ reachable (.refl host)).2.1⟩

end Notifications

section Attempts

variable {ov id listener : ℕ} {host : Host queue} {hr : HRESULT} {replies : Replies}

/-- The step that a failed connect ends in. -/
theorem Host.connAck_stops {listeners : List ℕ} (ok : HostOk config openMode listeners {} host)
    (outstanding : host.Pends ov (.onConnAck id)) (final : hr ≠ ndPending)
    (fails : hr ≠ hOk ∨ Host.Replies.noHandShake replies) :
    Host.step config host (.complete ov hr replies) =
      .error (.abort (.fail hUnexpected "Socket in transition state for too long: %d")) := by
  rcases outstanding with ⟨member, runs⟩
  rcases Option.map_eq_some_iff.mp runs with ⟨⟨job, arena⟩, next, same⟩
  cases same
  rcases Host.attempting_of_onConnAck ok ⟨member, runs⟩ with ⟨attempt, state, _⟩
  apply Host.step_eq_error.mpr
  refine (Host.run_eq member next final).trans (apply_bind_error ?_)
  exact Host.onConnAck_fails (attempt.events (host.events ++ [.ran ov])) state fails

/-- In every reachable state a connect whose request fails, or comes without a hand shake, stops the
process: `OnConnAck` closes a socket that is in transition. -/
theorem failed_connect_aborts (queue : CircularQue ℕ) (setup : Setup) {host : Host queue}
    (reachable : (hostMachine queue setup).Reachable (fun _ _ => True) host)
    (outstanding : host.Pends ov (.onConnAck id)) (final : hr ≠ ndPending)
    (fails : hr ≠ hOk ∨ Host.Replies.noHandShake replies) :
    Host.step setup.config host (.complete ov hr replies) =
      .error (.abort (.fail hUnexpected "Socket in transition state for too long: %d")) := by
  rcases hostOk_of_any reachable with ⟨listeners, ok⟩
  exact Host.connAck_stops ok outstanding final fails

/-- A connect that waits is refused. -/
theorem failed_connect_aborts_refused :
    ∃ host : Host (boundedQueue ℕ), (host.sockTbl 1).state = .connecting ∧
      Host.step (sampleSetup 8192 1).config host (.complete 2 ndConnectionRefused {}) =
        .error (.abort (.fail hUnexpected "Socket in transition state for too long: %d")) := by
  have passes : (sampleRun [.createSocket, .connect sampleHandle 5 6 sampleRegistered]).toOption.any
      (fun host => (host.sockTbl 1).state = .connecting ∧ 2 ∈ host.pending ∧
        (host.overlaps 2).job? = some (.onConnAck 1)) = true := by decide +kernel
  rcases sampleRun_reaches (fun _ _ _ => trivial) passes with ⟨host, reachable, holds⟩
  rcases of_decide_eq_true holds with ⟨connecting, outstanding⟩
  exact ⟨host, connecting,
    failed_connect_aborts _ _ reachable outstanding (by decide) (.inl (by decide))⟩

end Attempts

section Stops

variable {host : Host queue} {action : HostAction} {stop : Stop}

end Stops

end Hermes
