import Hermes.HostClose

/-!
# Completions

What `Run` does when an overlapped operation has completed, for each job.
-/

namespace Hermes

open Program

variable {queue : CircularQue ℕ} {config : HostConfig} {mode : Mode} {listeners : List ℕ}
  {hand : Hand} {host : Host queue} {id conId ov termId listener : ℕ} {job : AsyncJob} {arena : ℕ}
  {replies : Replies} {err : StatusCode} {hr : HRESULT} {handle : UInt64}

namespace Host

section Completing

/-- The outstanding operation of an attempt is the only one. -/
theorem alone_of_unpend (ok : HostOk config mode listeners hand host)
    (outstanding : host.Pends ov job) {key : JobKey} (keyed : mode.key job = some key) :
    ∀ {ov' job'}, Host.Pends { host with pending := host.pending.erase ov } ov' job' →
      mode.key job' ≠ some key := by
  intro ov' job' outstanding' key'
  rcases (HostOk.pends_erase ok.overlaps.pendingNodup).mp outstanding' with ⟨other, before⟩
  exact other (ok.jobs.once before outstanding key' keyed)

/-- A connection request has completed: the accepting socket is picked up. -/
theorem attempting_of_onConn (ok : HostOk config mode listeners {} host)
    (outstanding : host.Pends ov (.onConn id listener)) :
    Attempting config mode listeners { ovs := [ov], refs := [listener] } id (host.sockTbl id).term
        { host with pending := host.pending.erase ov } ∧
      (host.sockTbl id).state = .accept1 ∧
        (host.connections (host.sockTbl id).term).Secret host.disclosed := by
  rcases ok.jobs.ready outstanding with ⟨settled, state, idle⟩
  have attempting : (host.sockTbl id).state.attempting = true := by rw [state]; rfl
  have owns := (ok.slots.sockets id settled).attempts attempting
  have ended := ok.unpend outstanding rfl
  rcases ended.pickOwner rfl rfl settled.1 owns.term.ne (alone_of_unpend ok outstanding rfl)
    with ⟨picked, carried⟩
  refine ⟨⟨picked, carried, idle, ?_⟩, state, ok.regions.secretAccept settled state idle⟩
  exact fun notifier func => ok.log.quiet settled attempting func

/-- A connect request has completed: the connecting socket is picked up. -/
theorem attempting_of_onConnAck (ok : HostOk config mode listeners {} host)
    (outstanding : host.Pends ov (.onConnAck id)) :
    Attempting config mode listeners { ovs := [ov] } id (host.sockTbl id).term
        { host with pending := host.pending.erase ov } ∧
      (host.sockTbl id).state = .connecting ∧
        (host.connections (host.sockTbl id).term).pMemRegion ≠ none := by
  rcases ok.jobs.ready outstanding with ⟨settled, state⟩
  have attempting : (host.sockTbl id).state.attempting = true := by rw [state]; rfl
  have fits := ok.slots.sockets id settled
  have owns := fits.attempts attempting
  simp only [SocketOk, state] at fits
  have ended := ok.unpend outstanding rfl
  rcases ended.pickOwner rfl rfl settled.1 owns.term.ne (alone_of_unpend ok outstanding rfl)
    with ⟨picked, carried⟩
  refine ⟨⟨picked, carried, fits.2, ?_⟩, state, ok.regions.connecting settled state⟩
  exact fun notifier func => ok.log.quiet settled attempting func

/-- `Run` for an outstanding operation. -/
theorem run_eq (outstanding : ov ∈ host.pending)
    (next : (host.overlaps ov).pNext = some (job, arena)) (final : hr ≠ ndPending) :
    run config ov hr replies host = (do
      runJob config job arena hr replies
      freeObj ov : Code queue PUnit)
        { host with pending := host.pending.erase ov, events := host.events ++ [.ran ov] } := by
  unfold run
  rw [apply_bind (unpend_eq outstanding), apply_bind (audit_eq final), apply_bind apply_get]
  dsimp only
  rw [next]
  rfl

/-- `Run` completes a registration as a waiting thread does. -/
theorem run_registration (outstanding : ov ∈ host.pending)
    (next : (host.overlaps ov).pNext = some (job, arena)) (registers : job.region? ≠ none)
    (final : hr ≠ ndPending) :
    run config ov hr replies host = completeRegistration ov hr host := by
  rw [run_eq outstanding next final]
  symm
  unfold completeRegistration
  rw [apply_bind (unpend_eq outstanding), apply_bind (audit_eq final), apply_bind rfl,
    apply_bind apply_get]
  dsimp only
  rw [next]
  symm
  cases job
  case onTagRegistered => rfl
  case onMemRegistered => rfl
  all_goals exact absurd rfl registers

/-- `Run`. -/
theorem run_ensures (ok : HostOk config mode listeners {} host) :
    Ensures (run config ov hr replies)
      (fun _ after => HostOk config mode listeners {} after) (mode.Tolerates config) host := by
  by_cases member : ov ∈ host.pending
  swap
  · unfold run
    exact ensures_unpend fun outstanding => absurd outstanding member
  by_cases final : hr ≠ ndPending
  swap
  · unfold run
    refine .step (unpend_eq member) (ensures_audit (fun _ => .inl (by decide)) ?_)
    exact fun holds => absurd holds final
  cases next : (host.overlaps ov).pNext with
  | none => exact absurd next (ok.overlaps.taken ov member)
  | some pair =>
      rcases pair with ⟨job, arena⟩
      have outstanding : host.Pends ov job := ⟨member, congrArg (Option.map Prod.fst) next⟩
      have freed : ∀ {after : Host queue}, HostOk config mode listeners { ovs := [ov] } after →
          Ensures (freeObj ov) (fun _ after => HostOk config mode listeners {} after)
            (mode.Tolerates config) after := fun afterOk =>
        (freeObj_ensures afterOk rfl).mono (fun _ _ freed => freed.2.2) fun _ stops => stops
      by_cases registers : job.region? ≠ none
      · have registration : Ensures (completeRegistration ov hr) _ _ host :=
          completeRegistration_ensures ok hr
        refine Ensures.congr ?_ (run_registration member next registers final)
        exact registration.mono (fun _ _ done => done.1) fun _ stops => stops
      refine Ensures.congr ?_ (run_eq member next final)
      have ready := ok.jobs.ready outstanding
      have ended := (ok.unpend outstanding (not_not.mp registers)).events
        (host.events ++ [.ran ov])
      have few : [ov].length ≤ 7 := Nat.le_add_left 1 6
      cases job
      case onConn id listener =>
        rcases attempting_of_onConn ok outstanding with ⟨attempt, state, secret⟩
        exact (onConn_ensures rfl (attempt.events _) rfl rfl few state secret hr arena).bind
          fun _ _ afterOk => freed afterOk
      case onConnAck id =>
        rcases attempting_of_onConnAck ok outstanding with ⟨attempt, state, mem⟩
        exact (onConnAck_ensures (attempt.events _) rfl rfl few state mem hr arena).bind
          fun _ _ afterOk => freed afterOk
      case onAccepted id =>
        refine (onConnAccepted_ensures ended rfl rfl
          (Nat.le_succ_of_le few) ready.1 ?_ ?_ hr arena).bind
          fun _ _ afterOk => freed afterOk
        · exact fun tight => (ready.2 tight).2
        · intro tight
          exact alone_of_unpend ok outstanding (if_neg (by rw [tight]; exact nofun))
      case onDisconNotified termId =>
        have notified : Ensures (onDisconNotified termId) _ (mode.Tolerates config)
            { host with pending := host.pending.erase ov, events := host.events ++ [.ran ov] } :=
          onDisconNotified_ensures fun tight => (ready.2 tight).1
        refine notified.bind ?_
        rintro _ _ ⟨posts, rfl⟩
        exact freed (ended.posts posts)
      case verbCompletion => exact trivial
      all_goals exact absurd nofun registers

end Completing

end Host

end Hermes
