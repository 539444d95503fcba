import Hermes.HostTables

/-!
# The worker threads

Completions of the provider are queued, and worker threads take them in order, each
running one to its end.  Two handlers have busy-waits in them: that of a registered
buffer region waits for the terminal's tag region, and `PrepareHandShakeData`, which
`ProcessConnReq` runs, waits for both.  What they wait for is recorded by handlers of
the same threads.

`workerMachine` has the regions of the terminals, what is with the provider, the queue
and the workers.  A worker that does not wait is idle: other handlers run to their end.
-/

namespace Hermes

open Program

/-- What a completion does; `conn` is `ProcessConnReq` for a terminal. -/
inductive RegionJob where
  | tag (conId region : ℕ)
  | mem (conId region : ℕ)
  | conn (conId : ℕ)
  deriving DecidableEq, Repr

namespace RegionJob

def conId : RegionJob → ℕ
  | tag conId _ | mem conId _ | conn conId => conId

/-- The job records the tag region of the terminal. -/
def isTag (conId : ℕ) : RegionJob → Bool
  | tag conId' _ => conId' = conId
  | _ => false

/-- The job records the buffer region of the terminal. -/
def isMem (conId : ℕ) : RegionJob → Bool
  | mem conId' _ => conId' = conId
  | _ => false

end RegionJob

/-- A completion with its result.  `early` is for the statements: it was posted before a
registration it waits for. -/
structure Posted where
  job : RegionJob
  hr : HRESULT
  early : Bool
  deriving DecidableEq, Repr

/-- The threads that are not idle are in a busy-wait. -/
structure WorkerPool where
  connections : ℕ → Terminal := fun _ => {}
  outstanding : List RegionJob := []
  queued : List Posted := []
  idle : ℕ
  waiting : List Posted := []

/-- What happens.  The two halves of `CreateMemRegions` get what `Register` returns; `refused`
says that `ProcessConnReq` ends before it waits, because the library is closing or the private
data cannot be had; `destroy` is what `TerminalCloser` is assumed to do with the regions. -/
inductive WorkerAction where
  | registerTag (conId region : ℕ) (hr : HRESULT)
  | registerMem (conId region : ℕ) (hr : HRESULT)
  | request (conId : ℕ)
  | complete (job : RegionJob) (hr : HRESULT)
  | take (refused : Bool)
  | resume (posted : Posted)
  | destroy (conId : ℕ)

section Handlers

variable (conId region : ℕ) (hr : HRESULT) (connections : ℕ → Terminal)

/-- `pOnTagRegistered`. -/
def recordTag : Except Stop (ℕ → Terminal) :=
  if hr ≠ ndSuccess then .error (.abort (.fail hr "Failed to register tag region."))
  else if (connections conId).pTagRegion = none then
    .ok (Function.update connections conId
      { connections conId with pTagRegion := some region })
  else .error (.abort (.assert "Duplicate init of tag mem region."))

/-- `pOnMemRegistered`, blocked while it waits. -/
def recordMem : Except Stop (ℕ → Terminal) :=
  if hr ≠ ndSuccess then .error (.abort (.fail hr "Failed to register buffer region."))
  else if (connections conId).pTagRegion = none then .error .blocked
  else if (connections conId).pMemRegion = none then
    .ok (Function.update connections conId
      { connections conId with pMemRegion := some region })
  else .error (.abort (.assert "Duplicate init of buffer mem region."))

/-- The wait in `PrepareHandShakeData` is over. -/
def haveRegions : Bool :=
  (connections conId).pMemRegion.isSome && (connections conId).pTagRegion.isSome

end Handlers

namespace WorkerPool

/-- How far a completion gets: to its end, where the terminals have changed, or into its wait. -/
def attempt (posted : Posted) (refused : Bool) (connections : ℕ → Terminal) :
    Except Stop (Option (ℕ → Terminal)) :=
  match posted.job with
  | .tag conId region => (recordTag conId region posted.hr connections).map some
  | .mem conId region =>
      if posted.hr = ndSuccess ∧ (connections conId).pTagRegion = none then .ok none
      else (recordMem conId region posted.hr connections).map some
  | .conn conId =>
      if posted.hr ≠ hOk ∨ refused = true then .ok (some connections)
      else if haveRegions conId connections then .ok (some connections)
      else .ok none

/-- The tag region is recorded, or a completion ahead will record it. -/
def tagReady (connections : ℕ → Terminal) (ahead : List Posted) (conId : ℕ) : Bool :=
  (connections conId).pTagRegion.isSome || ahead.any fun posted => posted.job.isTag conId

/-- The buffer region is recorded, or a completion ahead, or one a worker has, will record it. -/
def memReady (connections : ℕ → Terminal) (ahead waiting : List Posted) (conId : ℕ) : Bool :=
  (connections conId).pMemRegion.isSome || (ahead ++ waiting).any fun posted =>
    posted.job.isMem conId

/-- What the job waits for comes before it. -/
def ready (connections : ℕ → Terminal) (ahead waiting : List Posted) : RegionJob → Bool
  | .tag _ _ => true
  | .mem conId _ => tagReady connections ahead conId
  | .conn conId => tagReady connections ahead conId && memReady connections ahead waiting conId

/-- A completion posted now is early: it succeeds, and a registration it waits for is neither
recorded nor ahead of it. -/
def early (pool : WorkerPool) (job : RegionJob) (hr : HRESULT) : Bool :=
  hr = hOk && !ready pool.connections pool.queued pool.waiting job

/-- The terminal has registrations or a connection request in progress. -/
def busy (pool : WorkerPool) (conId : ℕ) : Bool :=
  pool.outstanding.any (fun job => job.conId = conId) ||
    (pool.queued ++ pool.waiting).any fun posted => posted.job.conId = conId

def step (pool : WorkerPool) : WorkerAction → Except Stop WorkerPool
  | .registerTag conId region hr =>
      if (pool.connections conId).pMemRegion ≠ none then .error .blocked
      else if hr = ndPending then
        return { pool with outstanding := pool.outstanding ++ [.tag conId region] }
      else do
        let connections ← recordTag conId region hr pool.connections
        return { pool with connections }
  | .registerMem conId region hr =>
      if (pool.connections conId).pMemRegion ≠ none then .error .blocked
      else if hr = ndPending then
        return { pool with outstanding := pool.outstanding ++ [.mem conId region] }
      else do
        let connections ← recordMem conId region hr pool.connections
        return { pool with connections }
  | .request conId => return { pool with outstanding := pool.outstanding ++ [.conn conId] }
  | .complete job hr =>
      if job ∈ pool.outstanding then
        return { pool with
          outstanding := pool.outstanding.erase job
          queued := pool.queued ++ [⟨job, hr, pool.early job hr⟩] }
      else .error .blocked
  | .take refused =>
      match pool.queued with
      | [] => .error .blocked
      | posted :: queued =>
          if pool.idle = 0 then .error .blocked
          else do
            match ← attempt posted refused pool.connections with
            | some connections => return { pool with connections, queued }
            | none =>
                return { pool with
                  queued, idle := pool.idle - 1, waiting := posted :: pool.waiting }
  | .resume posted =>
      if posted ∈ pool.waiting then do
        match ← attempt posted false pool.connections with
        | some connections =>
            return { pool with
              connections, idle := pool.idle + 1, waiting := pool.waiting.erase posted }
        | none => .error .blocked
      else .error .blocked
  | .destroy conId =>
      if pool.busy conId then .error .blocked
      else
        return { pool with
          connections := Function.update pool.connections conId
            (pool.connections conId).noRegions }

/-- The completion does not get beyond its busy-wait. -/
def Waits (pool : WorkerPool) (posted : Posted) : Prop :=
  attempt posted false pool.connections = .ok none

/-- The completion of a registration that a terminal misses is queued. -/
def AwaitsQueued (pool : WorkerPool) : RegionJob → Prop
  | .tag _ _ => True
  | .mem conId _ => pool.queued.any fun posted => posted.job.isTag conId
  | .conn conId =>
      ((pool.connections conId).pTagRegion = none →
        pool.queued.any fun posted => posted.job.isTag conId) ∧
      ((pool.connections conId).pMemRegion = none →
        pool.queued.any fun posted => posted.job.isMem conId)

/-- All workers are in busy-waits, and what they wait for is queued. -/
def Caught (pool : WorkerPool) : Prop :=
  pool.idle = 0 ∧ pool.waiting ≠ [] ∧ ∀ posted ∈ pool.waiting,
    pool.Waits posted ∧ pool.AwaitsQueued posted.job

/-- The completions in progress that were posted early. -/
def earlyCount (pool : WorkerPool) : ℕ := (pool.queued ++ pool.waiting).countP Posted.early

end WorkerPool

/-- The library's worker threads. -/
def workerMachine (workers : ℕ) : Machine WorkerPool WorkerAction Stop where
  start pool := pool = { idle := workers }
  step := WorkerPool.step

/-- A completion that comes before a registration it waits for is posted only while one worker at
least has none of these. -/
def WorkerPool.Timely (workers : ℕ) (pool : WorkerPool) : WorkerAction → Prop
  | .complete job hr => pool.early job hr = true → pool.earlyCount + 1 < workers
  | _ => True

namespace WorkerPool

variable {pool next : WorkerPool} {connections connections' : ℕ → Terminal}
  {ahead ahead' waiting waiting' : List Posted} {posted : Posted} {job : RegionJob} {hr : HRESULT}
  {refused : Bool} {conId region : ℕ}

section Handlers

/-- The handler of the library does to the terminals what `recordTag` does. -/
theorem onTagRegistered_eq {queue : CircularQue ℕ} (host : Host queue) :
    Host.onTagRegistered conId region hr host =
      (recordTag conId region hr host.connections).map fun connections =>
        (⟨⟩, { host with connections }) := by
  unfold Host.onTagRegistered recordTag
  by_cases failed : hr ≠ ndSuccess
  · rw [if_pos failed, if_pos failed]
    rfl
  rw [if_neg failed, if_neg failed, apply_bind apply_get]
  by_cases missing : (host.connections conId).pTagRegion = none
  · rw [apply_bind (Host.audit_eq missing), if_pos missing]
    rfl
  · rw [if_neg missing, Host.audit, if_neg missing]
    rfl

/-- The handler of the library does to the terminals what `recordMem` does, and waits when this is
blocked. -/
theorem onMemRegistered_eq {queue : CircularQue ℕ} (host : Host queue) (arena : ℕ) :
    Host.onMemRegistered conId region arena hr (pure ⟨⟩) host =
      (recordMem conId region hr host.connections).map fun connections =>
        (⟨⟩, { host with
          connections
          retired := host.retired ++ [arena]
          events := host.events ++ [.retired arena] }) := by
  unfold Host.onMemRegistered recordMem
  by_cases failed : hr ≠ ndSuccess
  · rw [if_pos failed, if_pos failed]
    rfl
  rw [if_neg failed, if_neg failed, apply_bind (apply_pure _), apply_bind apply_get]
  by_cases untagged : (host.connections conId).pTagRegion = none
  · rw [if_pos untagged, if_pos untagged]
    rfl
  rw [if_neg untagged, if_neg untagged]
  by_cases missing : (host.connections conId).pMemRegion = none
  · rw [apply_bind (Host.audit_eq missing), if_pos missing]
    rfl
  · rw [if_neg missing, Host.audit, if_neg missing]
    rfl

/-- `PrepareHandShakeData` waits when a region is missing. -/
theorem prepareHandShakeData_blocked {queue : CircularQue ℕ} {config : HostConfig} {mode : Mode}
    {listeners : List ℕ} {hand : Hand} {host : Host queue}
    (ok : HostOk config mode listeners hand host) (inRange : config.TermId conId)
    (replies : Replies) (alone : replies.whileRegions = []) :
    Host.prepareHandShakeData config conId replies host = .error .blocked ↔
      haveRegions conId host.connections = false := by
  unfold Host.prepareHandShakeData haveRegions
  rw [apply_bind (Host.getTerminal_eq inRange.1 inRange.2),
    apply_bind (Host.getRcvBuf_eq ok.rings inRange.1 inRange.2), alone,
    Host.completeRegistrations, apply_bind (apply_pure _), apply_bind apply_get]
  cases mem : (host.connections conId).pMemRegion with
  | none => simp
  | some memRegion =>
      cases tag : (host.connections conId).pTagRegion with
      | none => simp
      | some tagRegion =>
          dsimp only
          rw [apply_bind (apply_modify _)]
          simp

end Handlers

section Steps

/-- Handlers record regions, and forget none. -/
structure Records (connections connections' : ℕ → Terminal) : Prop where
  tag : ∀ conId, (connections conId).pTagRegion.isSome = true →
    (connections' conId).pTagRegion.isSome = true
  mem : ∀ conId, (connections conId).pMemRegion.isSome = true →
    (connections' conId).pMemRegion.isSome = true

theorem Records.refl (connections : ℕ → Terminal) : Records connections connections :=
  ⟨fun _ some => some, fun _ some => some⟩

theorem recordTag_records (recorded : recordTag conId region hr connections = .ok connections') :
    Records connections connections' ∧ (connections' conId).pTagRegion.isSome = true := by
  unfold recordTag at recorded
  split at recorded
  · cases recorded
  split at recorded
  · cases recorded
    refine ⟨⟨?_, ?_⟩, by simp⟩
    · intro other some
      by_cases same : other = conId
      · simp [same]
      · simpa [Function.update_of_ne same] using some
    · intro other some
      by_cases same : other = conId
      · subst same
        simpa using some
      · simpa [Function.update_of_ne same] using some
  · cases recorded

theorem recordMem_records (recorded : recordMem conId region hr connections = .ok connections') :
    Records connections connections' ∧ (connections' conId).pMemRegion.isSome = true := by
  unfold recordMem at recorded
  split at recorded
  · cases recorded
  split at recorded
  · cases recorded
  split at recorded
  · cases recorded
    refine ⟨⟨?_, ?_⟩, by simp⟩
    · intro other some
      by_cases same : other = conId
      · subst same
        simpa using some
      · simpa [Function.update_of_ne same] using some
    · intro other some
      by_cases same : other = conId
      · simp [same]
      · simpa [Function.update_of_ne same] using some
  · cases recorded

/-- What a completion that gets to its end has done. -/
theorem attempt_ended (ended : attempt posted refused connections = .ok (some connections')) :
    Records connections connections' ∧
      (∀ conId, posted.job.isTag conId = true → (connections' conId).pTagRegion.isSome = true) ∧
      ∀ conId, posted.job.isMem conId = true → (connections' conId).pMemRegion.isSome = true := by
  unfold attempt at ended
  cases job : posted.job with
  | tag conId region =>
      rw [job] at ended
      dsimp only at ended
      cases outcome : recordTag conId region posted.hr connections with
      | error stop =>
          rw [outcome] at ended
          cases ended
      | ok recorded =>
          rw [outcome] at ended
          cases ended
          rcases recordTag_records outcome with ⟨records, own⟩
          refine ⟨records, fun other same => ?_, fun other => nofun⟩
          simp only [RegionJob.isTag, decide_eq_true_eq] at same
          exact same ▸ own
  | mem conId region =>
      rw [job] at ended
      dsimp only at ended
      split at ended
      · cases ended
      cases outcome : recordMem conId region posted.hr connections with
      | error stop =>
          rw [outcome] at ended
          cases ended
      | ok recorded =>
          rw [outcome] at ended
          cases ended
          rcases recordMem_records outcome with ⟨records, own⟩
          refine ⟨records, fun other => nofun, fun other same => ?_⟩
          simp only [RegionJob.isMem, decide_eq_true_eq] at same
          exact same ▸ own
  | conn conId =>
      rw [job] at ended
      dsimp only at ended
      refine ⟨?_, fun other => nofun, fun other => nofun⟩
      split at ended
      · cases ended
        exact .refl _
      split at ended
      · cases ended
        exact .refl _
      · cases ended

/-- What a completion that waits is. -/
theorem attempt_waits (waits : attempt posted refused connections = .ok none) :
    posted.hr = hOk ∧ (∀ conId, posted.job.isTag conId = false) ∧
      ((∃ conId region, posted.job = .mem conId region ∧
          (connections conId).pTagRegion = none) ∨
        ∃ conId, posted.job = .conn conId ∧ haveRegions conId connections = false) := by
  unfold attempt at waits
  cases job : posted.job with
  | tag conId region =>
      rw [job] at waits
      dsimp only at waits
      cases outcome : recordTag conId region posted.hr connections with
      | error stop =>
          rw [outcome] at waits
          cases waits
      | ok recorded =>
          rw [outcome] at waits
          cases waits
  | mem conId region =>
      rw [job] at waits
      dsimp only at waits
      split at waits
      next holds => exact ⟨holds.1, fun _ => rfl, .inl ⟨conId, region, rfl, holds.2⟩⟩
      cases outcome : recordMem conId region posted.hr connections with
      | error stop =>
          rw [outcome] at waits
          cases waits
      | ok recorded =>
          rw [outcome] at waits
          cases waits
  | conn conId =>
      rw [job] at waits
      dsimp only at waits
      split at waits
      · cases waits
      next proceeds =>
        split at waits
        · cases waits
        next missing =>
          refine ⟨not_not.mp (not_or.mp proceeds).1, fun _ => rfl, .inr ⟨conId, rfl, ?_⟩⟩
          simpa using missing

/-- What comes before a job keeps it ready. -/
theorem ready_of
    (tag : tagReady connections ahead job.conId = true →
      tagReady connections' ahead' job.conId = true)
    (mem : memReady connections ahead waiting job.conId = true →
      memReady connections' ahead' waiting' job.conId = true)
    (isReady : ready connections ahead waiting job = true) :
    ready connections' ahead' waiting' job = true := by
  cases job with
  | tag => rfl
  | mem conId region => exact tag isReady
  | conn conId =>
      simp only [ready, Bool.and_eq_true] at isReady ⊢
      exact ⟨tag isReady.1, mem isReady.2⟩

/-- The invariant: completions that are not early have what they wait for before them, and one
worker at least has no early completion. -/
structure Sound (pool : WorkerPool) : Prop where
  queued : ∀ front posted rest, pool.queued = front ++ posted :: rest → posted.early = false →
    posted.hr = hOk → ready pool.connections front pool.waiting posted.job = true
  running : ∀ posted ∈ pool.waiting, posted.early = false → posted.hr = hOk →
    ready pool.connections [] pool.waiting posted.job = true
  few : pool.idle + pool.waiting.length = 0 ∨
    pool.earlyCount < pool.idle + pool.waiting.length

/-- Regions are recorded. -/
theorem Sound.of_records (sound : pool.Sound) (outstanding : List RegionJob)
    (records : Records pool.connections connections') :
    WorkerPool.Sound { pool with connections := connections', outstanding } := by
  have tagReady' : ∀ ahead conId, tagReady pool.connections ahead conId = true →
      tagReady connections' ahead conId = true := by
    intro ahead conId isReady
    simp only [tagReady, Bool.or_eq_true] at isReady ⊢
    exact isReady.imp (records.tag conId) id
  have memReady' : ∀ ahead conId, memReady pool.connections ahead pool.waiting conId = true →
      memReady connections' ahead pool.waiting conId = true := by
    intro ahead conId isReady
    simp only [memReady, Bool.or_eq_true] at isReady ⊢
    exact isReady.imp (records.mem conId) id
  constructor
  case queued =>
    intro front posted rest same timely succeeded
    exact ready_of (tagReady' _ _) (memReady' _ _)
      (sound.queued front posted rest same timely succeeded)
  case running =>
    intro posted member timely succeeded
    exact ready_of (tagReady' _ _) (memReady' _ _) (sound.running posted member timely succeeded)
  case few => exact sound.few

/-- A completion is posted. -/
theorem Sound.post (sound : pool.Sound) {outstanding : List RegionJob}
    (timely : pool.early job hr = true → pool.earlyCount + 1 < pool.idle + pool.waiting.length) :
    WorkerPool.Sound { pool with
      outstanding, queued := pool.queued ++ [⟨job, hr, pool.early job hr⟩] } := by
  constructor
  case queued =>
    intro front posted rest same notEarly succeeded
    rcases List.append_eq_append_iff.mp same with ⟨more, front', last⟩ | ⟨more, here, there⟩
    · cases more with
      | nil =>
          rw [List.append_nil] at front'
          simp only [List.nil_append, List.cons.injEq] at last
          rw [front']
          simp only [← last.1, early, Bool.and_eq_false_iff, decide_eq_false_iff_not,
            Bool.not_eq_false'] at notEarly succeeded ⊢
          exact notEarly.resolve_left fun failed => failed succeeded
      | cons other more =>
          simp only [List.cons_append, List.cons.injEq] at last
          simp at last
    · cases more with
      | nil =>
          simp only [List.nil_append, List.cons.injEq] at there
          rw [List.append_nil] at here
          rw [← here]
          simp only [there.1, early, Bool.and_eq_false_iff, decide_eq_false_iff_not,
            Bool.not_eq_false'] at notEarly succeeded ⊢
          exact notEarly.resolve_left fun failed => failed succeeded
      | cons other more =>
          simp only [List.cons_append, List.cons.injEq] at there
          rw [← there.1] at here
          exact sound.queued front posted more here notEarly succeeded
  case running => exact sound.running
  case few =>
    have few := sound.few
    simp only [earlyCount, List.countP_append, List.countP_singleton] at few timely ⊢
    cases flag : pool.early job hr with
    | true =>
        have room := timely flag
        simp only [if_true]
        omega
    | false =>
        simp only [Bool.false_eq_true, if_false]
        omega

/-- A completion is taken and runs to its end. -/
theorem Sound.takeEnds (sound : pool.Sound) {rest : List Posted}
    (front : pool.queued = posted :: rest)
    (ended : attempt posted refused pool.connections = .ok (some connections')) :
    WorkerPool.Sound { pool with connections := connections', queued := rest } := by
  rcases attempt_ended ended with ⟨records, tag, mem⟩
  have tagReady' : ∀ ahead conId, tagReady pool.connections (posted :: ahead) conId = true →
      tagReady connections' ahead conId = true := by
    intro ahead conId isReady
    simp only [tagReady, Bool.or_eq_true, List.any_cons] at isReady ⊢
    rcases isReady with recorded | own | other
    · exact .inl (records.tag conId recorded)
    · exact .inl (tag conId own)
    · exact .inr other
  have memReady' : ∀ ahead conId,
      memReady pool.connections (posted :: ahead) pool.waiting conId = true →
        memReady connections' ahead pool.waiting conId = true := by
    intro ahead conId isReady
    simp only [memReady, Bool.or_eq_true, List.cons_append, List.any_cons] at isReady ⊢
    rcases isReady with recorded | own | other
    · exact .inl (records.mem conId recorded)
    · exact .inl (mem conId own)
    · exact .inr other
  have sound' := sound.of_records pool.outstanding records
  constructor
  case queued =>
    intro before later after same timely succeeded
    refine ready_of (tagReady' before _) (memReady' before _)
      (sound.queued (posted :: before) later after ?_ timely succeeded)
    rw [front, List.cons_append]
    exact congrArg (posted :: ·) same
  case running => exact sound'.running
  case few =>
    have few := sound.few
    simp only [earlyCount, front, List.cons_append, List.countP_cons] at few ⊢
    omega

/-- A completion is taken and waits. -/
theorem Sound.takeWaits (sound : pool.Sound) {rest : List Posted}
    (front : pool.queued = posted :: rest) (free : pool.idle ≠ 0)
    (waits : attempt posted refused pool.connections = .ok none) :
    WorkerPool.Sound { pool with
      queued := rest, idle := pool.idle - 1, waiting := posted :: pool.waiting } := by
  have noTag := (attempt_waits waits).2.1
  have tagReady' : ∀ ahead conId, tagReady pool.connections (posted :: ahead) conId = true →
      tagReady pool.connections ahead conId = true := by
    intro ahead conId isReady
    simpa [tagReady, noTag] using isReady
  have memReady' : ∀ ahead conId,
      memReady pool.connections (posted :: ahead) pool.waiting conId = true →
        memReady pool.connections ahead (posted :: pool.waiting) conId = true := by
    intro ahead conId isReady
    simp only [memReady, Bool.or_eq_true, List.any_append, List.any_cons] at isReady ⊢
    rcases isReady with recorded | (own | other) | held
    · exact .inl recorded
    · exact .inr (.inr (.inl own))
    · exact .inr (.inl other)
    · exact .inr (.inr (.inr held))
  constructor
  case queued =>
    intro before later after same timely succeeded
    refine ready_of (tagReady' before _) (memReady' before _)
      (sound.queued (posted :: before) later after ?_ timely succeeded)
    rw [front, List.cons_append]
    exact congrArg (posted :: ·) same
  case running =>
    have grown : ∀ job, ready pool.connections [] pool.waiting job = true →
        ready pool.connections [] (posted :: pool.waiting) job = true := by
      intro job
      refine ready_of id fun isReady => ?_
      simp only [memReady, Bool.or_eq_true, List.nil_append, List.any_cons] at isReady ⊢
      exact isReady.imp_right .inr
    intro other member timely succeeded
    rcases List.mem_cons.mp member with rfl | member
    · exact grown _ (sound.queued [] other rest front timely succeeded)
    · exact grown _ (sound.running other member timely succeeded)
  case few =>
    have few := sound.few
    simp only [earlyCount, front, List.cons_append, List.countP_cons, List.countP_append,
      List.length_cons] at few ⊢
    omega

/-- A completion that waited gets to its end. -/
theorem Sound.resume (sound : pool.Sound) (member : posted ∈ pool.waiting)
    (ended : attempt posted false pool.connections = .ok (some connections')) :
    WorkerPool.Sound { pool with
      connections := connections'
      idle := pool.idle + 1
      waiting := pool.waiting.erase posted } := by
  rcases attempt_ended ended with ⟨records, tag, mem⟩
  have split := List.perm_cons_erase member
  have tagReady' : ∀ ahead conId, tagReady pool.connections ahead conId = true →
      tagReady connections' ahead conId = true := by
    intro ahead conId isReady
    simp only [tagReady, Bool.or_eq_true] at isReady ⊢
    exact isReady.imp (records.tag conId) id
  have memReady' : ∀ ahead conId, memReady pool.connections ahead pool.waiting conId = true →
      memReady connections' ahead (pool.waiting.erase posted) conId = true := by
    intro ahead conId isReady
    simp only [memReady, Bool.or_eq_true, List.any_append, List.any_eq_true] at isReady ⊢
    rcases isReady with recorded | other | ⟨held, member', isMem⟩
    · exact .inl (records.mem conId recorded)
    · exact .inr (.inl other)
    · rcases List.mem_cons.mp (split.mem_iff.mp member') with rfl | kept
      · exact .inl (mem conId isMem)
      · exact .inr (.inr ⟨held, kept, isMem⟩)
  constructor
  case queued =>
    intro front later rest same timely succeeded
    exact ready_of (tagReady' _ _) (memReady' _ _)
      (sound.queued front later rest same timely succeeded)
  case running =>
    intro other member' timely succeeded
    exact ready_of (tagReady' _ _) (memReady' _ _)
      (sound.running other (List.mem_of_mem_erase member') timely succeeded)
  case few =>
    have few := sound.few
    have counted := split.countP_eq Posted.early
    have length := split.length_eq
    simp only [earlyCount, List.countP_append, List.countP_cons, List.length_cons] at *
    omega

/-- The regions of a terminal are destroyed that has nothing in progress. -/
theorem Sound.destroy (sound : pool.Sound) (free : pool.busy conId = false) :
    WorkerPool.Sound { pool with
      connections := Function.update pool.connections conId
        (pool.connections conId).noRegions } := by
  have others : ∀ posted ∈ pool.queued ++ pool.waiting, posted.job.conId ≠ conId := by
    intro posted member same
    simp only [busy, Bool.or_eq_false_iff, List.any_eq_false, decide_eq_true_eq] at free
    exact free.2 posted member same
  have kept : ∀ posted ∈ pool.queued ++ pool.waiting, ∀ ahead,
      ready pool.connections ahead pool.waiting posted.job = true →
        ready (Function.update pool.connections conId (pool.connections conId).noRegions) ahead
          pool.waiting posted.job = true := by
    intro posted member ahead isReady
    have other := others posted member
    refine ready_of ?_ ?_ isReady
    · simp [tagReady, Function.update_of_ne other]
    · simp [memReady, Function.update_of_ne other]
  constructor
  case queued =>
    intro front posted rest same timely succeeded
    apply kept posted
    · rw [show pool.queued = _ from same]
      simp
    · exact sound.queued front posted rest same timely succeeded
  case running =>
    intro posted member timely succeeded
    exact kept posted (List.mem_append_right _ member) _
      (sound.running posted member timely succeeded)
  case few => exact sound.few

/-- Every timely step keeps the invariant, and the number of workers. -/
theorem Sound.step (sound : pool.Sound) {action : WorkerAction}
    (timely : pool.Timely (pool.idle + pool.waiting.length) action)
    (stepped : WorkerPool.step pool action = .ok next) :
    next.Sound ∧ next.idle + next.waiting.length = pool.idle + pool.waiting.length := by
  cases action with
  | registerTag conId region hr =>
      simp only [WorkerPool.step, bind, Except.bind] at stepped
      split at stepped
      · cases stepped
      split at stepped
      · cases stepped
        exact ⟨sound.of_records _ (.refl _), rfl⟩
      split at stepped
      · cases stepped
      next recorded outcome =>
        cases stepped
        exact ⟨sound.of_records _ (recordTag_records outcome).1, rfl⟩
  | registerMem conId region hr =>
      simp only [WorkerPool.step, bind, Except.bind] at stepped
      split at stepped
      · cases stepped
      split at stepped
      · cases stepped
        exact ⟨sound.of_records _ (.refl _), rfl⟩
      split at stepped
      · cases stepped
      next recorded outcome =>
        cases stepped
        exact ⟨sound.of_records _ (recordMem_records outcome).1, rfl⟩
  | request conId =>
      cases stepped
      exact ⟨sound.of_records _ (.refl _), rfl⟩
  | complete job hr =>
      simp only [WorkerPool.step] at stepped
      split at stepped
      · cases stepped
        exact ⟨sound.post timely, rfl⟩
      · cases stepped
  | take refused =>
      simp only [WorkerPool.step, bind, Except.bind] at stepped
      split at stepped
      · cases stepped
      next posted rest front =>
        split at stepped
        · cases stepped
        next idle =>
          cases outcome : attempt posted refused pool.connections with
          | error stop =>
              rw [outcome] at stepped
              cases stepped
          | ok ended =>
              rw [outcome] at stepped
              cases ended with
              | some recorded =>
                  cases stepped
                  exact ⟨sound.takeEnds front outcome, rfl⟩
              | none =>
                  cases stepped
                  refine ⟨sound.takeWaits front idle outcome, ?_⟩
                  simp only [List.length_cons]
                  omega
  | resume posted =>
      simp only [WorkerPool.step, bind, Except.bind] at stepped
      split at stepped
      next member =>
        cases outcome : attempt posted false pool.connections with
        | error stop =>
            rw [outcome] at stepped
            cases stepped
        | ok ended =>
            rw [outcome] at stepped
            cases ended with
            | none => cases stepped
            | some recorded =>
                cases stepped
                refine ⟨sound.resume member outcome, ?_⟩
                have length := (List.perm_cons_erase member).length_eq
                simp only [List.length_cons] at length
                dsimp only
                omega
      · cases stepped
  | destroy conId =>
      simp only [WorkerPool.step] at stepped
      split at stepped
      · cases stepped
      next free =>
        cases stepped
        exact ⟨sound.destroy (by simpa using free), rfl⟩

/-- Not all workers wait in vain. -/
theorem Sound.not_all_wait (sound : pool.Sound) (none : pool.idle = 0)
    (occupied : pool.waiting ≠ []) :
    ∃ posted ∈ pool.waiting, ¬pool.Waits posted := by
  by_contra all
  have waits : ∀ posted ∈ pool.waiting, pool.Waits posted := by
    intro posted member
    by_contra ends
    exact all ⟨posted, member, ends⟩
  have few := sound.few
  have workers := List.length_pos_iff.mpr occupied
  rw [none, earlyCount, List.countP_append] at few
  have timely : ∃ posted ∈ pool.waiting, posted.early = false := by
    by_contra early
    have counted : pool.waiting.countP Posted.early = pool.waiting.length := by
      apply List.countP_eq_length.mpr
      intro posted member
      by_contra notEarly
      exact early ⟨posted, member, by simpa using notEarly⟩
    omega
  rcases timely with ⟨posted, member, notEarly⟩
  rcases attempt_waits (waits posted member) with ⟨succeeded, _, kind⟩
  have isReady := sound.running posted member notEarly succeeded
  rcases kind with ⟨conId, region, job, untagged⟩ | ⟨conId, job, missing⟩
  · rw [job] at isReady
    simp [ready, tagReady, untagged] at isReady
  · rw [job] at isReady
    simp only [ready, tagReady, memReady, List.any_nil, List.nil_append, Bool.and_eq_true,
      Bool.or_eq_true, Bool.false_eq_true, or_false, List.any_eq_true] at isReady
    rcases isReady with ⟨tag, mem | ⟨other, member', isMem⟩⟩
    · simp [haveRegions, tag, mem] at missing
    -- the registration it waits for is in a wait itself, for a region that is there
    · rcases attempt_waits (waits other member') with ⟨_, _, kind⟩
      rcases kind with ⟨conId', region, job', untagged⟩ | ⟨conId', job', _⟩
      · rw [job'] at isMem
        simp only [RegionJob.isMem, decide_eq_true_eq] at isMem
        rw [isMem] at untagged
        rw [untagged] at tag
        cases tag
      · rw [job'] at isMem
        cases isMem

theorem Sound.not_caught (sound : pool.Sound) : ¬pool.Caught := by
  rintro ⟨none, occupied, caught⟩
  rcases sound.not_all_wait none occupied with ⟨posted, member, ends⟩
  exact ends (caught posted member).1

end Steps

section Runs

variable {workers : ℕ}

/-- The invariant holds in every run of timely steps. -/
theorem reachable_sound
    (reachable : (workerMachine workers).Reachable (WorkerPool.Timely workers) pool) :
    pool.Sound ∧ pool.idle + pool.waiting.length = workers := by
  refine reachable.invariant
    (fun pool => pool.Sound ∧ pool.idle + pool.waiting.length = workers) ?_ ?_
  · rintro pool rfl
    refine ⟨⟨?_, by simp, ?_⟩, rfl⟩
    · intro front posted rest same
      simp at same
    · simp only [earlyCount, List.append_nil, List.countP_nil]
      exact Nat.eq_zero_or_pos workers
  · rintro pool action next ⟨sound, size⟩ timely stepped
    rcases sound.step (size ▸ timely) stepped with ⟨sound', size'⟩
    exact ⟨sound', size'.trans size⟩

/-- The workers are never all caught, if a completion that comes before a registration it waits
for is posted only while fewer than all workers but one are taken by these. -/
theorem workers_not_caught {pool : WorkerPool}
    (reachable : (workerMachine workers).Reachable (WorkerPool.Timely workers) pool) :
    ¬pool.Caught :=
  (reachable_sound reachable).1.not_caught

/-- One terminal whose buffer region is registered first occupies one of eight workers. -/
theorem workers_not_caught_one :
    ∃ pool : WorkerPool, pool.idle = 7 ∧ pool.waiting = [⟨.mem 1 3, ndSuccess, true⟩] ∧
      ¬pool.Caught := by
  have first : (workerMachine 8).step { idle := 8 } (.registerTag 1 2 ndPending) =
      .ok { idle := 8, outstanding := [.tag 1 2] } := rfl
  have second : (workerMachine 8).step { idle := 8, outstanding := [.tag 1 2] }
      (.registerMem 1 3 ndPending) =
      .ok { idle := 8, outstanding := [.tag 1 2, .mem 1 3] } := rfl
  have third : (workerMachine 8).step { idle := 8, outstanding := [.tag 1 2, .mem 1 3] }
      (.complete (.mem 1 3) ndSuccess) =
      .ok { idle := 8, outstanding := [.tag 1 2], queued := [⟨.mem 1 3, ndSuccess, true⟩] } := rfl
  have fourth : (workerMachine 8).step
      { idle := 8, outstanding := [.tag 1 2], queued := [⟨.mem 1 3, ndSuccess, true⟩] }
      (.take false) =
      .ok { idle := 7, outstanding := [.tag 1 2], waiting := [⟨.mem 1 3, ndSuccess, true⟩] } := rfl
  have timely : WorkerPool.Timely 8 { idle := 8, outstanding := [.tag 1 2, .mem 1 3] }
      (.complete (.mem 1 3) ndSuccess) := fun _ => by decide
  have run : (workerMachine 8).Run (WorkerPool.Timely 8) { idle := 8 }
      { idle := 7, outstanding := [.tag 1 2], waiting := [⟨.mem 1 3, ndSuccess, true⟩] } := by
    refine .tail (.tail (.tail (.tail (.refl _) ?_ first) ?_ second) timely third) ?_ fourth
    all_goals exact trivial
  exact ⟨_, rfl, rfl, workers_not_caught ⟨_, rfl, run⟩⟩

instance (workers : ℕ) (pool : WorkerPool) (action : WorkerAction) :
    Decidable (Timely workers pool action) :=
  match action with
  | .complete job hr =>
      inferInstanceAs (Decidable (pool.early job hr = true → pool.earlyCount + 1 < workers))
  | .registerTag _ _ _ | .registerMem _ _ _ | .request _ | .take _ | .resume _ | .destroy _ =>
      .isTrue trivial

/-- Under the same condition no state is reached in which all workers are caught: of workers that
are all in busy-waits, one has what it waits for. -/
theorem some_worker_goes_on {pool : WorkerPool}
    (reachable : (workerMachine workers).Reachable (WorkerPool.Timely workers) pool) :
    ¬pool.Caught ∧ pool.idle + pool.waiting.length = workers ∧
      (pool.idle = 0 → pool.waiting ≠ [] → ∃ posted ∈ pool.waiting, ¬pool.Waits posted) := by
  rcases reachable_sound reachable with ⟨sound, size⟩
  exact ⟨sound.not_caught, size, sound.not_all_wait⟩

/-- One worker waits for a tag region, which the other one records before it waits itself. -/
def sampleGoesOn : List WorkerAction :=
  [.registerTag 1 2 ndPending, .registerMem 1 3 ndPending, .request 1,
    .complete (.mem 1 3) ndSuccess, .take false, .complete (.tag 1 2) ndSuccess,
    .complete (.conn 1) hOk, .take false, .take false]

theorem some_worker_goes_on_two :
    ∃ pool : WorkerPool, pool.idle = 0 ∧ pool.waiting.map Posted.job = [.conn 1, .mem 1 3] ∧
      ∃ posted ∈ pool.waiting, ¬pool.Waits posted := by
  have passes : (((workerMachine 2).guarded (fun pool action => Timely 2 pool action)
      .blocked).execute { idle := 2 } sampleGoesOn).toOption.any (fun pool =>
        pool.idle = 0 ∧ pool.waiting.map Posted.job = [.conn 1, .mem 1 3]) = true := by
    decide +kernel
  rcases Machine.Run.of_checked (fun _ _ => of_decide_eq_true) passes with ⟨pool, run, holds⟩
  rcases of_decide_eq_true holds with ⟨none, waiting⟩
  have occupied : pool.waiting ≠ [] := by
    intro empty
    simp [empty] at waiting
  exact ⟨pool, none, waiting, (some_worker_goes_on ⟨_, rfl, run⟩).2.2 none occupied⟩

/-- As many terminals as there are workers are set up, and the provider completes their buffer
registrations first. -/
def sampleCaught (workers : ℕ) : List WorkerAction :=
  let terminals := List.range workers
  terminals.flatMap (fun conId =>
      [.registerTag conId (2 * conId) ndPending, .registerMem conId (2 * conId + 1) ndPending]) ++
    terminals.map (fun conId => .complete (.mem conId (2 * conId + 1)) ndSuccess) ++
    terminals.map (fun _ => .take false) ++
    terminals.map (fun conId => .complete (.tag conId (2 * conId)) ndSuccess)

/-- A completion that waits for a tag region whose registration is queued. -/
theorem waits_tag (registers : posted.job = .mem conId region) (succeeded : posted.hr = ndSuccess)
    (untagged : (pool.connections conId).pTagRegion = none) : pool.Waits posted := by
  simp [Waits, attempt, registers, succeeded, untagged]

/-- The eight workers the constructor asks for are caught. -/
theorem eight_workers_caught :
    ∃ pool, (workerMachine 8).Reachable (fun _ _ => True) pool ∧ pool.Caught := by
  have passes : ((workerMachine 8).execute { idle := 8 } (sampleCaught 8)).toOption.any
      (fun pool => pool.idle = 0 ∧ pool.waiting ≠ [] ∧ ∀ posted ∈ pool.waiting,
        posted.job = .mem posted.job.conId (2 * posted.job.conId + 1) ∧ posted.hr = ndSuccess ∧
          (pool.connections posted.job.conId).pTagRegion = none ∧
            (pool.queued.any fun other => other.job.isTag posted.job.conId) = true) = true := by
    decide +kernel
  have started : (workerMachine 8).start { idle := 8 } := rfl
  rcases Machine.Reachable.of_execute started (fun _ _ _ => trivial) passes with
    ⟨pool, reachable, holds⟩
  rcases of_decide_eq_true holds with ⟨none, occupied, each⟩
  refine ⟨pool, reachable, none, occupied, fun posted member => ?_⟩
  rcases each posted member with ⟨registers, succeeded, untagged, queued⟩
  refine ⟨waits_tag registers succeeded untagged, ?_⟩
  rw [registers]
  exact queued

end Runs

end WorkerPool

end Hermes
