import Hermes.HostArena
import Hermes.HostKept
import Hermes.HostLife

/-!
# Overlapped objects and arenas in every run

Every function that has an arena passes it on or retires it, once, and gives back the
objects it takes.  `linear_ownership` is what follows for runs: the history of every
reachable state keeps the discipline of `ArenaLedger`, every arena of an accept or a connect
that has not been retired is owned by one outstanding operation, and no assertion of the
pool of overlapped objects fails.
-/

namespace Hermes

open Program

variable {queue : CircularQue ℕ} {config : HostConfig} {Result : Type} {spare owned : List ℕ}
  {hand : List (ℕ × Phase)} {host : Host queue} {ov arena conId region : ℕ} {job : AsyncJob}
  {hr : HRESULT} {replies : Replies} {due : Option (List AsyncJob)}

namespace Host

/-- Overlapped objects, arenas and regions are in order, up to what the running code has in hand.
`due` has the jobs whose handlers run, or nothing when `TerminalCloser` may take regions away. -/
structure Orderly (config : HostConfig) (due : Option (List AsyncJob)) (spare owned : List ℕ)
    (hand : List (ℕ × Phase)) (host : Host queue) : Prop where
  linear : host.Linear spare owned hand
  granted : host.Granted config
  kept : ∀ jobs, due = some jobs → host.Kept jobs hand

theorem SameArenas.linear {spare owned : List ℕ} {hand : List (ℕ × Phase)}
    {before after : Host queue} (same : SameArenas before after)
    (linear : before.Linear spare owned hand) : after.Linear spare owned hand := by
  rcases linear with ⟨ledger, linear⟩
  rcases same with ⟨events, overlapPool, overlaps, pending, arenas⟩
  refine ⟨ledger, ?_⟩
  constructor
  case replayed => rw [events]; exact linear.replayed
  case capacity => rw [overlapPool]; exact linear.capacity
  case all => rw [overlapPool, pending]; exact linear.all
  case pool => rw [overlapPool, overlaps]; exact linear.pool
  case inHand => rw [overlaps]; exact linear.inHand
  case pend => rw [pending, overlaps]; exact linear.pend
  case outside => exact linear.outside
  case owners => simpa only [chainedArenas, pending, overlaps] using linear.owners
  case spareOnce => simpa only [registrationArenas, pending, overlaps] using linear.spareOnce
  case spared => simpa only [registrationArenas, pending, overlaps, arenas] using linear.spared
  case fresh => rw [arenas]; exact linear.fresh

section Rules

variable {post : Result → Host queue → Prop}

theorem SameRegions.orderly {before after : Host queue} (same : SameRegions before after)
    (orderly : before.Orderly config due spare owned hand) :
    after.Orderly config due spare owned hand :=
  ⟨same.linear orderly.linear, orderly.granted.same same,
    fun jobs kept => (orderly.kept jobs kept).same same⟩

/-- Only the tables change. -/
theorem Orderly.moved {after : Host queue} (orderly : host.Orderly config due spare owned hand)
    (moves : Moves config .calm host after) : after.Orderly config due spare owned hand :=
  (moves.same id).orderly orderly

/-- After code that only works on the tables. -/
theorem Orderly.after {Middle : Type} {code : Code queue Middle} {next : Middle → Code queue Result}
    (orderly : host.Orderly config due spare owned hand)
    (calm : InScopeAt config .calm host code)
    (rest : ∀ result after, after.Orderly config due spare owned hand →
      Ensures (next result) post Stop.PoolSound after) :
    Ensures (code >>= next) post Stop.PoolSound host := by
  refine Ensures.bind (calm.ensures.mono (fun _ _ moves => moves) ?_) ?_
  · exact fun _ stops => stops.resolve_left id
  · exact fun result after moves => rest result after (orderly.moved moves)

/-- Code that only works on the tables. -/
theorem Orderly.keep {code : Code queue Result} (orderly : host.Orderly config due spare owned hand)
    (calm : InScopeAt config .calm host code) :
    Ensures code (fun _ after => after.Orderly config due spare owned hand) Stop.PoolSound host :=
  calm.ensures.mono (fun _ _ moves => orderly.moved moves) fun _ stops => stops.resolve_left id

/-- A field of a terminal changes that has nothing to do with its regions. -/
theorem calm_modifyTerminal {change : Terminal → Terminal}
    (regions : ∀ terminal, (change terminal).regions = terminal.regions) :
    InScopeAt config .calm host (modifyTerminal conId change) :=
  .setTerminal (.inl trivial) False.elim fun _ => regions _

theorem calm_modifySocket {id : ℕ} {change : HSocket → HSocket} :
    InScopeAt config .calm host (modifySocket id change) :=
  .setSocket trivial False.elim False.elim False.elim False.elim

/-- Code that starts by getting a terminal goes on with the id of one. -/
theorem ensures_getTerminal_inRange {next : Terminal → Code queue Result}
    (rest : config.TermId conId →
      Ensures (next (host.connections conId)) post Stop.PoolSound host) :
    Ensures (getTerminal config conId >>= next) post Stop.PoolSound host := by
  by_cases inRange : config.TermId conId
  · exact .step (getTerminal_eq inRange.1 inRange.2) (rest inRange)
  · have stopped : getTerminal config conId host =
        .error (.abort (.assert "Invalid Connection Id")) := by
      have outside : ¬(1 ≤ conId ∧ conId ≤ config.maxConnection) := inRange
      rw [getTerminal]
      apply apply_bind_error
      rw [checkConId, audit, if_neg outside]
      rfl
    rw [Ensures, apply_bind_error stopped]
    exact poolSound_assert (by simp [poolChecks])

/-- The terminal's pointers to its regions change. -/
theorem Orderly.setTerminal (orderly : host.Orderly config due spare owned hand)
    (terminal : Terminal)
    (tag : ∀ region, terminal.pTagRegion = some region →
      Taken host.events (.onTagRegistered conId region))
    (mem : ∀ region, terminal.pMemRegion = some region →
      Taken host.events (.onMemRegistered conId region))
    (more : due ≠ none →
      (∀ region, (host.connections conId).pTagRegion = some region →
        terminal.pTagRegion = some region) ∧
      ∀ region, (host.connections conId).pMemRegion = some region →
        terminal.pMemRegion = some region) :
    Orderly config due spare owned hand
      { host with connections := Function.update host.connections conId terminal } := by
  have same : SameArenas host
      { host with connections := Function.update host.connections conId terminal } :=
    ⟨rfl, rfl, rfl, rfl, rfl⟩
  refine ⟨same.linear orderly.linear, orderly.granted.setTerminal terminal tag mem, ?_⟩
  rintro jobs rfl
  rcases more (by simp) with ⟨moreTag, moreMem⟩
  exact (orderly.kept jobs rfl).setTerminal terminal moreTag moreMem

end Rules

section Objects

theorem Orderly.getObj (orderly : host.Orderly config due spare owned hand) (pReceiver : Option ℕ)
    (live : job.chained = true → arena ∈ owned)
    (inRange : ∀ conId, job.registers? = some conId → config.TermId conId)
    (new : ∀ region, job.region? = some region → region < host.objects ∧
      ∀ job', Taken host.events job' → job'.region? ≠ some region) :
    Ensures (getObj job arena pReceiver)
      (fun ov after => after.Orderly config due spare owned ((ov, .held job arena) :: hand) ∧
        Taken after.events job) Stop.PoolSound host := by
  rcases orderly with ⟨⟨ledger, linear⟩, granted, kept⟩
  unfold Host.getObj
  refine .step apply_get ?_
  cases taken : queue.get host.overlapPool with
  | none => exact poolSound_assert (by simp [poolChecks])
  | some pair =>
      rcases pair with ⟨ov, overlapPool⟩
      have member : ov ∈ queue.items host.overlapPool := by
        simp [(queue.items_of_get taken).1]
      refine .step (apply_set _) (.step (audit_eq (linear.pool ov member).2) ?_)
      refine .step rfl (.step rfl ⟨⟨linear.take taken pReceiver live, ?_, ?_⟩, ?_⟩)
      · exact granted.take overlapPool pReceiver inRange new
      · intro jobs same
        exact (kept jobs same).take overlapPool pReceiver (linear.pool_apart member).2
      · exact taken_took.mpr (.inr rfl)

/-- An object is taken for a job that registers nothing. -/
theorem Orderly.getPlain (orderly : host.Orderly config due spare owned hand) (pReceiver : Option ℕ)
    (live : job.chained = true → arena ∈ owned) (plain : job.region? = none)
    (plain' : job.registers? = none) :
    Ensures (Host.getObj job arena pReceiver)
      (fun ov after => after.Orderly config due spare owned ((ov, .held job arena) :: hand))
      Stop.PoolSound host := by
  refine (orderly.getObj pReceiver live ?_ ?_).mono (fun _ _ took => took.1) fun _ stops => stops
  · simp [plain']
  · simp [plain]

theorem Orderly.freeObj (orderly : host.Orderly config due spare owned ((ov, .done) :: hand)) :
    Ensures (freeObj ov) (fun _ after => after.Orderly config due spare owned hand) Stop.PoolSound
      host := by
  rcases orderly with ⟨⟨ledger, linear⟩, granted, kept⟩
  rcases linear.give with ⟨overlapPool, added, given⟩
  have top := linear.inHand _ List.mem_cons_self
  unfold Host.freeObj
  refine .step apply_get (.step (audit_eq (.inl top.2.1)) (.step rfl ?_))
  rw [added]
  refine .step rfl ⟨given, granted.give overlapPool, fun jobs same => ?_⟩
  exact (kept jobs same).give overlapPool (linear.hand_apart List.mem_cons_self).2

/-- An operation that completes was outstanding, and its job and arena are in hand. -/
theorem Orderly.unpend {post : Result → Host queue → Prop} {next : PUnit → Code queue Result}
    (orderly : host.Orderly config due spare owned hand)
    (rest : ∀ job arena, (host.overlaps ov).pNext = some (job, arena) →
      Host.Orderly config due (registrationArena (some (job, arena)) ++ spare)
        (chainedArena (some (job, arena)) ++ owned) ((ov, .held job arena) :: hand)
        { host with pending := host.pending.erase ov } →
      Ensures (next ⟨⟩) post Stop.PoolSound { host with pending := host.pending.erase ov }) :
    Ensures (Host.unpend ov >>= next) post Stop.PoolSound host := by
  rcases orderly with ⟨⟨ledger, linear⟩, granted, kept⟩
  by_cases member : ov ∈ host.pending
  · rcases linear.claim member with ⟨job, arena, pNext, claimed⟩
    refine .step (unpend_eq member) (rest job arena pNext ⟨claimed, granted.congr rfl rfl, ?_⟩)
    exact fun jobs same => (kept jobs same).claim pNext
  · rw [ensures_bind, Host.unpend, ensures_bind, ensures_get, if_neg member]
    exact poolSound_of_ne (by simp)

/-- The job of an object in hand runs. -/
theorem Orderly.record_ran {post : Result → Host queue → Prop} {next : PUnit → Code queue Result}
    (orderly : host.Orderly config due spare owned ((ov, .held job arena) :: hand))
    (live : job.chained = true → arena ∈ owned)
    (rest : ∀ after, after = { host with events := host.events ++ [.ran ov] } →
      after.Orderly config (due.map (job :: ·)) spare owned ((ov, .done) :: hand) →
        Taken after.events job → Ensures (next ⟨⟩) post Stop.PoolSound after) :
    Ensures (record (.ran ov) >>= next) post Stop.PoolSound host := by
  rcases orderly with ⟨⟨ledger, linear⟩, granted, kept⟩
  have next : (host.overlaps ov).pNext = some (job, arena) :=
    (linear.inHand _ List.mem_cons_self).2.2 _ _ rfl
  have taken := granted.taken ov job arena next
  refine .step rfl (rest _ rfl ⟨linear.ran live, granted.record (by simp) rfl rfl, ?_⟩ ?_)
  · intro jobs same
    rcases Option.map_eq_some_iff.mp same with ⟨jobs', rfl, rfl⟩
    exact (kept jobs' rfl).ran
  · exact (taken_append (by simp)).mpr taken

/-- The handler of a job has done its work. -/
theorem Orderly.discharge
    (orderly : host.Orderly config (due.map (job :: ·)) spare owned hand)
    (recorded : job.Recorded host) : host.Orderly config due spare owned hand := by
  refine ⟨orderly.linear, orderly.granted, ?_⟩
  rintro jobs rfl
  exact (orderly.kept (job :: jobs) rfl).discharge recorded

theorem mem_chainedArena (chained : job.chained = true) :
    arena ∈ chainedArena (some (job, arena)) ++ owned := by
  simp [chainedArena, chained]

/-- An overlapped call: the job runs at once, with what it owns, or the provider keeps both. -/
theorem Orderly.finishCall {handler : Code queue PUnit}
    (orderly : host.Orderly config due (registrationArena (some (job, arena)) ++ spare)
      (chainedArena (some (job, arena)) ++ owned) ((ov, .held job arena) :: hand))
    (handles : ∀ after : Host queue,
      after.Orderly config (due.map (job :: ·)) (registrationArena (some (job, arena)) ++ spare)
        (chainedArena (some (job, arena)) ++ owned) ((ov, .done) :: hand) →
      Taken after.events job →
      Ensures handler (fun _ last => last.Orderly config due spare owned ((ov, .done) :: hand))
        Stop.PoolSound after) :
    Ensures (Host.finishCall ov hr handler)
      (fun _ after => after.Orderly config due spare owned hand)
      Stop.PoolSound host := by
  unfold Host.finishCall
  by_cases final : hr ≠ ndPending
  · rw [if_pos final]
    refine orderly.record_ran mem_chainedArena fun after _ ran taken => ?_
    exact (handles after ran taken).bind fun _ last done => done.freeObj
  · rw [if_neg final]
    rcases orderly with ⟨⟨ledger, linear⟩, granted, kept⟩
    refine ⟨linear.lend, granted.congr rfl rfl, fun jobs same => ?_⟩
    exact (kept jobs same).lend ((linear.inHand _ List.mem_cons_self).2.2 _ _ rfl)

/-- An overlapped call that is pending and whose job owns no arena. -/
theorem Orderly.pendFree
    (orderly : host.Orderly config due spare owned ((ov, .held job arena) :: hand))
    (free : chainedArena (some (job, arena)) = [])
    (free' : registrationArena (some (job, arena)) = []) :
    Ensures (Host.pend ov) (fun _ after => after.Orderly config due spare owned hand) Stop.PoolSound
      host := by
  rcases orderly with ⟨⟨ledger, linear⟩, granted, kept⟩
  have lent : LinearWith ledger (registrationArena (some (job, arena)) ++ spare)
      (chainedArena (some (job, arena)) ++ owned) ((ov, .held job arena) :: hand) host := by
    rw [free, free']
    exact linear
  refine ⟨lent.lend, granted.congr rfl rfl, fun jobs same => ?_⟩
  exact (kept jobs same).lend ((linear.inHand _ List.mem_cons_self).2.2 _ _ rfl)

/-- An overlapped call whose job owns no arena. -/
theorem Orderly.finishFree {handler : Code queue PUnit}
    (orderly : host.Orderly config due spare owned ((ov, .held job arena) :: hand))
    (free : chainedArena (some (job, arena)) = [])
    (free' : registrationArena (some (job, arena)) = [])
    (handles : ∀ after : Host queue,
      after.Orderly config (due.map (job :: ·)) spare owned ((ov, .done) :: hand) →
      Taken after.events job →
      Ensures handler (fun _ last => last.Orderly config due spare owned ((ov, .done) :: hand))
        Stop.PoolSound after) :
    Ensures (Host.finishCall ov hr handler)
      (fun _ after => after.Orderly config due spare owned hand)
      Stop.PoolSound host := by
  have same : registrationArena (some (job, arena)) ++ spare = spare ∧
      chainedArena (some (job, arena)) ++ owned = owned := by simp [free, free']
  apply Orderly.finishCall
  · rw [same.1, same.2]
    exact orderly
  · rw [same.1, same.2]
    exact handles

theorem recorded_of_chained (chained : job.chained = true) : job.Recorded host := by
  apply AsyncJob.recorded_of_plain
  cases job
  case onTagRegistered => cases chained
  case onMemRegistered => cases chained
  all_goals rfl

/-- An overlapped call that goes on with an accept or a connect. -/
theorem Orderly.finishChained {handler : Code queue PUnit}
    (orderly : host.Orderly config due spare (arena :: owned) ((ov, .held job arena) :: hand))
    (chained : job.chained = true)
    (handles : ∀ after : Host queue,
      after.Orderly config due spare (arena :: owned) ((ov, .done) :: hand) →
      Ensures handler (fun _ last => last.Orderly config due spare owned ((ov, .done) :: hand))
        Stop.PoolSound after) :
    Ensures (Host.finishCall ov hr handler)
      (fun _ after => after.Orderly config due spare owned hand)
      Stop.PoolSound host := by
  have same : registrationArena (some (job, arena)) ++ spare = spare ∧
      chainedArena (some (job, arena)) ++ owned = arena :: owned := by
    cases job <;> simp_all [registrationArena, chainedArena, AsyncJob.chained, AsyncJob.sock?]
  apply Orderly.finishCall
  · rw [same.1, same.2]
    exact orderly
  · rw [same.1, same.2]
    exact fun after ran _ => handles after (ran.discharge (recorded_of_chained chained))

/-- The arena of an accept or a connect is retired. -/
theorem Orderly.retire (orderly : host.Orderly config due spare (arena :: owned) hand) :
    Ensures (retire arena) (fun _ after => after.Orderly config due spare owned hand) Stop.PoolSound
      host := by
  rcases orderly with ⟨⟨ledger, linear⟩, granted, kept⟩
  refine ⟨linear.retire, granted.record (by simp) rfl rfl, fun jobs same => ?_⟩
  exact (kept jobs same).record (by simp [taken_append]) rfl

/-- Data on the arena is used. -/
theorem Orderly.record_used {post : Result → Host queue → Prop} {next : PUnit → Code queue Result}
    (orderly : host.Orderly config due spare (arena :: owned) hand)
    (rest : ∀ after : Host queue, after.Orderly config due spare (arena :: owned) hand →
      Ensures (next ⟨⟩) post Stop.PoolSound after) :
    Ensures (record (.used arena) >>= next) post Stop.PoolSound host := by
  rcases orderly with ⟨⟨ledger, linear⟩, granted, kept⟩
  refine .step rfl (rest _ ⟨linear.used List.mem_cons_self, granted.record (by simp) rfl rfl, ?_⟩)
  exact fun jobs same => (kept jobs same).record (by simp [taken_append]) rfl

/-- An accept or a connect begins. -/
theorem Orderly.begin {post : Result → Host queue → Prop} {next : ℕ → Code queue Result}
    (orderly : host.Orderly config due spare owned hand)
    (rest : ∀ (arena : ℕ) (after : Host queue),
      after.Orderly config due spare (arena :: owned) hand →
      Ensures (next arena) post Stop.PoolSound after) :
    Ensures (getNewArena >>= fun arena => record (.began arena) >>= fun _ => next arena) post
      Stop.PoolSound host := by
  rcases orderly with ⟨⟨ledger, linear⟩, granted, kept⟩
  refine .step rfl (.step rfl (rest _ _ ⟨linear.began, granted.record (by simp) rfl rfl, ?_⟩))
  exact fun jobs same => (kept jobs same).record (by simp [taken_append]) rfl

/-- The provider makes an object for a region that no job registers yet. -/
theorem Orderly.createObject (orderly : host.Orderly config due spare owned hand) :
    Ensures Host.createObject (fun region after => after.Orderly config due spare owned hand ∧
        region < after.objects ∧ ∀ job, Taken after.events job → job.region? ≠ some region)
      Stop.PoolSound host := by
  have moves : Moves config .calm host { host with
      objects := host.objects + 1, refs := Function.update host.refs host.objects 1 } :=
    .of_same rfl rfl (Nat.le_succ _) List.prefix_rfl
  refine .step rfl (.of_eq rfl ⟨orderly.moved moves, Nat.lt_succ_self _, ?_⟩)
  intro job taken region
  exact Nat.lt_irrefl _ (orderly.granted.fresh job _ taken region)

/-- The arguments of a registration are recorded. -/
theorem Orderly.register {span : Span} (orderly : host.Orderly config due spare owned hand)
    (taken : Taken host.events job) (same : job.region? = some region)
    (spans : job.span? config host = some span) :
    Orderly config due spare owned hand
      { host with registered := host.registered ++ [(region, ⟨span, regionFlags⟩)] } := by
  have arenas : SameArenas host
      { host with registered := host.registered ++ [(region, ⟨span, regionFlags⟩)] } :=
    ⟨rfl, rfl, rfl, rfl, rfl⟩
  refine ⟨arenas.linear orderly.linear, orderly.granted.register taken same spans, ?_⟩
  exact fun jobs due => (orderly.kept jobs due).record (fun _ => id) rfl

/-- An arena for registrations or for an activity. -/
theorem Orderly.newArena (orderly : host.Orderly config due spare owned hand) :
    Orderly config due (host.arenas :: spare) owned hand
      { host with arenas := host.arenas + 1 } := by
  rcases orderly with ⟨⟨ledger, linear⟩, granted, kept⟩
  refine ⟨linear.newArena, granted.congr rfl rfl, fun jobs same => ?_⟩
  exact (kept jobs same).record (fun _ => id) rfl

/-- Nothing needs an arena kept for registrations. -/
theorem Orderly.dropSpare (orderly : host.Orderly config due (arena :: spare) owned hand) :
    host.Orderly config due spare owned hand := by
  rcases orderly with ⟨⟨ledger, linear⟩, granted, kept⟩
  exact ⟨⟨ledger, { linear with
    spareOnce := (List.nodup_cons.mp linear.spareOnce).2
    spared := fun other member => linear.spared other (List.mem_cons_of_mem _ member) }⟩, granted,
    kept⟩

end Objects

section Regions

theorem Orderly.onTagRegistered
    (orderly : host.Orderly config (due.map (.onTagRegistered conId region :: ·)) spare owned hand)
    (taken : Taken host.events (.onTagRegistered conId region)) :
    Ensures (onTagRegistered conId region hr)
      (fun _ after => after.Orderly config due spare owned hand) Stop.PoolSound host := by
  unfold Host.onTagRegistered
  split
  · exact poolSound_of_ne (by simp)
  refine .step apply_get ?_
  refine ensures_audit (fun _ => poolSound_assert (by simp [poolChecks])) fun untagged => ?_
  refine Orderly.discharge (orderly.setTerminal _ ?_ (orderly.granted.mem conId) ?_) ?_
  · rintro region' same
    cases same
    exact taken
  · exact fun _ => ⟨by simp [untagged], fun _ recorded => recorded⟩
  · simp [AsyncJob.Recorded]

theorem Orderly.onMemRegistered {waiting : Code queue PUnit}
    (orderly : host.Orderly config (due.map (.onMemRegistered conId region :: ·)) (arena :: spare)
      owned hand)
    (taken : Taken host.events (.onMemRegistered conId region))
    (waits : ∀ before : Host queue,
      before.Orderly config (due.map (.onMemRegistered conId region :: ·)) (arena :: spare) owned
        hand →
      Taken before.events (.onMemRegistered conId region) →
      Ensures waiting (fun _ after =>
        after.Orderly config (due.map (.onMemRegistered conId region :: ·)) (arena :: spare) owned
          hand ∧
        Taken after.events (.onMemRegistered conId region)) Stop.PoolSound before) :
    Ensures (onMemRegistered conId region arena hr waiting)
      (fun _ after => after.Orderly config due spare owned hand) Stop.PoolSound host := by
  unfold Host.onMemRegistered
  split
  · exact poolSound_of_ne (by simp)
  refine (waits host orderly taken).bind fun _ middle waited => ?_
  rcases waited with ⟨waited, taken⟩
  refine .step apply_get ?_
  split
  · exact poolSound_of_ne (by simp)
  refine ensures_audit (fun _ => poolSound_assert (by simp [poolChecks])) fun unset => ?_
  have recorded : Orderly config due (arena :: spare) owned hand
      { middle with
        connections := Function.update middle.connections conId
          { middle.connections conId with pMemRegion := some region } } := by
    refine Orderly.discharge (waited.setTerminal _ (waited.granted.tag conId) ?_ ?_) ?_
    · rintro region' same
      cases same
      exact taken
    · exact fun _ => ⟨fun _ recorded => recorded, by simp [unset]⟩
    · simp [AsyncJob.Recorded]
  refine .step rfl ?_
  rcases recorded with ⟨⟨ledger, linear⟩, granted, kept⟩
  refine ⟨linear.retireSpare, granted.record (by simp) rfl rfl, fun jobs same => ?_⟩
  exact (kept jobs same).record (by simp [taken_append]) rfl

theorem Orderly.completeRegistration (orderly : host.Orderly config due spare owned hand) :
    Ensures (completeRegistration ov hr) (fun _ after => after.Orderly config due spare owned hand)
      Stop.PoolSound host := by
  unfold Host.completeRegistration
  refine orderly.unpend fun job arena next claimed => ?_
  refine ensures_audit (fun _ => poolSound_assert (by simp [poolChecks])) fun _ => ?_
  refine claimed.record_ran mem_chainedArena fun after same ran taken => .step apply_get ?_
  subst same
  dsimp only
  rw [next]
  cases job
  case onTagRegistered conId region =>
    exact (Orderly.onTagRegistered ran taken).bind fun _ last done => done.freeObj
  case onMemRegistered conId region =>
    refine (Orderly.onMemRegistered ran taken ?_).bind fun _ last done => done.freeObj
    exact fun _ orderly taken => ⟨orderly, taken⟩
  all_goals exact poolSound_of_ne (by simp)

theorem Orderly.completeRegistrations (completions : List (ℕ × HRESULT))
    (orderly : host.Orderly config due spare owned hand) :
    Ensures (completeRegistrations completions)
      (fun _ after => after.Orderly config due spare owned hand) Stop.PoolSound host := by
  induction completions generalizing host with
  | nil => exact orderly
  | cons completion rest ih =>
      exact orderly.completeRegistration.bind fun _ middle orderly => ih orderly

/-- A region is made and an overlapped object is taken for its registration. -/
theorem Orderly.takeRegion {next : ℕ → ℕ → Code queue Result} {post : Result → Host queue → Prop}
    (orderly : host.Orderly config due spare owned hand) (makes : ℕ → AsyncJob)
    (registers : ∀ region, (makes region).chained = false ∧ (makes region).region? = some region)
    (inRange : ∀ region conId, (makes region).registers? = some conId → config.TermId conId)
    (rest : ∀ region ov after,
      after.Orderly config due spare owned ((ov, .held (makes region) arena) :: hand) →
      Taken after.events (makes region) → Moves config .any host after →
      Ensures (next region ov) post Stop.PoolSound after) :
    Ensures (do
      let region ← Host.createObject
      let ov ← Host.getObj (makes region) arena (some region)
      next region ov) post Stop.PoolSound host := by
  have creates : InScope config .any (Host.createObject : Code queue ℕ) := inScope_createObject
  refine Ensures.bind (orderly.createObject.and (creates host).ensures) ?_
  rintro region middle ⟨⟨orderly, low, new⟩, moved⟩
  have gets : InScope config .any (Host.getObj (makes region) arena (some region) : Code queue ℕ) :=
    inScope_getObj trivial
  have fresh : ∀ other, (makes region).region? = some other → other < middle.objects ∧
      ∀ job, Taken middle.events job → job.region? ≠ some other := by
    intro other same
    rw [(registers region).2] at same
    cases same
    exact ⟨low, new⟩
  have takes : Ensures (Host.getObj (makes region) arena (some region)) _ Stop.PoolSound middle :=
    orderly.getObj (some region) (by simp [registers region]) (inRange region) fresh
  refine Ensures.bind (takes.and (gets middle).ensures) ?_
  rintro ov after ⟨⟨took, taken⟩, moved'⟩
  exact rest region ov after took taken (trans_of _ moved moved')

theorem Orderly.createMemRegions (orderly : host.Orderly config due spare owned hand) :
    Ensures (createMemRegions config conId replies)
      (fun _ after => after.Orderly config due spare owned hand) Stop.PoolSound host := by
  unfold Host.createMemRegions
  refine ensures_getTerminal_inRange fun inRange => ?_
  split
  · exact orderly.keep (inScope_audit (by simp [poolChecks]) _)
  -- what is registered later is the ring buffers as they are now
  refine .step (getBufPair_returns orderly.granted.rings inRange) (.step rfl ?_)
  replace orderly := orderly.newArena
  generalize host.arenas = arena at orderly ⊢
  split
  · exact poolSound_of_ne (by simp)
  refine orderly.takeRegion (.onTagRegistered conId) (fun _ => ⟨rfl, rfl⟩) ?_ ?_
  · rintro region conId' same
    cases same
    exact inRange
  intro tagRegion tagOv middle took taken moved
  refine .step apply_get (.step rfl ?_)
  replace took := took.register taken rfl rfl
  have registers : InScope config .any (Host.finishCall tagOv replies.registerTag
      (Host.onTagRegistered conId tagRegion replies.registerTag) : Code queue PUnit) :=
    inScope_finishCall trivial (inScope_onTagRegistered trivial)
  have finishes : Ensures (Host.finishCall tagOv replies.registerTag
      (Host.onTagRegistered conId tagRegion replies.registerTag)) _ Stop.PoolSound _ :=
    Orderly.finishFree took rfl rfl fun after ran taken => ran.onTagRegistered taken
  refine Ensures.bind (finishes.and (registers _).ensures) ?_
  rintro _ second ⟨orderly, moved'⟩
  split
  · exact poolSound_of_ne (by simp)
  refine orderly.takeRegion (.onMemRegistered conId) (fun _ => ⟨rfl, rfl⟩) ?_ ?_
  · rintro region conId' same
    cases same
    exact inRange
  intro memRegion memOv third took taken moved''
  have buffers : third.buffers = host.buffers :=
    moved''.buffers.trans (moved'.buffers.trans moved.buffers)
  refine .step rfl ?_
  have took' : Orderly config due
      (registrationArena (some (.onMemRegistered conId memRegion, arena)) ++ spare)
      (chainedArena (some (.onMemRegistered conId memRegion, arena)) ++ owned) _ _ :=
    took.register taken rfl (by rw [AsyncJob.span?, bufPairSpan, buffers])
  refine took'.finishCall fun after ran taken => ?_
  refine Orderly.onMemRegistered ran taken fun before orderly taken => ?_
  have completes : InScope config .any (Host.completeRegistrations replies.whileTag :
      Code queue PUnit) := inScope_completeRegistrations trivial
  refine ((orderly.completeRegistrations replies.whileTag).and
    (completes before).ensures).mono ?_ fun _ stops => stops
  rintro _ last ⟨orderly, moves⟩
  rcases taken with ⟨ov, arena, member⟩
  exact ⟨orderly, ov, arena, moves.events.mem member⟩

end Regions

section Attempts

theorem Orderly.allocTerminal (orderly : host.Orderly config due spare owned hand)
    (parent : UInt64) :
    Ensures (allocTerminal config parent replies)
      (fun _ after => after.Orderly config due spare owned hand) Stop.PoolSound host := by
  unfold Host.allocTerminal
  refine .step apply_get ?_
  cases queue.get host.connPool with
  | none => exact poolSound_assert (by simp [poolChecks])
  | some pair =>
      rcases pair with ⟨id, connPool⟩
      refine .step (apply_set _) ?_
      refine (orderly.moved (.setConnPool fun _ _ => .inr trivial)).after (inScope_getTerminal _ _)
        fun ptr middle orderly => ?_
      refine orderly.after (inScope_audit (by simp [poolChecks]) _) fun _ middle orderly => ?_
      refine orderly.after (inScope_prepare trivial _) fun err middle orderly => ?_
      split
      · refine orderly.after (calm_modifyTerminal fun _ => rfl) fun _ middle orderly => ?_
        exact orderly.after (inScope_freeTerminal trivial _) fun _ last orderly => orderly
      · refine orderly.createMemRegions.bind fun _ middle orderly => ?_
        exact orderly.after (calm_modifyTerminal fun _ => rfl) fun _ last orderly => orderly

theorem Orderly.prepareHandShakeData (orderly : host.Orderly config due spare owned hand)
    {termId : ℕ} :
    Ensures (prepareHandShakeData config termId replies)
      (fun _ after => after.Orderly config due spare owned hand) Stop.PoolSound host := by
  unfold Host.prepareHandShakeData
  refine orderly.after (inScope_getTerminal _ _) fun pTerm middle orderly => ?_
  refine orderly.after (inScope_getRcvBuf _ _) fun rcvBuf middle orderly => ?_
  refine (orderly.completeRegistrations _).bind fun _ middle orderly => .step apply_get ?_
  split
  case h_1 memRegion tagRegion mem tag =>
    have same : SameArenas middle
        { middle with disclosed := middle.disclosed ++ [memRegion, tagRegion] } :=
      ⟨rfl, rfl, rfl, rfl, rfl⟩
    refine .step rfl ⟨same.linear orderly.linear, orderly.granted.disclose mem tag, ?_⟩
    exact fun jobs due => (orderly.kept jobs due).record (fun _ => id) rfl
  case h_2 => exact poolSound_of_ne (by simp)

theorem Orderly.startTerminal (orderly : host.Orderly config due spare owned hand) {termId : ℕ}
    {handShake : HandShake} :
    Ensures (startTerminal config termId handShake replies)
      (fun _ after => after.Orderly config due spare owned hand) Stop.PoolSound host := by
  unfold Host.startTerminal
  refine orderly.after (inScope_getTerminal _ _) fun pTerm middle orderly => ?_
  refine orderly.after (calm_modifyTerminal fun _ => rfl) fun _ middle orderly => ?_
  refine .step rfl ?_
  replace orderly := orderly.newArena.dropSpare
  refine orderly.after (calm_modifyTerminal fun _ => rfl)
    fun _ middle orderly => .step apply_get ?_
  refine (orderly.getPlain _ (by simp [AsyncJob.chained, AsyncJob.sock?]) rfl rfl).bind
    fun ov middle took => ?_
  refine took.after (inScope_audit (by simp [poolChecks]) _) fun _ middle took => ?_
  exact took.pendFree rfl rfl

theorem Orderly.onConnAcceptedFinal (orderly : host.Orderly config due spare (arena :: owned) hand)
    {connSock : ℕ} {err : StatusCode} :
    Ensures (onConnAcceptedFinal config connSock err arena)
      (fun _ after => after.Orderly config due spare owned hand) Stop.PoolSound host := by
  unfold Host.onConnAcceptedFinal
  split
  · refine .step apply_get ?_
    refine orderly.after (inScope_getTerminal _ _) fun pTerm middle orderly => ?_
    refine orderly.after (inScope_audit (by simp [poolChecks]) _) fun _ middle orderly => ?_
    refine orderly.after (inScope_derefPtr _ _ _) fun _ middle orderly => ?_
    exact orderly.after (inScope_post _ _ _) fun _ middle orderly => orderly.retire
  · exact orderly.retire

theorem Orderly.onConnAccepted (orderly : host.Orderly config due spare (arena :: owned) hand)
    {connSock : ℕ} :
    Ensures (onConnAccepted config connSock hr arena replies)
      (fun _ after => after.Orderly config due spare owned hand) Stop.PoolSound host := by
  unfold Host.onConnAccepted
  split
  · exact orderly.onConnAcceptedFinal
  refine .step apply_get ?_
  refine orderly.after (inScope_audit (by simp [poolChecks]) _) fun _ middle orderly => ?_
  refine orderly.after calm_modifySocket fun _ middle orderly => ?_
  refine orderly.after (inScope_getTerminal _ _) fun pTerm middle orderly => ?_
  refine orderly.after (inScope_derefPtr _ _ _) fun connector middle orderly => ?_
  split
  · exact orderly.onConnAcceptedFinal
  refine orderly.after (calm_modifyTerminal fun _ => rfl) fun _ middle orderly => ?_
  split
  · exact orderly.onConnAcceptedFinal
  refine orderly.after calm_modifySocket fun _ middle orderly => ?_
  refine orderly.after (inScope_audit (by simp [poolChecks]) _) fun _ middle orderly => ?_
  refine orderly.after (inScope_derefPtr _ _ _) fun continuation middle orderly => ?_
  refine (orderly.getPlain _ (by simp [AsyncJob.chained, AsyncJob.sock?]) rfl rfl).bind
    fun ov middle took => ?_
  refine Ensures.bind (Orderly.finishFree took rfl rfl ?_)
    fun _ middle orderly => .step apply_get ?_
  · exact fun after ran _ =>
      (ran.discharge (AsyncJob.recorded_of_plain rfl)).keep (inScope_onDisconNotified _ _)
  refine orderly.after (inScope_audit (by simp [poolChecks]) _) fun _ middle orderly => ?_
  refine orderly.after calm_modifySocket fun _ middle orderly => .step apply_get ?_
  refine orderly.after (inScope_derefPtr _ _ _) fun notifier middle orderly => ?_
  exact orderly.after (inScope_notify _ _ _ _) fun _ middle orderly => orderly.retire

theorem Orderly.processConnReqFinal (orderly : host.Orderly config due spare (arena :: owned) hand)
    {connSock : ℕ} {err : StatusCode} :
    Ensures (processConnReqFinal config connSock err arena)
      (fun _ after => after.Orderly config due spare owned hand) Stop.PoolSound host := by
  unfold Host.processConnReqFinal
  refine .step apply_get ?_
  refine orderly.after (inScope_getTerminal _ _) fun pT middle orderly => ?_
  cases pT.pDisconnectCont with
  | some continuation =>
      exact orderly.after (inScope_post _ _ _) fun _ middle orderly => orderly.retire
  | none =>
      have frees : ∀ middle : Host queue, middle.Orderly config due spare (arena :: owned) hand →
          Ensures (do
            freeTerminal config (host.sockTbl connSock).term
            modifySocket connSock fun sock => { sock with term := invalidTermId }
            freeSocket (handleToId (host.sockTbl connSock).handle)
            Host.retire arena) (fun _ after => after.Orderly config due spare owned hand)
              Stop.PoolSound middle := by
        intro middle orderly
        refine orderly.after (inScope_freeTerminal trivial _) fun _ middle orderly => ?_
        refine orderly.after calm_modifySocket fun _ middle orderly => ?_
        exact orderly.after (inScope_freeSocket (within_calm _) False.elim)
          fun _ middle orderly => orderly.retire
      cases pT.pConnFunc with
      | none => exact frees middle orderly
      | some notifier =>
          exact orderly.after (inScope_notify _ _ _ _) fun _ middle orderly => frees middle orderly

theorem Orderly.processConnReq (orderly : host.Orderly config due spare (arena :: owned) hand)
    {connSock : ℕ} :
    Ensures (processConnReq config connSock hr arena replies)
      (fun _ after => after.Orderly config due spare owned hand) Stop.PoolSound host := by
  unfold Host.processConnReq
  refine .step apply_get ?_
  split
  · exact orderly.processConnReqFinal
  split
  · exact orderly.processConnReqFinal
  refine orderly.after (inScope_audit (by simp [poolChecks]) _) fun _ middle orderly => ?_
  refine orderly.after (inScope_getTerminal _ _) fun pTerm middle orderly => ?_
  refine orderly.record_used fun middle orderly => ?_
  refine orderly.after (inScope_derefPtr _ _ _) fun connector middle orderly => ?_
  split
  · exact orderly.processConnReqFinal
  refine orderly.after (inScope_audit (by simp [poolChecks]) _) fun _ middle orderly => ?_
  refine orderly.startTerminal.bind fun _ middle orderly => ?_
  refine orderly.prepareHandShakeData.bind fun _ middle orderly => ?_
  refine orderly.record_used fun middle orderly => ?_
  refine (orderly.getPlain _ (fun _ => List.mem_cons_self) rfl rfl).bind fun ov middle took => ?_
  exact Orderly.finishChained took rfl fun after ran => ran.onConnAccepted

theorem Orderly.onConn (orderly : host.Orderly config due spare (arena :: owned) hand)
    {connSock pListen : ℕ} :
    Ensures (onConn config connSock pListen hr arena replies)
      (fun _ after => after.Orderly config due spare owned hand) Stop.PoolSound host :=
  orderly.after (inScope_release _ _) fun _ _ orderly => orderly.processConnReq

/-- The code ends the process, or not at all. -/
theorem onConnAckCatch_ends {post : PUnit → Host queue → Prop} {pSock : ℕ} {err : StatusCode} :
    Ensures (onConnAckCatch config pSock err) post Stop.PoolSound host := by
  unfold Host.onConnAckCatch
  refine .step apply_get ?_
  have closes : InScopeAt config .calm host (closeSocket config (host.sockTbl pSock).handle err) :=
    inScope_closeSocket (within_calm host) _
  refine Ensures.bind (closes.ensures.mono (fun _ _ moves => moves) ?_) fun _ middle _ => ?_
  · exact fun _ stops => stops.resolve_left id
  · exact poolSound_of_ne (by simp)

theorem Orderly.onConnAck (orderly : host.Orderly config due spare (arena :: owned) hand)
    {pSock : ℕ} :
    Ensures (onConnAck config pSock hr arena replies)
      (fun _ after => after.Orderly config due spare owned hand) Stop.PoolSound host := by
  unfold Host.onConnAck
  split
  · exact onConnAckCatch_ends
  refine .step apply_get ?_
  refine orderly.after (inScope_audit (by simp [poolChecks]) _) fun _ middle orderly => ?_
  refine orderly.after calm_modifySocket fun _ middle orderly => ?_
  refine orderly.after (inScope_getTerminal _ _) fun pTerm middle orderly => ?_
  refine orderly.record_used fun middle orderly => ?_
  refine orderly.after (inScope_derefPtr _ _ _) fun connector middle orderly => ?_
  split
  · exact onConnAckCatch_ends
  refine orderly.after (inScope_audit (by simp [poolChecks]) _) fun _ middle orderly => ?_
  refine orderly.startTerminal.bind fun _ middle orderly => ?_
  refine (orderly.getPlain _ (fun _ => List.mem_cons_self) rfl rfl).bind fun ov middle took => ?_
  exact Orderly.finishChained took rfl fun after ran => ran.onConnAccepted

end Attempts

section Calls

variable {handle : UInt64} {connectCallback rcvCallback : ℕ}

theorem Orderly.accept (orderly : host.Orderly config due spare owned hand) :
    Ensures (accept config handle connectCallback rcvCallback replies)
      (fun _ after => after.Orderly config due spare owned hand) Stop.PoolSound host := by
  unfold Host.accept
  refine .step apply_get ?_
  cases host.findSocket handle with
  | none => exact orderly
  | some pSock =>
      dsimp only
      split
      · exact orderly
      refine Ensures.bind ((inScope_allocateSocket (within_calm host)).mono
        (fun _ _ taken => orderly.moved taken.1) fun _ stops => stops.resolve_left id) ?_
      rintro ⟨err, _ | pConnect⟩ middle orderly
      · exact orderly
      refine orderly.after calm_modifySocket fun _ middle orderly => .step apply_get ?_
      cases (middle.sockTbl pSock).pListen with
      | none =>
          exact orderly.after (inScope_acceptCleanup (within_calm _) False.elim)
            fun _ middle orderly => orderly
      | some pListen =>
          refine orderly.after (inScope_addRef _ _) fun _ middle orderly => ?_
          refine orderly.after (inScope_audit (by simp [poolChecks]) _) fun _ middle orderly => ?_
          refine (orderly.allocTerminal _).bind ?_
          rintro ⟨err, termId⟩ middle orderly
          refine orderly.after calm_modifySocket fun _ middle orderly => ?_
          split
          · exact orderly.after (inScope_acceptCleanup (within_calm _) False.elim)
              fun _ middle orderly => orderly
          refine orderly.after (inScope_getTerminal _ _) fun pTerm middle orderly => ?_
          refine orderly.after (inScope_setNotifiers trivial _) fun _ middle orderly => ?_
          refine orderly.begin fun arena middle orderly => ?_
          refine (orderly.getPlain _ (fun _ => List.mem_cons_self) rfl rfl).bind
            fun ov middle took => ?_
          refine Ensures.bind (Orderly.finishChained took rfl ?_) fun _ middle orderly => orderly
          exact fun after ran => ran.onConn

theorem Orderly.connectCleanup (orderly : host.Orderly config due spare (arena :: owned) hand)
    {pSock : ℕ} :
    Ensures (connectCleanup config pSock arena)
      (fun _ after => after.Orderly config due spare owned hand)
      Stop.PoolSound host := by
  unfold Host.connectCleanup
  refine orderly.after calm_modifySocket fun _ middle orderly => .step apply_get ?_
  split
  · refine orderly.after (inScope_freeTerminal trivial _) fun _ middle orderly => ?_
    exact orderly.after calm_modifySocket fun _ middle orderly => orderly.retire
  · exact orderly.retire

theorem Orderly.connect (orderly : host.Orderly config due spare owned hand) :
    Ensures (connect config handle connectCallback rcvCallback replies)
      (fun _ after => after.Orderly config due spare owned hand) Stop.PoolSound host := by
  unfold Host.connect
  refine .step apply_get ?_
  cases host.findSocket handle with
  | none => exact orderly
  | some pSock =>
      dsimp only
      split
      · exact orderly
      refine orderly.after calm_modifySocket fun _ middle orderly => ?_
      refine orderly.begin fun arena middle orderly => .step apply_get ?_
      split
      · exact orderly.connectCleanup.bind fun _ middle orderly => orderly
      refine orderly.after (inScope_audit (by simp [poolChecks]) _) fun _ middle orderly => ?_
      refine (orderly.allocTerminal _).bind ?_
      rintro ⟨err, termId⟩ middle orderly
      refine orderly.after calm_modifySocket fun _ middle orderly => ?_
      split
      · exact orderly.connectCleanup.bind fun _ middle orderly => orderly
      refine orderly.after (inScope_getTerminal _ _) fun pTerm middle orderly => ?_
      refine orderly.after (inScope_setNotifiers trivial _) fun _ middle orderly => ?_
      refine orderly.after (inScope_derefPtr _ _ _) fun connector middle orderly => ?_
      split
      · exact orderly.connectCleanup.bind fun _ middle orderly => orderly
      refine (orderly.getPlain _ (fun _ => List.mem_cons_self) rfl rfl).bind
        fun ov middle took => ?_
      refine Orderly.prepareHandShakeData took |>.bind fun _ middle took => ?_
      refine took.record_used fun middle took => ?_
      refine Ensures.bind (Orderly.finishChained took rfl ?_) fun _ middle orderly => orderly
      exact fun after ran => ran.onConnAck

/-- The job of a completion, with what it owns. -/
theorem Orderly.runJob
    (orderly : host.Orderly config (due.map (job :: ·))
      (registrationArena (some (job, arena)) ++ spare)
      (chainedArena (some (job, arena)) ++ owned) hand) (taken : Taken host.events job) :
    Ensures (runJob config job arena hr replies)
      (fun _ after => after.Orderly config due spare owned hand)
      Stop.PoolSound host := by
  have plain : job.region? = none → host.Orderly config due
      (registrationArena (some (job, arena)) ++ spare)
      (chainedArena (some (job, arena)) ++ owned) hand :=
    fun plain => orderly.discharge (AsyncJob.recorded_of_plain plain)
  cases job
  case onTagRegistered conId region => exact Orderly.onTagRegistered orderly taken
  case onMemRegistered conId region =>
    exact Orderly.onMemRegistered orderly taken fun _ orderly taken => ⟨orderly, taken⟩
  case onConn connSock pListen => exact Orderly.onConn (plain rfl)
  case onConnAck sock => exact Orderly.onConnAck (plain rfl)
  case onAccepted connSock => exact Orderly.onConnAccepted (plain rfl)
  case onDisconNotified term => exact Orderly.keep (plain rfl) (inScope_onDisconNotified _ _)
  case verbCompletion => exact poolSound_of_ne (by simp)

theorem Orderly.run (orderly : host.Orderly config due spare owned hand) :
    Ensures (run config ov hr replies) (fun _ after => after.Orderly config due spare owned hand)
      Stop.PoolSound host := by
  unfold Host.run
  refine orderly.unpend fun job arena next claimed => ?_
  refine ensures_audit (fun _ => poolSound_assert (by simp [poolChecks])) fun _ => ?_
  refine .step apply_get ?_
  dsimp only
  rw [next]
  refine .step rfl (claimed.record_ran mem_chainedArena fun middle _ ran taken => ?_)
  exact (Orderly.runJob ran taken).bind fun _ last done => done.freeObj

/-- The end of a connection takes away what its terminal has recorded. -/
theorem Orderly.closeTerminal (orderly : host.Orderly config none spare owned hand) (termId : ℕ)
    (notices : List StatusCode) :
    Ensures (closeTerminal config termId notices)
      (fun _ after => after.Orderly config none spare owned hand) Stop.PoolSound host := by
  unfold Host.closeTerminal
  refine orderly.after (inScope_getTerminal _ _) fun pTerm middle orderly => ?_
  split
  · exact poolSound_of_ne (by simp)
  refine orderly.after (inScope_notifyAny _ _ _ _) fun _ middle orderly => ?_
  refine orderly.after (inScope_releaseAny _ _) fun _ middle orderly => ?_
  refine orderly.after (inScope_releaseAny _ _) fun _ middle orderly => .step rfl ?_
  have cleared : Orderly config none spare owned hand
      { middle with
        connections := Function.update middle.connections termId
          { middle.connections termId with pMemRegion := none, pTagRegion := none } } :=
    orderly.setTerminal _ (by simp) (by simp) fun some => absurd rfl some
  refine cleared.after (inScope_freeTerminal trivial _) fun _ middle orderly => ?_
  exact orderly.after calm_modifySocket
    fun _ middle orderly => orderly.keep (inScope_freeSocket (within_calm _) False.elim)

/-- `Send` only queues a request. -/
theorem Orderly.send (orderly : host.Orderly config due spare owned hand) (handle : UInt64)
    (req : SndReq) :
    Ensures (send config handle req) (fun _ after => after.Orderly config due spare owned hand)
      Stop.PoolSound host := by
  have sends : Advances (Moves config .calm) Stop.PoolSound
      (Host.send config handle req : Code queue StatusCode) := by
    apply advances_send
    · exact fun moves =>
        ⟨moves.buffers, moves.connectionSpan, moves.events, moves.notified, False.elim, moves.same⟩
    · refine fun host conId => .setTerminal (.inl trivial) False.elim fun _ => ?_
      simp only [Terminal.sendLocked]
      split <;> rfl
  exact (sends host).ensures.mono (fun _ _ moves => orderly.moved moves) fun _ stops => stops

/-- Every step keeps to the discipline, and none of the pool's assertions stops it. -/
theorem Orderly.perform (orderly : host.Orderly config due [] [] []) {action : HostAction}
    (plain : due ≠ none → action.Plain) :
    Ensures (perform config action)
      (fun _ after => after.Orderly config due [] [] []) Stop.PoolSound host := by
  cases action
  case createSocket =>
    exact orderly.after (inScope_createSocket (within_calm _)) fun _ _ orderly => orderly
  case listen =>
    exact orderly.after (inScope_listen (within_calm _) _ _) fun _ _ orderly => orderly
  case accept => exact orderly.accept.bind fun _ _ orderly => orderly
  case connect => exact orderly.connect.bind fun _ _ orderly => orderly
  case send handle req => exact (orderly.send handle req).bind fun _ _ orderly => orderly
  case closeSocket => exact orderly.keep (inScope_closeSocket (within_calm _) _)
  case complete => exact orderly.run
  case shutdown =>
    have shuts : Moves config .calm host { host with closing := true } :=
      .of_same rfl rfl le_rfl List.prefix_rfl
    exact orderly.moved shuts
  case destroySocket id =>
    refine .step apply_get ?_
    split
    · exact orderly.keep (inScope_destroySocket (within_calm _) False.elim)
    · exact poolSound_of_ne (by simp)
  case closeTerminal term notices =>
    cases due with
    | none => exact orderly.closeTerminal term notices
    | some jobs => exact absurd (plain (by simp)) id

end Calls

section Runs

variable {setup : Setup}

/-- The library object the factory makes. -/
theorem Started.linear (started : Started config host) : host.Linear [] [] [] := by
  rcases started.rest with ⟨overlapPool, items, capacity, same⟩
  have pending : host.pending = [] := by rw [same]; rfl
  have events : host.events = [] := by rw [same]; rfl
  refine ⟨{}, ?_⟩
  constructor
  case replayed => rw [events]; rfl
  case capacity => rw [same]; exact capacity
  case all =>
    rw [pending, List.map_nil, List.append_nil, List.append_nil, same]
    exact .of_eq items
  case pool =>
    intro ov _
    rw [same]
    exact ⟨rfl, rfl⟩
  case inHand => simp
  case pend => simp [pending]
  case outside => exact fun _ _ => rfl
  case owners => simp [chainedArenas, pending]
  case spareOnce => simp [registrationArenas, pending]
  case spared => simp [registrationArenas, pending]
  case fresh => simp

/-- Every state of a run is in order; without `TerminalCloser` no registration is lost. -/
theorem orderly_of_run {allowed : Host queue → HostAction → Prop}
    (plain : due ≠ none → ∀ {host action}, allowed host action → action.Plain)
    (reachable : (hostMachine queue setup).Reachable allowed host) :
    host.Orderly setup.config due [] [] [] := by
  refine reachable.invariant (fun host => host.Orderly setup.config due [] [] []) ?_ ?_
  · intro state made
    rcases factory_started made with ⟨_, _, _, _, started⟩
    refine ⟨started.linear, .of_started started, fun jobs _ job taken => ?_⟩
    rcases started.rest with ⟨_, _, _, same⟩
    rcases taken with ⟨ov, arena, member⟩
    have events : state.events = [] := by rw [same]; rfl
    simp [events] at member
  · intro state action next orderly allows stepped
    rcases step_eq_ok.mp stepped with ⟨_, performed⟩
    exact (orderly.perform fun some => plain some allows).of_ok performed

/-- Every reachable state is in order. -/
theorem orderly_of_reachable
    (reachable : (hostMachine queue setup).Reachable (fun _ _ => True) host) :
    host.Orderly setup.config none [] [] [] :=
  orderly_of_run (fun some => absurd rfl some) reachable

end Runs

end Host

/-- In every run, an accept or a connect begins on an arena of its own, which is owned by one
outstanding operation until it is retired, once; nothing on it is used after that.  An overlapped
object that is taken runs its job once and is then given back, before it is taken again, unless its
operation is still outstanding, and no assertion of the pool fails. -/
theorem linear_ownership (queue : CircularQue ℕ) (setup : Setup) {host : Host queue}
    (reachable : (hostMachine queue setup).Reachable (fun _ _ => True) host) :
    (∀ arena, .began arena ∈ host.events → host.events.count (.began arena) = 1 ∧
      host.events.count (.retired arena) + host.chainedArenas.count arena = 1) ∧
    (∀ before event after arena, host.events = before ++ event :: after →
      event.Uses before arena → .began arena ∈ before ∧ .retired arena ∉ before) ∧
    (∀ before ov job arena after, host.events = before ++ .took ov job arena :: after →
      (after.filter (·.about ov) = [] ∧ ov ∈ host.pending) ∨
        ∃ rest, after.filter (·.about ov) = .ran ov :: .gave ov :: rest) ∧
    ∀ action, ∀ text ∈ poolChecks,
      Host.step setup.config host action ≠ .error (.abort (.assert text)) := by
  have orderly := Host.orderly_of_reachable reachable
  rcases orderly.linear with ⟨ledger, linear⟩
  have counts := ArenaLedger.counts_of_replay linear.replayed
  refine ⟨?_, ?_, ?_, ?_⟩
  · intro arena begun
    have positive := List.count_pos_iff.mpr begun
    have once := counts.began arena
    have owners := linear.owners.count_eq arena
    rw [List.nil_append, counts.nodup.count] at owners
    refine ⟨by omega, ?_⟩
    by_cases retired : .retired arena ∈ host.events
    · have notLive : arena ∉ ledger.live := fun live => ((counts.live arena).mp live).2 retired
      rw [owners, if_neg notLive, counts.retired, if_pos (counts.mem_ended.mpr retired)]
    · rw [owners, if_pos ((counts.live arena).mpr ⟨begun, retired⟩), counts.retired,
        if_neg (mt counts.mem_ended.mp retired)]
  · intro before event after arena same uses
    exact ArenaLedger.live_of_uses (same ▸ linear.replayed) uses
  · intro before ov job arena after same
    rcases ArenaLedger.replay_split (same ▸ linear.replayed) with ⟨_, middle, _, took, followed⟩
    have held := ArenaLedger.held_of_took took
    rcases ArenaLedger.turn_of_held held followed with ⟨none, still⟩ | ⟨_, done⟩ | turn
    · exact .inl ⟨none, (linear.held_of_busy (by simp [still])).1⟩
    · exact absurd done (linear.held_of_busy (by simp [done])).2
    · exact .inr turn
  · intro action text member stopped
    have sound : Ensures (Host.perform setup.config action) _ Stop.PoolSound host :=
      orderly.perform fun some => absurd rfl some
    exact sound.of_error (Host.step_eq_error.mp stopped) text member rfl

/-- An accept whose request is refused has retired its arena, and nothing owns it any more. -/
theorem linear_ownership_refused :
    ∃ (host : Host (boundedQueue ℕ)) (arena : ℕ), .began arena ∈ host.events ∧
      .retired arena ∈ host.events ∧ arena ∉ host.chainedArenas := by
  have passes : (sampleRun (sampleListen ++ [.accept sampleHandle 5 6
      { sampleRegistered with getConnectionRequest := ndConnectionRefused }])).toOption.any
      (fun host => .began 1 ∈ host.events ∧ .retired 1 ∈ host.events) = true := by
    decide +kernel
  rcases sampleRun_reaches (fun _ _ _ => trivial) passes with ⟨host, reachable, events⟩
  have both : .began 1 ∈ host.events ∧ .retired 1 ∈ host.events := by simpa using events
  have positive := List.count_pos_iff.mpr both.2
  have once := ((linear_ownership _ _ reachable).1 1 both.1).2
  exact ⟨host, 1, both.1, both.2, List.count_eq_zero.mp (by omega)⟩

end Hermes
