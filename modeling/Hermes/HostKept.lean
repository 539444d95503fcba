import Hermes.HostArena
import Hermes.HostGrants

/-!
# No registration is lost

What `CreateMemRegions` registers is with the provider until it completes, and then the
terminal records it.  `Kept` says so, up to the registrations the running code has in
hand: those whose object it holds, and those whose handler runs.
-/

namespace Hermes

variable {queue : CircularQue ℕ} {job : AsyncJob} {event : ArenaEvent}

/-- The terminal has recorded the region of a registration. -/
def AsyncJob.Recorded (host : Host queue) : AsyncJob → Prop
  | .onTagRegistered conId region => (host.connections conId).pTagRegion = some region
  | .onMemRegistered conId region => (host.connections conId).pMemRegion = some region
  | _ => True

theorem AsyncJob.recorded_of_plain {host : Host queue} (plain : job.region? = none) :
    job.Recorded host := by
  cases job
  case onTagRegistered => cases plain
  case onMemRegistered => cases plain
  all_goals trivial

namespace Host

/-- Every registration is recorded, outstanding, in hand, or due: its handler runs. -/
def Kept (due : List AsyncJob) (hand : List (ℕ × Phase)) (host : Host queue) : Prop :=
  ∀ job, Taken host.events job → job.Recorded host ∨ (∃ ov, host.Pends ov job) ∨
    (∃ ov arena, (ov, .held job arena) ∈ hand) ∨ job ∈ due

namespace Kept

variable {host before after : Host queue} {due : List AsyncJob} {hand : List (ℕ × Phase)}
  {ov arena conId region : ℕ}

/-- Nothing is registered, and what was recorded, outstanding or in hand is one of these. -/
theorem later {due' : List AsyncJob} {hand' : List (ℕ × Phase)} (kept : before.Kept due hand)
    (taken : ∀ job, Taken after.events job → Taken before.events job)
    (recorded : ∀ job : AsyncJob, job.Recorded before → job.Recorded after)
    (pends : ∀ ov job, before.Pends ov job → (∃ ov, after.Pends ov job) ∨
      ∃ ov arena, (ov, .held job arena) ∈ hand')
    (held : ∀ ov job arena, (ov, .held job arena) ∈ hand → (∃ ov, after.Pends ov job) ∨
      (∃ ov arena, (ov, .held job arena) ∈ hand') ∨ job ∈ due')
    (runs : ∀ job ∈ due, job.Recorded after ∨ job ∈ due') : after.Kept due' hand' := by
  intro job given
  rcases kept job (taken job given) with done | ⟨ov, outstanding⟩ | ⟨ov, arena, inHand⟩ | running
  · exact .inl (recorded job done)
  · exact .inr ((pends ov job outstanding).imp_right .inl)
  · exact .inr (held ov job arena inHand)
  · exact (runs job running).imp_right fun later => .inr (.inr later)

/-- The fields `Kept` reads, but for the events. -/
def reads (host : Host queue) := (host.connections, host.pending, host.overlaps)

theorem recorded_of_same (regions : ∀ conId,
    (after.connections conId).regions = (before.connections conId).regions) :
    job.Recorded after ↔ job.Recorded before := by
  simp only [Terminal.regions, Prod.mk.injEq] at regions
  cases job
  case onTagRegistered conId region => simp [AsyncJob.Recorded, (regions conId).1]
  case onMemRegistered conId region => simp [AsyncJob.Recorded, (regions conId).2]
  all_goals exact Iff.rfl

/-- Code that leaves regions alone. -/
theorem same (kept : before.Kept due hand) (same : SameRegions before after) :
    after.Kept due hand := by
  intro job given
  rw [same.events] at given
  rw [recorded_of_same same.regions]
  simpa only [Pends, same.pending, same.overlaps] using kept job given

/-- Another event, and nothing `Kept` reads changes. -/
theorem record (kept : before.Kept due hand)
    (taken : ∀ job, Taken after.events job → Taken before.events job)
    (same : reads after = reads before) : after.Kept due hand := by
  simp only [reads, Prod.mk.injEq] at same
  rcases same with ⟨connections, pending, overlaps⟩
  apply kept.later taken
  · intro job
    rw [recorded_of_same fun conId => by rw [connections]]
    exact id
  · intro ov job outstanding
    refine .inl ⟨ov, ?_⟩
    rwa [Pends, pending, overlaps]
  · exact fun ov job arena inHand => .inr (.inl ⟨ov, arena, inHand⟩)
  · exact fun job running => .inr running

/-- An object is taken for a job and is in hand. -/
theorem take (kept : host.Kept due hand) (overlapPool : queue.Que) (pReceiver : Option ℕ)
    (free : ov ∉ host.pending) :
    Kept due ((ov, .held job arena) :: hand) { host with
      overlapPool
      overlaps := Function.update host.overlaps ov ⟨pReceiver, some (job, arena)⟩
      events := host.events ++ [.took ov job arena] } := by
  intro job' given
  rcases taken_took.mp given with old | rfl
  · rcases kept job' old with done | ⟨ov', outstanding⟩ | ⟨ov', arena', inHand⟩ | running
    · exact .inl ((recorded_of_same fun _ => rfl).mpr done)
    · refine .inr (.inl ⟨ov', outstanding.1, ?_⟩)
      have other : ov' ≠ ov := fun same => free (same ▸ outstanding.1)
      exact (congrArg HOverlap.job? (Function.update_of_ne other _ _)).trans outstanding.2
    · exact .inr (.inr (.inl ⟨ov', arena', List.mem_cons_of_mem _ inHand⟩))
    · exact .inr (.inr (.inr running))
  · exact .inr (.inr (.inl ⟨ov, arena, List.mem_cons_self⟩))

/-- An object whose job has run is given back. -/
theorem give (kept : host.Kept due ((ov, .done) :: hand)) (overlapPool : queue.Que)
    (free : ov ∉ host.pending) :
    Kept due hand { host with
      overlapPool
      overlaps := Function.update host.overlaps ov {}
      events := host.events ++ [.gave ov] } := by
  apply kept.later
  · exact fun job given => (taken_append (by simp)).mp given
  · exact fun job => (recorded_of_same fun _ => rfl).mpr
  · intro ov' job outstanding
    refine .inl ⟨ov', outstanding.1, ?_⟩
    have other : ov' ≠ ov := fun same => free (same ▸ outstanding.1)
    exact (congrArg HOverlap.job? (Function.update_of_ne other _ _)).trans outstanding.2
  · intro ov' job arena inHand
    rcases List.mem_cons.mp inHand with same | old
    · cases same
    · exact .inr (.inl ⟨ov', arena, old⟩)
  · exact fun job running => .inr running

/-- An operation of the provider ends. -/
theorem claim (kept : host.Kept due hand) (next : (host.overlaps ov).pNext = some (job, arena)) :
    Kept due ((ov, .held job arena) :: hand)
      { host with pending := host.pending.erase ov } := by
  apply kept.later
  · exact fun job given => given
  · exact fun job => (recorded_of_same fun _ => rfl).mpr
  · rintro ov' job' ⟨member, runs⟩
    by_cases same : ov' = ov
    · subst same
      rw [HOverlap.job?, next] at runs
      cases runs
      exact .inr ⟨ov', arena, List.mem_cons_self⟩
    · exact .inl ⟨ov', (List.mem_erase_of_ne same).mpr member, runs⟩
  · exact fun ov' job' arena' inHand => .inr (.inl ⟨ov', arena', List.mem_cons_of_mem _ inHand⟩)
  · exact fun job running => .inr running

/-- The job of an object in hand runs. -/
theorem ran (kept : host.Kept due ((ov, .held job arena) :: hand)) :
    Kept (job :: due) ((ov, .done) :: hand)
      { host with events := host.events ++ [.ran ov] } := by
  apply kept.later
  · exact fun job given => (taken_append (by simp)).mp given
  · exact fun job => (recorded_of_same fun _ => rfl).mpr
  · exact fun ov' job outstanding => .inl ⟨ov', outstanding⟩
  · intro ov' job' arena' inHand
    rcases List.mem_cons.mp inHand with same | old
    · cases same
      exact .inr (.inr List.mem_cons_self)
    · exact .inr (.inl ⟨ov', arena', List.mem_cons_of_mem _ old⟩)
  · exact fun job running => .inr (List.mem_cons_of_mem _ running)

/-- An object in hand is given to the provider. -/
theorem lend (kept : host.Kept due ((ov, .held job arena) :: hand))
    (next : (host.overlaps ov).pNext = some (job, arena)) :
    Kept due hand { host with pending := host.pending ++ [ov] } := by
  apply kept.later
  · exact fun job given => given
  · exact fun job => (recorded_of_same fun _ => rfl).mpr
  · exact fun ov' job outstanding => .inl ⟨ov', List.mem_append_left _ outstanding.1, outstanding.2⟩
  · intro ov' job' arena' inHand
    rcases List.mem_cons.mp inHand with same | old
    · cases same
      exact .inl ⟨ov, List.mem_append_right _ List.mem_cons_self, by simp [HOverlap.job?, next]⟩
    · exact .inr (.inl ⟨ov', arena', old⟩)
  · exact fun job running => .inr running

/-- A handler has done its work. -/
theorem discharge (kept : host.Kept (job :: due) hand) (recorded : job.Recorded host) :
    host.Kept due hand := by
  apply kept.later
  · exact fun job given => given
  · exact fun job => id
  · exact fun ov job outstanding => .inl ⟨ov, outstanding⟩
  · exact fun ov job arena inHand => .inr (.inl ⟨ov, arena, inHand⟩)
  · intro job' running
    rcases List.mem_cons.mp running with rfl | old
    · exact .inl recorded
    · exact .inr old

/-- A terminal records more regions. -/
theorem setTerminal (kept : host.Kept due hand) (terminal : Terminal)
    (tag : ∀ region, (host.connections conId).pTagRegion = some region →
      terminal.pTagRegion = some region)
    (mem : ∀ region, (host.connections conId).pMemRegion = some region →
      terminal.pMemRegion = some region) :
    Kept due hand
      { host with connections := Function.update host.connections conId terminal } := by
  apply kept.later
  · exact fun job given => given
  · intro job recorded
    cases job
    case onTagRegistered conId' region =>
      by_cases same : conId' = conId
      · subst same
        simpa [AsyncJob.Recorded] using tag region recorded
      · simpa [AsyncJob.Recorded, same] using recorded
    case onMemRegistered conId' region =>
      by_cases same : conId' = conId
      · subst same
        simpa [AsyncJob.Recorded] using mem region recorded
      · simpa [AsyncJob.Recorded, same] using recorded
    all_goals trivial
  · exact fun ov job outstanding => .inl ⟨ov, outstanding⟩
  · exact fun ov job arena inHand => .inr (.inl ⟨ov, arena, inHand⟩)
  · exact fun job running => .inr running

end Kept

end Host

end Hermes
