import Hermes.HostScope

/-!
# What is registered for whom

`CreateMemRegions` takes an overlapped object for each region right before it registers
the region, so the history tells every call of `Register`.  `Granted` says that each
region is registered once, for one terminal, that a terminal records only regions
registered for it, and that only registered regions are disclosed.
-/

namespace Hermes

open Program

variable {queue : CircularQue ℕ} {config : HostConfig} {job : AsyncJob} {event : ArenaEvent}
  {events : List ArenaEvent}

namespace Host

/-- What `GetBufPair` returns. -/
def bufPairSpan (config : HostConfig) (host : Host queue) (conId : ℕ) : Span :=
  ⟨host.buffers.data + wrap32 ((conId - 1) * config.bufSize * 2), wrap32 (config.bufSize * 2)⟩

theorem getBufPair_returns {host : Host queue} (fit : RingsFit config host) {conId : ℕ}
    (inRange : config.TermId conId) :
    getBufPair config conId host = .ok (host.bufPairSpan config conId, host) := by
  rcases fit.offset inRange.1 inRange.2 with ⟨_, offset, _, size⟩
  rw [getBufPair_eq fit inRange.1 inRange.2, bufPairSpan, offset, size]

end Host

/-- The memory of the region of a job. -/
def AsyncJob.span? (config : HostConfig) (host : Host queue) : AsyncJob → Option Span
  | .onTagRegistered conId _ => some (host.terminalSpan config conId)
  | .onMemRegistered conId _ => some (host.bufPairSpan config conId)
  | _ => none

/-- An overlapped object has been taken for the job; for a registration, `Register` was called. -/
def Taken (events : List ArenaEvent) (job : AsyncJob) : Prop :=
  ∃ ov arena, .took ov job arena ∈ events

theorem taken_append (other : ∀ ov job arena, event ≠ .took ov job arena) :
    Taken (events ++ [event]) job ↔ Taken events job := by
  have same : ∀ ov arena, (.took ov job arena : ArenaEvent) ≠ event :=
    fun ov arena => (other ov job arena).symm
  simp [Taken, same]

theorem taken_took {ov arena : ℕ} {job' : AsyncJob} :
    Taken (events ++ [.took ov job arena]) job' ↔ Taken events job' ∨ job' = job := by
  constructor
  · rintro ⟨ov', arena', member⟩
    rcases List.mem_append.mp member with old | new
    · exact .inl ⟨ov', arena', old⟩
    · cases List.mem_singleton.mp new
      exact .inr rfl
  · rintro (⟨ov', arena', old⟩ | rfl)
    · exact ⟨ov', arena', List.mem_append_left _ old⟩
    · exact ⟨ov, arena, by simp⟩

namespace Host

/-- Regions and what they were registered for. -/
structure Granted (config : HostConfig) (host : Host queue) : Prop where
  rings : RingsFit config host
  spans : host.buffers.data + host.buffers.size ≤ host.connectionSpan.data
  taken : ∀ ov job arena, (host.overlaps ov).pNext = some (job, arena) → Taken host.events job
  inRange : ∀ job conId, Taken host.events job → job.registers? = some conId →
    config.TermId conId
  fresh : ∀ job region, Taken host.events job → job.region? = some region →
    region < host.objects
  once : ∀ job job' region, Taken host.events job → Taken host.events job' →
    job.region? = some region → job'.region? = some region → job = job'
  tag : ∀ conId region, (host.connections conId).pTagRegion = some region →
    Taken host.events (.onTagRegistered conId region)
  mem : ∀ conId region, (host.connections conId).pMemRegion = some region →
    Taken host.events (.onMemRegistered conId region)
  disclosed : ∀ region ∈ host.disclosed, ∃ job, Taken host.events job ∧
    job.region? = some region
  registered : ∀ region registration, (region, registration) ∈ host.registered →
    ∃ job span, Taken host.events job ∧ job.region? = some region ∧
      job.span? config host = some span ∧ registration = ⟨span, regionFlags⟩

namespace Granted

variable {host before after : Host queue} {conId region ov arena : ℕ}

theorem span?_congr (buffers : after.buffers = before.buffers)
    (connectionSpan : after.connectionSpan = before.connectionSpan) :
    job.span? config after = job.span? config before := by
  cases job
  all_goals simp only [AsyncJob.span?, terminalSpan, bufPairSpan, buffers, connectionSpan]

/-- No other region is registered, and what is recorded or disclosed is registered. -/
theorem later (granted : before.Granted config)
    (started : ∀ job, Taken after.events job ↔ Taken before.events job)
    (objects : before.objects ≤ after.objects)
    (overlaps : ∀ ov job arena, (after.overlaps ov).pNext = some (job, arena) →
      (before.overlaps ov).pNext = some (job, arena))
    (tag : ∀ conId region, (after.connections conId).pTagRegion = some region →
      Taken before.events (.onTagRegistered conId region))
    (mem : ∀ conId region, (after.connections conId).pMemRegion = some region →
      Taken before.events (.onMemRegistered conId region))
    (disclosed : ∀ region ∈ after.disclosed, ∃ job, Taken before.events job ∧
      job.region? = some region)
    (registered : after.registered = before.registered)
    (buffers : after.buffers = before.buffers)
    (connectionSpan : after.connectionSpan = before.connectionSpan) : after.Granted config where
  rings := ⟨granted.rings.small, by rw [buffers]; exact granted.rings.size⟩
  spans := by rw [buffers, connectionSpan]; exact granted.spans
  taken := by
    intro ov job arena next
    exact (started job).mpr (granted.taken ov job arena (overlaps ov job arena next))
  inRange := fun job conId given => granted.inRange job conId ((started job).mp given)
  fresh := by
    intro job region given same
    exact Nat.lt_of_lt_of_le (granted.fresh job region ((started job).mp given) same) objects
  once := fun job job' region given given' =>
    granted.once job job' region ((started job).mp given) ((started job').mp given')
  tag := fun conId region some => (started _).mpr (tag conId region some)
  mem := fun conId region some => (started _).mpr (mem conId region some)
  disclosed := by
    intro region member
    rcases disclosed region member with ⟨job, given, same⟩
    exact ⟨job, (started job).mpr given, same⟩
  registered := by
    intro region registration member
    rw [registered] at member
    rcases granted.registered region registration member with ⟨job, span, given, same, spans⟩
    refine ⟨job, span, (started job).mpr given, same, ?_⟩
    rwa [span?_congr buffers connectionSpan]

/-- Code that leaves regions alone. -/
theorem same (granted : before.Granted config) (same : SameRegions before after) :
    after.Granted config := by
  apply granted.later
  · intro job
    rw [same.events]
  · exact same.objects
  · intro ov job arena
    rw [same.overlaps]
    exact id
  · intro conId region some
    exact granted.tag conId region ((congrArg Prod.fst (same.regions conId)).symm.trans some)
  · intro conId region some
    exact granted.mem conId region ((congrArg Prod.snd (same.regions conId)).symm.trans some)
  · rw [same.disclosed]
    exact granted.disclosed
  · exact same.registered
  · exact same.buffers
  · exact same.connectionSpan

/-- What `Granted` reads. -/
def reads (host : Host queue) :=
  (host.overlaps, host.connections, host.disclosed, host.objects, host.registered, host.buffers,
    host.connectionSpan)

/-- Other events than the taking of an object. -/
theorem record (granted : before.Granted config)
    (other : ∀ ov job arena, event ≠ .took ov job arena)
    (recorded : after.events = before.events ++ [event]) (same : reads after = reads before) :
    after.Granted config := by
  simp only [reads, Prod.mk.injEq] at same
  rcases same with ⟨overlaps, connections, disclosed, objects, registered, buffers, connectionSpan⟩
  apply granted.later
  · intro job
    rw [recorded]
    exact taken_append other
  · exact objects.ge
  · rw [overlaps]
    exact fun _ _ _ => id
  · rw [connections]
    exact granted.tag
  · rw [connections]
    exact granted.mem
  · rw [disclosed]
    exact granted.disclosed
  · exact registered
  · exact buffers
  · exact connectionSpan

/-- Pools, operations of the provider and arenas may change. -/
theorem congr (granted : before.Granted config) (events : after.events = before.events)
    (same : reads after = reads before) : after.Granted config := by
  simp only [reads, Prod.mk.injEq] at same
  rcases same with ⟨overlaps, connections, disclosed, objects, registered, buffers, connectionSpan⟩
  apply granted.later
  · intro job
    rw [events]
  · exact objects.ge
  · rw [overlaps]
    exact fun _ _ _ => id
  · rw [connections]
    exact granted.tag
  · rw [connections]
    exact granted.mem
  · rw [disclosed]
    exact granted.disclosed
  · exact registered
  · exact buffers
  · exact connectionSpan

/-- An object is taken; for a registration, the region is new and the terminal is one. -/
theorem take (granted : host.Granted config) (overlapPool : queue.Que) (pReceiver : Option ℕ)
    (inRange : ∀ conId, job.registers? = some conId → config.TermId conId)
    (new : ∀ region, job.region? = some region → region < host.objects ∧
      ∀ job', Taken host.events job' → job'.region? ≠ some region) :
    Granted config { host with
      overlapPool
      overlaps := Function.update host.overlaps ov ⟨pReceiver, some (job, arena)⟩
      events := host.events ++ [.took ov job arena] } where
  rings := ⟨granted.rings.small, granted.rings.size⟩
  spans := granted.spans
  taken := by
    intro ov' job' arena' next
    rw [taken_took]
    by_cases equal : ov' = ov
    · subst equal
      simp only [Function.update_self, Option.some.injEq, Prod.mk.injEq] at next
      exact .inr next.1.symm
    · simp only [Function.update_of_ne equal] at next
      exact .inl (granted.taken ov' job' arena' next)
  inRange := by
    intro job' conId given registers
    rcases taken_took.mp given with old | rfl
    · exact granted.inRange job' conId old registers
    · exact inRange conId registers
  fresh := by
    intro job' region given same
    rcases taken_took.mp given with old | rfl
    · exact granted.fresh job' region old same
    · exact (new region same).1
  once := by
    intro first second region given given' same same'
    rcases taken_took.mp given with old | rfl
    · rcases taken_took.mp given' with old' | rfl
      · exact granted.once first second region old old' same same'
      · exact absurd same ((new region same').2 first old)
    · rcases taken_took.mp given' with old' | rfl
      · exact absurd same' ((new region same).2 second old')
      · rfl
  tag := fun conId region some => taken_took.mpr (.inl (granted.tag conId region some))
  mem := fun conId region some => taken_took.mpr (.inl (granted.mem conId region some))
  disclosed := by
    intro region member
    rcases granted.disclosed region member with ⟨job', given, same⟩
    exact ⟨job', taken_took.mpr (.inl given), same⟩
  registered := by
    intro region registration member
    rcases granted.registered region registration member with ⟨job', span, given, same⟩
    exact ⟨job', span, taken_took.mpr (.inl given), same⟩

/-- An object is given back. -/
theorem give (granted : host.Granted config) (overlapPool : queue.Que) :
    Granted config { host with
      overlapPool
      overlaps := Function.update host.overlaps ov {}
      events := host.events ++ [.gave ov] } := by
  apply granted.later
  · exact fun job => taken_append (by simp)
  · exact le_rfl
  · intro ov' job arena next
    by_cases equal : ov' = ov
    · subst equal
      simp at next
    · simpa only [Function.update_of_ne equal] using next
  · exact granted.tag
  · exact granted.mem
  · exact granted.disclosed
  · rfl
  · rfl
  · rfl

/-- A terminal's pointers to its regions change to what is registered for it. -/
theorem setTerminal (granted : host.Granted config) (terminal : Terminal)
    (tag : ∀ region, terminal.pTagRegion = some region →
      Taken host.events (.onTagRegistered conId region))
    (mem : ∀ region, terminal.pMemRegion = some region →
      Taken host.events (.onMemRegistered conId region)) :
    Granted config
      { host with connections := Function.update host.connections conId terminal } := by
  apply granted.later
  · exact fun _ => Iff.rfl
  · exact le_rfl
  · exact fun _ _ _ => id
  · intro conId' region some
    by_cases equal : conId' = conId
    · subst equal
      exact tag region (by simpa using some)
    · exact granted.tag conId' region (by simpa [equal] using some)
  · intro conId' region some
    by_cases equal : conId' = conId
    · subst equal
      exact mem region (by simpa using some)
    · exact granted.mem conId' region (by simpa [equal] using some)
  · exact granted.disclosed
  · rfl
  · rfl
  · rfl

/-- The tokens of the regions a terminal has recorded are disclosed. -/
theorem disclose (granted : host.Granted config) {memRegion tagRegion : ℕ}
    (mem : (host.connections conId).pMemRegion = some memRegion)
    (tag : (host.connections conId).pTagRegion = some tagRegion) :
    Granted config { host with disclosed := host.disclosed ++ [memRegion, tagRegion] } := by
  apply granted.later
  · exact fun _ => Iff.rfl
  · exact le_rfl
  · exact fun _ _ _ => id
  · exact granted.tag
  · exact granted.mem
  · intro region member
    simp only [List.mem_append, List.mem_cons, List.not_mem_nil, or_false] at member
    rcases member with old | rfl | rfl
    · exact granted.disclosed region old
    · exact ⟨_, granted.mem conId region mem, rfl⟩
    · exact ⟨_, granted.tag conId region tag, rfl⟩
  · rfl
  · rfl
  · rfl

/-- The region of a job that has its object is registered. -/
theorem register (granted : host.Granted config) (taken : Taken host.events job)
    (same : job.region? = some region) {span : Span} (spans : job.span? config host = some span) :
    Granted config
      { host with registered := host.registered ++ [(region, ⟨span, regionFlags⟩)] } := by
  refine { granted with rings := ⟨granted.rings.small, granted.rings.size⟩, registered := ?_ }
  intro region' registration member
  rcases List.mem_append.mp member with old | new
  · exact granted.registered region' registration old
  · cases List.mem_singleton.mp new
    exact ⟨job, span, taken, same, spans, rfl⟩

/-- The library object the factory makes. -/
theorem of_started (started : Started config host) : host.Granted config := by
  rcases started.rest with ⟨overlapPool, _, _, same⟩
  have events : host.events = [] := by rw [same]; rfl
  have none : ∀ job, ¬Taken host.events job := by
    rintro job ⟨ov, arena, member⟩
    simp [events] at member
  have connections : ∀ conId, host.connections conId = {} := by
    intro conId
    rw [same]
    rfl
  constructor
  case rings => exact started.fit
  case spans =>
    rw [same]
    exact le_rfl
  case taken =>
    intro ov job arena next
    rw [same] at next
    cases next
  case inRange => exact fun job _ given => absurd given (none job)
  case fresh => exact fun job _ given => absurd given (none job)
  case once => exact fun job _ _ given => absurd given (none job)
  case tag =>
    intro conId region some
    rw [connections] at some
    cases some
  case mem =>
    intro conId region some
    rw [connections] at some
    cases some
  case disclosed =>
    have disclosed : host.disclosed = [] := by rw [same]; rfl
    simp [disclosed]
  case registered =>
    have registered : host.registered = [] := by rw [same]; rfl
    simp [registered]

end Granted

end Host

end Hermes
