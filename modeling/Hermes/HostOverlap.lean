import Hermes.HostUpdate

/-!
# Overlapped operations, objects and regions

How the invariant is kept by what passes between the library and the provider: an
overlapped object goes from the pool to the hand, to the provider and back; objects
are made and released; regions are recorded; handles and statuses reach the client.
-/

namespace Hermes

variable {queue : CircularQue ℕ} {config : HostConfig} {mode : Mode} {listeners : List ℕ}
  {hand : Hand} {host : Host queue} {id conId ov : ℕ} {job : AsyncJob}

section Waiting

variable {overlaps overlaps' : ℕ → HOverlap} {pending : List ℕ}

theorem waiting_congr (same : ∀ ov ∈ pending, overlaps' ov = overlaps ov) (listener : ℕ) :
    waiting overlaps' pending listener = waiting overlaps pending listener := by
  apply List.countP_congr
  intro ov member
  rw [same ov member]

theorem waiting_append (listener : ℕ) : waiting overlaps (pending ++ [ov]) listener =
    waiting overlaps pending listener +
      if (overlaps ov).job?.bind AsyncJob.listens? = some listener then 1 else 0 := by
  rw [waiting, List.countP_append, List.countP_singleton, waiting]
  simp

theorem waiting_erase (member : ov ∈ pending) (listener : ℕ) :
    waiting overlaps (pending.erase ov) listener +
        (if (overlaps ov).job?.bind AsyncJob.listens? = some listener then 1 else 0) =
      waiting overlaps pending listener := by
  rw [waiting, waiting, (List.perm_cons_erase member).countP_eq, List.countP_cons]
  simp

end Waiting

namespace OverlapsOk

variable {overlaps : ℕ → HOverlap} {items pending ovs : List ℕ}

theorem nodup (ok : OverlapsOk hand overlaps items pending) :
    (items ++ (hand.ovs ++ pending)).Nodup :=
  ok.all.nodup_iff.mpr List.nodup_range

theorem take (ok : OverlapsOk hand overlaps (ov :: items) pending) {overlap : HOverlap}
    (taken : overlap.pNext ≠ none) :
    OverlapsOk { hand with ovs := ov :: hand.ovs } (Function.update overlaps ov overlap) items
      pending := by
  have nodup := List.nodup_cons.mp ok.nodup
  have other : ∀ {ov'}, ov' ∈ items ++ (hand.ovs ++ pending) → ov' ≠ ov :=
    fun member same => nodup.1 (same ▸ member)
  constructor
  · exact List.perm_middle.trans ok.all
  · intro ov' member
    rw [Function.update_of_ne (other (List.mem_append_left _ member))]
    exact ok.blank ov' (List.mem_cons_of_mem ov member)
  · intro ov' member
    rcases List.mem_cons.mp member with same | member
    · rw [same, Function.update_self]
      exact taken
    · rw [Function.update_of_ne (other (List.mem_append_right _ member))]
      exact ok.taken ov' member

theorem give (ok : OverlapsOk hand overlaps items pending) (top : hand.ovs = ov :: ovs) :
    OverlapsOk { hand with ovs } (Function.update overlaps ov {}) (items ++ [ov]) pending := by
  have all := ok.all
  have nodup := ok.nodup
  have takenBefore := ok.taken
  rw [top] at all nodup takenBefore
  have nodup' := (List.perm_middle.nodup_iff).mp nodup
  have other : ∀ {ov'}, ov' ∈ items ++ (ovs ++ pending) → ov' ≠ ov :=
    fun member same => (List.nodup_cons.mp nodup').1 (same ▸ member)
  constructor
  · rw [List.append_assoc]
    exact all
  · intro ov' member
    rcases List.mem_append.mp member with old | new
    · rw [Function.update_of_ne (other (List.mem_append_left _ old))]
      exact ok.blank ov' old
    · rw [List.mem_singleton.mp new, Function.update_self]
  · intro ov' member
    rw [Function.update_of_ne (other (List.mem_append_right _ member))]
    exact takenBefore ov' (List.mem_cons_of_mem ov member)

theorem pend (ok : OverlapsOk hand overlaps items pending) (top : hand.ovs = ov :: ovs) :
    OverlapsOk { hand with ovs } overlaps items (pending ++ [ov]) := by
  have moved : (ovs ++ (pending ++ [ov])).Perm (hand.ovs ++ pending) := by
    rw [top, ← List.append_assoc]
    exact List.perm_append_singleton ov (ovs ++ pending)
  exact ⟨(moved.append_left items).trans ok.all, ok.blank,
    fun ov' member => ok.taken ov' (moved.mem_iff.mp member)⟩

theorem unpend (ok : OverlapsOk hand overlaps items pending) (member : ov ∈ pending) :
    OverlapsOk { hand with ovs := ov :: hand.ovs } overlaps items (pending.erase ov) := by
  have moved : (ov :: hand.ovs ++ pending.erase ov).Perm (hand.ovs ++ pending) :=
    List.perm_middle.symm.trans ((List.perm_cons_erase member).symm.append_left hand.ovs)
  exact ⟨(moved.append_left items).trans ok.all, ok.blank,
    fun ov' member => ok.taken ov' (moved.mem_iff.mp member)⟩

theorem pendingNodup (ok : OverlapsOk hand overlaps items pending) : pending.Nodup :=
  (List.nodup_append.mp (List.nodup_append.mp ok.nodup).2.1).2.1

theorem notPending (ok : OverlapsOk hand overlaps items pending) (top : ov ∈ hand.ovs) :
    ov ∉ pending := by
  intro member
  have disjoint := (List.nodup_append.mp (List.nodup_append.mp ok.nodup).2.1).2.2
  exact disjoint ov top ov member rfl

end OverlapsOk

/-- A region that no terminal has recorded, no hand shake has disclosed. -/
structure FreshRegion (config : HostConfig) (mode : Mode) (listeners : List ℕ) (host : Host queue)
    (region : ℕ) : Prop where
  low : region < host.objects
  hidden : region ∉ host.disclosed
  unrecorded : ∀ conId, config.TermId conId → ¬(host.connections conId).Records region
  apart : region ∉ listeners

namespace HostOk

section Overlaps

/-- Overlapped objects that are not with the provider change. -/
theorem setOverlaps (ok : HostOk config mode listeners hand host) {ovs : List ℕ}
    {overlaps : ℕ → HOverlap} {overlapPool : queue.Que}
    (overlapsOk : OverlapsOk { hand with ovs } overlaps (queue.items overlapPool) host.pending)
    (capacity : queue.getCapacity overlapPool = queue.getCapacity host.overlapPool)
    (same : ∀ ov ∈ host.pending, overlaps ov = host.overlaps ov) :
    HostOk config mode listeners { hand with ovs } { host with overlaps, overlapPool } := by
  have samePends : ∀ {ov job},
      Host.Pends { host with overlaps, overlapPool } ov job ↔ host.Pends ov job := by
    intro ov job
    refine and_congr_right fun member => ?_
    change (overlaps ov).job? = some job ↔ _
    rw [same ov member]
  have jobs : JobsOk config mode { hand with ovs }
      (Host.Pends { host with overlaps, overlapPool }) host.sockTbl host.connections :=
    ⟨fun outstanding => ok.jobs.ready (samePends.mp outstanding),
      fun first second => ok.jobs.once (samePends.mp first) (samePends.mp second)⟩
  have regions : RegionsOk config { hand with ovs } (Host.Pends { host with overlaps, overlapPool })
      host.sockTbl host.connections (queue.items host.connPool) host.disclosed host.objects :=
    ok.regions.transport (fun outstanding _ => samePends.mp outstanding) (.refl _)
      (fun _ member => .inl member) (Nat.le_refl _)
      (fun settled => .inl ⟨settled, rfl, rfl, rfl⟩)
      (fun _ notInHand begun => .inl ⟨notInHand, begun⟩)
  have registers : mode.strict = true → RegistersOk config mode { hand with ovs }
      (Host.Pends { host with overlaps, overlapPool }) host.connections
      (queue.items host.connPool) := by
    intro strict
    exact (ok.registers strict).transport (fun _ => samePends) (.refl _) rfl
      fun outside _ => .inl outside
  have listens : CountsOk config mode { hand with ovs } listeners host.sockTbl
      host.connections overlaps host.pending host.refs host.objects := by
    refine ok.listens.map fun leaked listens => ?_
    refine listens.transport (Nat.le_refl _) ?_
      (fun settled holds => ⟨settled, holds⟩) (fun settled holds => ⟨settled, holds⟩)
      (fun _ member => .inl member) (fun _ _ apart => apart) ?_
    · intro listener _
      rw [waiting_congr same]
    · intro ov job member runs
      rw [same ov member] at runs
      exact .inl ⟨member, runs⟩
  have awaited : ∀ {arena}, Host.Awaits { host with overlaps, overlapPool } arena →
      arena < host.arenas := by
    rintro arena ⟨ov, member, job, runs, registers⟩
    exact ok.awaited ⟨ov, member, job, same ov member ▸ runs, registers⟩
  exact
    { ok with
      overlapCapacity := capacity.trans ok.overlapCapacity
      slots := { ok.slots with }
      jobs, regions, registers, listens, awaited
      log := { ok.log with }
      overlaps := overlapsOk }

theorem getObj (ok : HostOk config mode listeners hand host) {overlapPool : queue.Que}
    (taken : queue.get host.overlapPool = some (ov, overlapPool)) {overlap : HOverlap}
    (runs : overlap.pNext ≠ none) :
    HostOk config mode listeners { hand with ovs := ov :: hand.ovs }
      { host with overlaps := Function.update host.overlaps ov overlap, overlapPool } := by
  rcases queue.items_of_get taken with ⟨items, capacity⟩
  have before := ok.overlaps
  rw [items] at before
  refine ok.setOverlaps (before.take runs) capacity ?_
  intro ov' member
  apply Function.update_of_ne
  intro same
  exact (List.nodup_cons.mp before.nodup).1
    (List.mem_append_right _ (List.mem_append_right _ (same ▸ member)))

theorem freeObj (ok : HostOk config mode listeners hand host) {ovs : List ℕ}
    (top : hand.ovs = ov :: ovs) {overlapPool : queue.Que}
    (added : queue.add host.overlapPool ov = some overlapPool) :
    HostOk config mode listeners { hand with ovs }
      { host with overlaps := Function.update host.overlaps ov {}, overlapPool } := by
  rcases queue.items_of_add added with ⟨items, capacity⟩
  have after := ok.overlaps.give top
  rw [← items] at after
  refine ok.setOverlaps after capacity ?_
  intro ov' member
  apply Function.update_of_ne
  intro same
  exact ok.overlaps.notPending (by rw [top]; exact List.mem_cons_self) (same ▸ member)

/-- What is outstanding when one more operation is. -/
theorem pends_append (runs : (host.overlaps ov).job? = some job) {ov' : ℕ} {job' : AsyncJob} :
    Host.Pends { host with pending := host.pending ++ [ov] } ov' job' ↔
      host.Pends ov' job' ∨ ov' = ov ∧ job' = job := by
  constructor
  · rintro ⟨member, runs'⟩
    rcases List.mem_append.mp member with old | new
    · exact .inl ⟨old, runs'⟩
    · have same := List.mem_singleton.mp new
      rw [same] at runs'
      exact .inr ⟨same, Option.some.inj (runs'.symm.trans runs)⟩
  · rintro (⟨member, runs'⟩ | ⟨same, same'⟩)
    · exact ⟨List.mem_append_left _ member, runs'⟩
    · rw [same, same']
      exact ⟨List.mem_append_right _ List.mem_cons_self, runs⟩

/-- An overlapped object in hand is given to the provider. -/
theorem pend (ok : HostOk config mode listeners hand host) {ovs refs : List ℕ}
    (top : hand.ovs = ov :: ovs) (runs : (host.overlaps ov).job? = some job)
    (ready : JobReady config mode hand host.sockTbl host.connections job)
    (alone : ∀ {ov' job'}, host.Pends ov' job' → mode.key job ≠ none →
      mode.key job' ≠ mode.key job)
    (fresh : ∀ region, job.region? = some region →
      FreshRegion config mode listeners host region ∧
        ∀ {ov' job'}, host.Pends ov' job' → job'.region? ≠ some region)
    (tag : ∀ conId region, job = .onTagRegistered conId region → hand.making = some conId)
    (mem : ∀ conId region, job = .onMemRegistered conId region → mode.strict = true →
      mode.closers = false → (host.connections conId).pTagRegion ≠ none ∨
        ∃ ov' region', host.Pends ov' (.onTagRegistered conId region'))
    (held : hand.refs = job.listens?.toList ++ refs)
    (arena : ∀ arena, (host.overlaps ov).pNext = some (job, arena) → job.region? ≠ none →
      arena < host.arenas) :
    HostOk config mode listeners { hand with ovs, refs }
      { host with pending := host.pending ++ [ov] } := by
  have more : ∀ {ov' job'}, Host.Pends { host with pending := host.pending ++ [ov] } ov' job' ↔
      host.Pends ov' job' ∨ ov' = ov ∧ job' = job := pends_append runs
  have jobs : JobsOk config mode { hand with ovs, refs }
      (Host.Pends { host with pending := host.pending ++ [ov] }) host.sockTbl
      host.connections := by
    have added := ok.jobs.add (fun outstanding => more.mp outstanding) ready alone
    refine added.transport (fun outstanding => outstanding) ?_
    intro _ _ _ ready
    apply ready.transport
    · exact fun id' _ settled => ⟨settled, rfl, rfl⟩
    · exact fun _ _ begun => begun
    · exact fun _ _ _ _ settled term attempting => ⟨settled, term, attempting⟩
    · exact fun _ _ _ _ none => none
    · exact fun _ _ _ _ none => none
  have regions : RegionsOk config { hand with ovs, refs }
      (Host.Pends { host with pending := host.pending ++ [ov] }) host.sockTbl host.connections
      (queue.items host.connPool) host.disclosed host.objects := by
    refine { ok.regions with outstanding := ?_, once := ?_ }
    · intro ov' job' region outstanding registers
      rcases more.mp outstanding with old | ⟨_, new⟩
      · exact ok.regions.outstanding old registers
      · rw [new] at registers
        have fresh := (fresh region registers).1
        exact ⟨fresh.low, fresh.hidden, fresh.unrecorded⟩
    · intro ov' ov'' job' job'' region first second registers registers'
      rcases more.mp first with old | ⟨same, new⟩
      · rcases more.mp second with old' | ⟨same', new'⟩
        · exact ok.regions.once old old' registers registers'
        · rw [new'] at registers'
          exact absurd registers ((fresh region registers').2 old)
      · rcases more.mp second with old' | ⟨same', new'⟩
        · rw [new] at registers
          exact absurd registers' ((fresh region registers).2 old')
        · rw [same, same']
  have registers : mode.strict = true → RegistersOk config mode { hand with ovs, refs }
      (Host.Pends { host with pending := host.pending ++ [ov] }) host.connections
      (queue.items host.connPool) := by
    intro strict
    exact (ok.registers strict).add more rfl tag fun conId region runs noClosers =>
      mem conId region runs strict noClosers
  have listens : CountsOk config mode { hand with ovs, refs } listeners
      host.sockTbl host.connections host.overlaps (host.pending ++ [ov]) host.refs
      host.objects := by
    refine ok.listens.map fun leaked listens => ?_
    refine listens.transport (Nat.le_refl _) ?_
      (fun settled holds => ⟨settled, holds⟩) (fun settled holds => ⟨settled, holds⟩) ?_
      (fun _ _ apart => apart) ?_
    · intro listener _
      simp only [waiting_append, held, List.count_append, runs, Option.bind_some]
      cases job.listens? with
      | none => simp
      | some listen =>
          simp only [Option.some.injEq, Option.toList_some, List.count_singleton, beq_iff_eq]
          omega
    · intro listener member
      left
      dsimp only at member ⊢
      rw [held, List.append_assoc]
      exact List.mem_append_right _ member
    · intro ov' job' member runs'
      rcases more.mp ⟨member, runs'⟩ with old | ⟨_, new⟩
      · exact .inl old
      · rw [new]
        refine .inr ⟨?_, fun region registers => (fresh region registers).1.apart⟩
        intro listener waits
        apply listens.inHand
        dsimp only
        rw [held, waits]
        exact List.mem_cons_self
  have awaited : ∀ {arena}, Host.Awaits { host with pending := host.pending ++ [ov] } arena →
      arena < host.arenas := by
    rintro arena' ⟨ov', member, job', runs', registers⟩
    rcases List.mem_append.mp member with old | new
    · exact ok.awaited ⟨ov', old, job', runs', registers⟩
    · rw [List.mem_singleton.mp new] at runs'
      have same : job' = job :=
        Option.some.inj ((congrArg (Option.map Prod.fst) runs').symm.trans runs)
      rw [same] at runs' registers
      exact arena arena' runs' registers
  exact
    { ok with
      slots := { ok.slots with }
      jobs, regions, registers, listens, awaited
      log := { ok.log with }
      overlaps := { ok.overlaps.pend top with } }

/-- What is outstanding when an operation ends. -/
theorem pends_erase (nodup : host.pending.Nodup) {ov' : ℕ} {job' : AsyncJob} :
    Host.Pends { host with pending := host.pending.erase ov } ov' job' ↔
      ov' ≠ ov ∧ host.Pends ov' job' := by
  simp only [Host.Pends, nodup.mem_erase_iff]
  exact and_assoc

/-- An operation that registers no region ends. -/
theorem unpend (ok : HostOk config mode listeners hand host) (outstanding : host.Pends ov job)
    (noRegion : job.region? = none) :
    HostOk config mode listeners
      { hand with ovs := ov :: hand.ovs, refs := job.listens?.toList ++ hand.refs }
      { host with pending := host.pending.erase ov } := by
  have nodup := ok.overlaps.pendingNodup
  have fewer : ∀ {ov' job'}, Host.Pends { host with pending := host.pending.erase ov } ov' job' →
      host.Pends ov' job' := fun outstanding => ((pends_erase nodup).mp outstanding).2
  have sameJobs : ∀ {ov' job'}, job'.region? ≠ none →
      (Host.Pends { host with pending := host.pending.erase ov } ov' job' ↔
        host.Pends ov' job') := by
    intro ov' job' registers
    refine ⟨fewer, fun before => (pends_erase nodup).mpr ⟨?_, before⟩⟩
    intro same
    rw [same] at before
    rw [← Option.some.inj (outstanding.2.symm.trans before.2)] at registers
    exact registers noRegion
  have jobs : JobsOk config mode
      { hand with ovs := ov :: hand.ovs, refs := job.listens?.toList ++ hand.refs }
      (Host.Pends { host with pending := host.pending.erase ov }) host.sockTbl
      host.connections := by
    refine ok.jobs.transport fewer ?_
    intro _ _ _ ready
    apply ready.transport
    · exact fun id' _ settled => ⟨settled, rfl, rfl⟩
    · exact fun _ _ begun => begun
    · exact fun _ _ _ _ settled term attempting => ⟨settled, term, attempting⟩
    · exact fun _ _ _ _ none => none
    · exact fun _ _ _ _ none => none
  have regions : RegionsOk config
      { hand with ovs := ov :: hand.ovs, refs := job.listens?.toList ++ hand.refs }
      (Host.Pends { host with pending := host.pending.erase ov }) host.sockTbl host.connections
      (queue.items host.connPool) host.disclosed host.objects :=
    ok.regions.transport (fun outstanding _ => fewer outstanding) (.refl _)
      (fun _ member => .inl member) (Nat.le_refl _)
      (fun settled => .inl ⟨settled, rfl, rfl, rfl⟩)
      (fun _ notInHand begun => .inl ⟨notInHand, begun⟩)
  have registers : mode.strict = true → RegistersOk config mode
      { hand with ovs := ov :: hand.ovs, refs := job.listens?.toList ++ hand.refs }
      (Host.Pends { host with pending := host.pending.erase ov }) host.connections
      (queue.items host.connPool) := by
    intro strict
    exact (ok.registers strict).transport sameJobs (.refl _) rfl fun outside _ => .inl outside
  have listens : CountsOk config mode
      { hand with ovs := ov :: hand.ovs, refs := job.listens?.toList ++ hand.refs } listeners
      host.sockTbl host.connections host.overlaps (host.pending.erase ov) host.refs
      host.objects := by
    refine ok.listens.map fun leaked listens => ?_
    refine listens.transport (Nat.le_refl _) ?_
      (fun settled holds => ⟨settled, holds⟩) (fun settled holds => ⟨settled, holds⟩) ?_
      (fun _ _ apart => apart) (fun member runs => .inl ⟨List.mem_of_mem_erase member, runs⟩)
    · intro listener _
      simp only [← waiting_erase outstanding.1, outstanding.2, Option.bind_some, List.count_append]
      cases job.listens? with
      | none => simp
      | some listen =>
          simp only [Option.some.injEq, Option.toList_some, List.count_singleton, beq_iff_eq]
          omega
    · intro listener member
      dsimp only at member ⊢
      rw [List.append_assoc] at member
      rcases List.mem_append.mp member with new | old
      · exact .inr ((listens.jobs ov outstanding.1 job outstanding.2).1 listener
          (Option.mem_toList.mp new))
      · exact .inl old
  have awaited : ∀ {arena}, Host.Awaits { host with pending := host.pending.erase ov } arena →
      arena < host.arenas := by
    rintro arena ⟨ov', member, rest⟩
    exact ok.awaited ⟨ov', List.mem_of_mem_erase member, rest⟩
  exact
    { ok with
      slots := { ok.slots with }
      jobs, regions, registers, listens, awaited
      log := { ok.log with }
      overlaps := { ok.overlaps.unpend outstanding.1 with } }

end Overlaps

end HostOk

end Hermes
