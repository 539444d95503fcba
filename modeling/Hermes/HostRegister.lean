import Hermes.HostSpec

/-!
# Registering the regions of a terminal

What `CreateMemRegions` does: the two registrations it starts are outstanding
afterwards or have completed, and nothing else about the tables changes.
-/

namespace Hermes

open Program

variable {queue : CircularQue ℕ} {config : HostConfig} {mode : Mode} {listeners : List ℕ}
  {hand : Hand} {host : Host queue} {id conId ov region : ℕ} {job : AsyncJob} {arena : ℕ}
  {replies : Replies}

namespace Host

section Calm

variable {before : Host queue}

theorem Calm.newArena (calm : Calm before host) :
    Calm before { host with arenas := host.arenas + 1 } :=
  { calm with arenas := Nat.le_succ_of_le calm.arenas }

theorem Calm.makeObject (calm : Calm before host) :
    Calm before
      { host with
        objects := host.objects + 1
        refs := Function.update host.refs host.objects 1 } := by
  have refs : ∀ object < before.objects,
      Function.update host.refs host.objects 1 object = before.refs object := by
    intro object low
    have other : object ≠ host.objects := Nat.ne_of_lt (Nat.lt_of_lt_of_le low calm.objects)
    rw [Function.update_of_ne other, calm.refs object low]
  exact { calm with objects := Nat.le_succ_of_le calm.objects, refs }

/-- Overlapped objects that are not with the provider change. -/
theorem Calm.setOverlaps (calm : Calm before host) {overlaps : ℕ → HOverlap}
    {overlapPool : queue.Que} {registered : List (ℕ × Registration)} {events : List ArenaEvent}
    (same : ∀ ov ∈ host.pending, overlaps ov = host.overlaps ov) :
    Calm before { host with overlapPool, overlaps, registered, events } := by
  have samePends : ∀ {ov job}, Host.Pends { host with overlapPool, overlaps } ov job ↔
      host.Pends ov job := by
    intro ov job
    refine and_congr_right fun member => ?_
    change (overlaps ov).job? = some job ↔ _
    rw [same ov member]
  refine
    { calm with
      pends := fun other => samePends.trans (calm.pends other)
      registers := fun outstanding registers => calm.registers (samePends.mp outstanding) registers
      awaits := ?_ }
  rintro arena ⟨ov, member, job, runs, registers⟩
  exact calm.awaits ⟨ov, member, job, same ov member ▸ runs, registers⟩

theorem Took.calm {after : Host queue} (took : Took host after) (calm : Calm before host) :
    Calm before after := by
  rw [took.same]
  exact calm.setOverlaps took.kept

/-- A new registration is outstanding. -/
theorem Calm.pend (calm : Calm before host) {pReceiver : Option ℕ}
    (next : host.overlaps ov = ⟨pReceiver, some (job, arena)⟩)
    (registers : job.region? = some region) (new : before.objects ≤ region)
    (newArena : before.arenas ≤ arena) :
    Calm before { host with pending := host.pending ++ [ov] } := by
  have cases : ∀ {ov' job'}, Host.Pends { host with pending := host.pending ++ [ov] } ov' job' →
      host.Pends ov' job' ∨ job' = job := by
    rintro ov' job' ⟨member, runs⟩
    rcases List.mem_append.mp member with old | last
    · exact .inl ⟨old, runs⟩
    · rw [List.mem_singleton.mp last] at runs
      right
      change (host.overlaps ov).job? = some job' at runs
      rw [next] at runs
      exact (Option.some.inj runs).symm
  refine { calm with pends := ?_, registers := ?_, awaits := ?_ }
  · intro ov' job' other
    rw [← calm.pends other]
    refine ⟨fun outstanding => (cases outstanding).resolve_right ?_,
      fun outstanding => ⟨List.mem_append_left _ outstanding.1, outstanding.2⟩⟩
    intro same
    rw [same, registers] at other
    cases other
  · intro ov' job' region' outstanding registers'
    rcases cases outstanding with old | same
    · exact calm.registers old registers'
    · rw [same, registers] at registers'
      cases registers'
      exact .inr new
  · rintro arena' ⟨ov', member, job', runs, registers'⟩
    rcases List.mem_append.mp member with old | last
    · exact calm.awaits ⟨ov', old, job', runs, registers'⟩
    · rw [List.mem_singleton.mp last] at runs
      change (host.overlaps ov).pNext = some (job', arena') at runs
      rw [next] at runs
      cases runs
      exact .inr newArena

/-- A terminal records a new region. -/
theorem Calm.record (calm : Calm before host) {terminal : Terminal}
    (noRegions : terminal.noRegions = (host.connections conId).noRegions)
    (records : ∀ {region'}, terminal.Records region' →
      (host.connections conId).Records region' ∨ region' = region)
    (mem : (host.connections conId).pMemRegion ≠ none → terminal.pMemRegion ≠ none)
    (new : before.objects ≤ region) :
    Calm before
      { host with connections := Function.update host.connections conId terminal } := by
  refine { calm with noRegions := ?_, mem := ?_, records := ?_ }
  · intro conId'
    rw [← calm.noRegions conId']
    by_cases same : conId' = conId
    · rw [same]
      exact (congrArg Terminal.noRegions (Function.update_self _ _ _)).trans noRegions
    · exact congrArg Terminal.noRegions (Function.update_of_ne same _ _)
  · intro conId' some
    have before := calm.mem conId' some
    change (Function.update host.connections conId terminal conId').pMemRegion ≠ none
    by_cases same : conId' = conId
    · rw [same] at before ⊢
      rw [Function.update_self]
      exact mem before
    · rwa [Function.update_of_ne same]
  · intro conId' region' records'
    change (Function.update host.connections conId terminal conId').Records region' at records'
    by_cases same : conId' = conId
    · rw [same, Function.update_self] at records'
      rw [same]
      rcases records records' with old | equal
      · exact calm.records old
      · exact .inr (.inr (equal ▸ new))
    · rw [Function.update_of_ne same] at records'
      exact calm.records records'

theorem Calm.retire (calm : Calm before host) (new : before.arenas ≤ arena) :
    Calm before
      { host with
        retired := host.retired ++ [arena], events := host.events ++ [.retired arena] } := by
  rcases calm.retired with ⟨more, same, from'⟩
  refine { calm with retired := ⟨more ++ [arena], ?_, ?_⟩ }
  · rw [same, List.append_assoc]
  · intro arena' member
    rcases List.mem_append.mp member with old | last
    · exact from' arena' old
    · rw [List.mem_singleton.mp last]
      exact .inr new

end Calm

section CreateMemRegions

/-- The object made next is a fresh region. -/
theorem fresh_makeObject (ok : HostOk config mode listeners hand host) :
    FreshRegion config mode listeners
      { host with
        objects := host.objects + 1
        refs := Function.update host.refs host.objects 1 } host.objects ∧
      ∀ {ov job}, host.Pends ov job → job.region? ≠ some host.objects := by
  refine ⟨⟨Nat.lt_succ_self _, ?_, ?_, ?_⟩, ?_⟩
  · intro member
    exact Nat.lt_irrefl _ (ok.regions.disclosedLt _ member)
  · intro conId inRange records
    exact Nat.lt_irrefl _ (ok.regions.recorded inRange records)
  · exact fun member => Nat.lt_irrefl _ (ok.listens.madeBefore member)
  · intro ov job outstanding registers
    exact Nat.lt_irrefl _ (ok.regions.outstanding outstanding registers).1

theorem ensures_finishCall {post : PUnit → Host queue → Prop} {fault : Stop → Prop}
    {handler : Code queue PUnit} {hr : HRESULT}
    (inline : hr ≠ ndPending → Ensures (handler >>= fun _ => freeObj ov) post fault
      { host with events := host.events ++ [.ran ov] })
    (pending : hr = ndPending → post ⟨⟩ { host with pending := host.pending ++ [ov] }) :
    Ensures (finishCall ov hr handler) post fault host := by
  unfold finishCall
  by_cases done : hr ≠ ndPending
  · rw [if_pos done]
    exact .step rfl (inline done)
  · rw [if_neg done]
    exact .of_eq rfl (pending (not_not.mp done))

theorem Took.ran {taken : Host queue} (took : Took host taken) :
    Took host { taken with events := taken.events ++ [.ran ov] } where
  same := by rw [took.same]
  kept := took.kept

theorem Took.register {taken : Host queue} (took : Took host taken)
    (registered : List (ℕ × Registration)) : Took host { taken with registered } where
  same := by rw [took.same]
  kept := took.kept

/-- The call that an overlapped object was taken for ends, or is pending. -/
theorem ensures_call {post : PUnit → Host queue → Prop} {fault : Stop → Prop}
    {handler : Code queue PUnit} {hr : HRESULT} {overlap : HOverlap} {taken : Host queue}
    (took : Took host taken) (next : taken.overlaps ov = overlap)
    (ok : HostOk config mode listeners hand taken)
    (continues : ∀ now : Host queue, Took host now → now.overlaps ov = overlap →
      HostOk config mode listeners hand now →
        (hr ≠ ndPending → Ensures (handler >>= fun _ => freeObj ov) post fault now) ∧
        (hr = ndPending → post ⟨⟩ { now with pending := now.pending ++ [ov] })) :
    Ensures (finishCall ov hr handler) post fault taken :=
  ensures_finishCall (continues _ took.ran next (ok.events _)).1 (continues _ took next ok).2

/-- The registration of a terminal's tag region is under way, or done. -/
structure TagBegun (config : HostConfig) (mode : Mode) (listeners : List ℕ) (hand : Hand)
    (conId arena : ℕ) (first before after : Host queue) : Prop where
  ok : HostOk config mode listeners hand after
  calm : Calm first after
  tagged : (after.connections conId).pTagRegion ≠ none ∨
    ∃ ov region, after.Pends ov (.onTagRegistered conId region)
  mems : ∀ {ov region}, after.Pends ov (.onMemRegistered conId region) →
    before.Pends ov (.onMemRegistered conId region)
  mem : (after.connections conId).pMemRegion = (before.connections conId).pMemRegion
  arena : arena < after.arenas

theorem Took.fresh {before after : Host queue} (took : Took before after)
    (fresh : FreshRegion config mode listeners before region) :
    FreshRegion config mode listeners after region where
  low := by rw [took.objects]; exact fresh.low
  hidden := by rw [took.disclosed]; exact fresh.hidden
  unrecorded := by rw [took.connections]; exact fresh.unrecorded
  apart := fresh.apart

theorem registerTag_ensures {first : Host queue} (hr : HRESULT)
    (ok : HostOk config mode listeners hand host) (calm : Calm first host)
    (making : hand.making = some conId) (inRange : config.TermId conId)
    (few : hand.ovs.length ≤ 7) (low : arena < host.arenas) (new : first.arenas ≤ arena)
    (noTag : mode.strict = true → ∀ {ov region}, ¬host.Pends ov (.onTagRegistered conId region))
    (untagged : mode.strict = true → (host.connections conId).pTagRegion = none) :
    Ensures (do
      let tagRegion ← createObject
      let tagOv ← getObj (.onTagRegistered conId tagRegion) arena (some tagRegion)
      let host ← get
      register tagRegion ⟨host.terminalSpan config conId, regionFlags⟩
      finishCall tagOv hr (onTagRegistered conId tagRegion hr))
      (fun _ after => TagBegun config mode listeners hand conId arena first host after)
      (mode.Tolerates config) host := by
  rcases fresh_makeObject ok with ⟨fresh, unregistered⟩
  refine .step rfl ((getObj_ensures ok.makeObject (by omega) _).bind ?_)
  intro ov taken ⟨took, next, takenOk⟩
  refine .step apply_get (.step rfl ?_)
  refine ensures_call (took.register _) next (takenOk.registered _) ?_
  clear took next takenOk
  intro taken took next takenOk
  have connections : taken.connections = host.connections := took.connections
  have arenas : taken.arenas = host.arenas := took.arenas
  have samePends : ∀ {ov' job'}, taken.Pends ov' job' ↔ host.Pends ov' job' := took.pends
  have calmNow := took.calm calm.makeObject
  have freshNow := took.fresh fresh
  refine ⟨?_, ?_⟩
  · intro _
    refine (onTagRegistered_ensures (by rwa [connections])).bind ?_
    rintro _ _ rfl
    have recorded := takenOk.recordTagNow making freshNow
      (fun outstanding => unregistered (samePends.mp outstanding))
      (fun strict _ _ outstanding => noTag strict (samePends.mp outstanding))
    refine (freeObj_ensures recorded rfl).mono ?_ fun _ stops => stops
    intro _ after ⟨took', _, done⟩
    have now : after.connections = Function.update taken.connections conId
        { taken.connections conId with pTagRegion := some host.objects } := took'.connections
    refine ⟨done, took'.calm (calmNow.record rfl HostOk.records_setTag (fun mem => mem)
      calm.objects), ?_, ?_, ?_, ?_⟩
    · rw [now, Function.update_self]
      exact .inl (by simp)
    · exact fun outstanding => samePends.mp (took'.pends.mp outstanding)
    · rw [now, Function.update_self, ← connections]
    · rw [took'.arenas]
      change arena < taken.arenas
      rwa [arenas]
  · intro _
    have runs : (taken.overlaps ov).job? = some (.onTagRegistered conId host.objects) := by
      rw [next]
      rfl
    refine ⟨takenOk.pend rfl runs ?_ ?_ ?_ ?_ ?_ rfl ?_, calmNow.pend next rfl calm.objects new,
      .inr ⟨ov, host.objects, List.mem_append_right _ List.mem_cons_self, runs⟩, ?_, ?_, ?_⟩
    · exact ⟨inRange, by rwa [connections]⟩
    · intro ov' job' outstanding keyed key
      cases strict : mode.strict with
      | false => simp [Mode.key, strict] at keyed
      | true =>
          rcases Mode.key_tag (key.trans (if_pos strict)) with ⟨_, region, runs'⟩
          rw [runs'] at outstanding
          exact noTag strict (samePends.mp outstanding)
    · intro region registers
      cases registers
      exact ⟨freshNow, fun outstanding => unregistered (samePends.mp outstanding)⟩
    · intro conId' region same
      cases same
      exact making
    · simp
    · intro arena' same _
      rw [next] at same
      cases same
      rwa [arenas]
    · intro ov' region' outstanding
      rcases (HostOk.pends_append runs).mp outstanding with old | ⟨_, new⟩
      · exact samePends.mp old
      · cases new
    · change (taken.connections conId).pMemRegion = _
      rw [connections]
    · change arena < taken.arenas
      rwa [arenas]

theorem registerMem_ensures {first : Host queue} {hr : HRESULT} {buf : Span}
    {completions : List (ℕ × HRESULT)}
    (ok : HostOk config mode listeners hand host) (calm : Calm first host)
    (making : hand.making = some conId) (inRange : config.TermId conId)
    (few : hand.ovs.length ≤ 7) (low : arena < host.arenas) (new : first.arenas ≤ arena)
    (noMem : mode.strict = true → ∀ {ov region}, ¬host.Pends ov (.onMemRegistered conId region))
    (unset : (host.connections conId).pMemRegion = none)
    (tagged : (host.connections conId).pTagRegion ≠ none ∨
      ∃ ov region, host.Pends ov (.onTagRegistered conId region)) :
    Ensures (do
      let memRegion ← createObject
      let memOv ← getObj (.onMemRegistered conId memRegion) arena (some memRegion)
      register memRegion ⟨buf, regionFlags⟩
      finishCall memOv hr
        (onMemRegistered conId memRegion arena hr (completeRegistrations completions)))
      (fun _ after => HostOk config mode listeners { hand with making := none } after ∧
        Calm first after)
      (mode.Tolerates config) host := by
  rcases fresh_makeObject ok with ⟨fresh, unregistered⟩
  refine .step rfl ((getObj_ensures ok.makeObject (by omega) _).bind ?_)
  intro ov taken ⟨took, next, takenOk⟩
  refine .step rfl ?_
  refine ensures_call (took.register _) next (takenOk.registered _) ?_
  clear took next takenOk
  intro taken took next takenOk
  have connections : taken.connections = host.connections := took.connections
  have arenas : taken.arenas = host.arenas := took.arenas
  have objects : taken.objects = host.objects + 1 := took.objects
  have samePends : ∀ {ov' job'}, taken.Pends ov' job' ↔ host.Pends ov' job' := took.pends
  have calmNow := took.calm calm.makeObject
  have freshNow := took.fresh fresh
  refine ⟨?_, ?_⟩
  · intro _
    refine (onMemRegistered_ensures (completeRegistrations_ensures completions takenOk) ?_).bind ?_
    · rintro after ⟨_, completes⟩ strict
      by_contra some
      rcases completes.memFrom some with before | ⟨ov', region', outstanding⟩
      · rw [connections] at before
        exact before unset
      · exact noMem strict (samePends.mp outstanding)
    · rintro _ _ ⟨after, ⟨afterOk, completes⟩, tagged', rfl⟩
      have unrecorded : ∀ conId', config.TermId conId' →
          ¬(after.connections conId').Records host.objects := by
        intro conId' inRange' records
        rcases completes.records records with old | ⟨ov', job', outstanding, registers⟩ | high
        · exact freshNow.unrecorded conId' inRange' old
        · exact unregistered (samePends.mp outstanding) registers
        · rw [objects] at high
          exact Nat.not_succ_le_self _ high
      have freshAfter : FreshRegion config mode listeners after host.objects :=
        ⟨by rw [completes.sameObjects]; exact freshNow.low,
          by rw [completes.disclosed]; exact freshNow.hidden, unrecorded, fresh.apart⟩
      have recorded := (afterOk.recordMemNow making freshAfter
        (fun outstanding => unregistered (samePends.mp (completes.fewer outstanding)))
        (fun strict _ _ outstanding => noMem strict (samePends.mp (completes.fewer outstanding)))
        tagged').retired arena
      have calmRecorded : Calm first { after with
          connections := Function.update after.connections conId
            { after.connections conId with pMemRegion := some host.objects } } :=
        (calmNow.trans completes.toCalm).record rfl HostOk.records_setMem (by simp)
          calm.objects
      have calmAfter := calmRecorded.retire new
      refine (freeObj_ensures recorded rfl).mono ?_ fun _ stops => stops
      intro _ last ⟨took', _, done⟩
      have now : last.connections = Function.update after.connections conId
          { after.connections conId with pMemRegion := some host.objects } := took'.connections
      have begun : (last.connections conId).pMemRegion ≠ none := by
        rw [now, Function.update_self]
        simp
      refine ⟨done.made making (fun _ _ => .inl begun) ?_ (fun _ _ _ => .inl begun),
        took'.calm calmAfter⟩
      intro strict ov' region' outstanding
      have untagged := (done.jobs.ready outstanding).2 strict
      rw [now, Function.update_self] at untagged
      exact absurd untagged tagged'
  · intro _
    have runs : (taken.overlaps ov).job? = some (.onMemRegistered conId host.objects) := by
      rw [next]
      rfl
    have pending : HostOk config mode listeners hand
        { taken with pending := taken.pending ++ [ov] } := by
      refine takenOk.pend rfl runs ?_ ?_ ?_ ?_ ?_ rfl ?_
      · exact ⟨inRange, fun _ => by rw [connections, unset]⟩
      · intro ov' job' outstanding keyed key
        cases strict : mode.strict with
        | false => simp [Mode.key, strict] at keyed
        | true =>
            rcases Mode.key_mem (key.trans (if_pos strict)) with ⟨_, region, runs'⟩
            rw [runs'] at outstanding
            exact noMem strict (samePends.mp outstanding)
      · intro region registers
        cases registers
        exact ⟨freshNow, fun outstanding => unregistered (samePends.mp outstanding)⟩
      · simp
      · intro conId' region same _ _
        cases same
        rw [connections]
        refine tagged.imp_right ?_
        rintro ⟨ov', region', outstanding⟩
        exact ⟨ov', region', samePends.mpr outstanding⟩
      · intro arena' same _
        rw [next] at same
        cases same
        rwa [arenas]
    have waits : ∃ ov' region', Host.Pends { taken with pending := taken.pending ++ [ov] } ov'
        (.onMemRegistered conId region') :=
      ⟨ov, host.objects, List.mem_append_right _ List.mem_cons_self, runs⟩
    exact ⟨pending.made making (fun _ _ => .inr waits) (fun _ _ _ _ => waits)
      (fun _ _ _ => .inr waits), calmNow.pend next rfl calm.objects new⟩

/-- `CreateMemRegions`, for a terminal without outstanding registrations. -/
theorem createMemRegions_ensures (ok : HostOk config mode listeners hand host)
    (inHand : hand.term = some conId) (making : hand.making = some conId)
    (few : hand.ovs.length ≤ 7)
    (idle : mode.strict = true → ∀ {ov job}, host.Pends ov job → job.registers? ≠ some conId)
    (neither : mode.strict = true → (host.connections conId).pMemRegion = none →
      (host.connections conId).pTagRegion = none) :
    Ensures (createMemRegions config conId replies)
      (fun _ after => HostOk config mode listeners { hand with making := none } after ∧
        Calm host after)
      (mode.Tolerates config) host := by
  have inRange := (ok.slots.termInHand conId inHand).1
  unfold createMemRegions
  refine ensures_getTerminal inRange ?_
  by_cases inherited : (host.connections conId).pMemRegion ≠ none
  · rw [if_pos inherited]
    refine .of_eq (audit_eq (ok.regions.both inRange inherited))
      ⟨ok.made making (fun _ _ => .inl inherited) ?_ (fun _ _ _ => .inl inherited), .refl host⟩
    exact fun strict _ _ outstanding => absurd rfl (idle strict outstanding)
  · rw [if_neg inherited]
    have unset := not_not.mp inherited
    refine .step (getBufPair_eq ok.rings inRange.1 inRange.2) (.step rfl ?_)
    by_cases noTag : replies.createTagRegion ≠ ndSuccess
    · rw [if_pos noTag]
      exact ensures_fail (by decide)
    · rw [if_neg noTag]
      have tag := registerTag_ensures replies.registerTag ok.newArena
        (Calm.refl host).newArena making
        inRange few (Nat.lt_succ_self host.arenas) (Nat.le_refl _)
        (fun strict _ _ outstanding => absurd rfl (idle strict outstanding))
        (fun strict => neither strict unset)
      refine ensures_bind.mpr ((ensures_bind.mp tag).mono ?_ fun _ stops => stops)
      intro tagRegion _ tag
      refine ensures_bind.mpr ((ensures_bind.mp tag).mono ?_ fun _ stops => stops)
      intro tagOv _ tag
      refine ensures_bind.mpr ((ensures_bind.mp tag).mono ?_ fun _ stops => stops)
      intro _ _ tag
      refine ensures_bind.mpr ((ensures_bind.mp tag).mono ?_ fun _ stops => stops)
      intro _ _ tag
      refine tag.bind ?_
      intro _ after begun
      by_cases noMem : replies.createMemRegion ≠ ndSuccess
      · rw [if_pos noMem]
        exact ensures_fail (by decide)
      · rw [if_neg noMem]
        exact registerMem_ensures begun.ok begun.calm making inRange few begun.arena
          (Nat.le_refl _)
          (fun strict _ _ outstanding => absurd rfl (idle strict (begun.mems outstanding)))
          (begun.mem.trans unset) begun.tagged

end CreateMemRegions

end Host

end Hermes
