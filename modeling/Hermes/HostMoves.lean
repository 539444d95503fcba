import Hermes.HostScope

/-!
# The code below the operations in a scope

Each function of the tables, the overlapped objects, the regions and the terminals is
gone through once, for any scope that allows for what the function does.
-/

namespace Hermes

open Program

variable {queue : CircularQue ℕ} {config : HostConfig}

namespace Host

/-- From a state the code stays in its scope. -/
abbrev InScopeAt {Result : Type} (config : HostConfig) (scope : Scope) (host : Host queue)
    (code : Code queue Result) : Prop :=
  AdvancesAt (Moves config scope) scope.Fault host code

/-- The code stays in its scope. -/
abbrev InScope {Result : Type} (config : HostConfig) (scope : Scope) (code : Code queue Result) :
    Prop :=
  Advances (Moves config scope) scope.Fault code

variable {scope : Scope} {host : Host queue} {Result : Type} {id conId region arena ov : ℕ}
  {err : StatusCode} {hr : HRESULT} {replies : Replies} {change : Terminal → Terminal}

section Basics

theorem inScope_pure (result : Result) :
    InScope config scope (pure result : Code queue Result) :=
  advances_pure result

theorem inScope_blocked : InScope config scope (throw .blocked : Code queue Result) :=
  advances_throw (fault_of_ne (by simp))

theorem inScope_assert {text : String} (other : text ∉ poolChecks) :
    InScope config scope (throw (.abort (.assert text)) : Code queue Result) :=
  advances_throw (fault_assert other)

theorem inScope_fail (status : StatusCode) (text : String) :
    InScope config scope (fail status text : Code queue Result) :=
  advances_throw (fault_of_ne (by simp))

/-- Code that changes nothing any scope is about. -/
theorem inScope_modify {change : Host queue → Host queue}
    (tables : ∀ host, (change host).tables = host.tables)
    (asyncState : ∀ host, (change host).asyncState = host.asyncState)
    (objects : ∀ host, host.objects ≤ (change host).objects)
    (notified : ∀ host, host.notified <+: (change host).notified) :
    InScope config scope (modify change : Code queue PUnit) :=
  advances_modify fun host => .of_same (tables host) (asyncState host) (objects host)
    (notified host)

/-- Code that only works on overlapped objects, arenas and registrations. -/
theorem inScope_modifyAsync (asyncs : scope.asyncs) {change : Host queue → Host queue}
    (tables : ∀ host, (change host).tables = host.tables)
    (events : ∀ host, host.events <+: (change host).events)
    (notified : ∀ host, (change host).notified = host.notified) :
    InScope config scope (modify change : Code queue PUnit) :=
  advances_modify fun host => .of_tables asyncs (tables host) (events host) (notified host)

theorem inScope_audit {condition : Prop} [Decidable condition] {text : String}
    (other : text ∉ poolChecks) : InScope config scope (audit condition text : Code queue PUnit) :=
  advances_ite (inScope_pure _) (inScope_assert other)

theorem inScope_derefPtr {Object : Type} (pointer : Option Object) (text : String) :
    InScope config scope (derefPtr pointer text : Code queue Object) := by
  cases pointer
  · exact advances_throw (fault_of_ne (by simp))
  · exact inScope_pure _

theorem inScope_modifyTerminal (inScope : scope.terms conId)
    (later : scope.lives → ∀ terminal, Terminal.Later config terminal (change terminal))
    (regions : ∀ terminal, (change terminal).regions = terminal.regions) :
    InScope config scope (modifyTerminal conId change : Code queue PUnit) :=
  advances_modify fun _ =>
    .setTerminal (.inl inScope) (fun lives => later lives _) fun _ => regions _

theorem inScope_createObject : InScope config scope (createObject : Code queue ℕ) := by
  apply advances_get
  intro host
  exact .step rfl (.of_eq rfl (Moves.of_same rfl rfl (Nat.le_succ _) List.prefix_rfl))

theorem inScope_addRef (object : ℕ) :
    InScope config scope (addRef object : Code queue PUnit) :=
  inScope_modify (fun _ => rfl) (fun _ => rfl) (fun _ => le_rfl) fun _ => List.prefix_rfl

theorem inScope_release (object : ℕ) :
    InScope config scope (release object : Code queue PUnit) :=
  inScope_modify (fun _ => rfl) (fun _ => rfl) (fun _ => le_rfl) fun _ => List.prefix_rfl

theorem inScope_releasePtr (pointer : Option ℕ) :
    InScope config scope (releasePtr pointer : Code queue PUnit) :=
  (inScope_derefPtr _ _).bind fun object => inScope_release object

theorem inScope_releaseAny (pointer : Option ℕ) :
    InScope config scope (releaseAny pointer : Code queue PUnit) := by
  cases pointer
  · exact inScope_pure _
  · exact inScope_release _

theorem inScope_post (continuation : ℕ) (err : StatusCode) :
    InScope config scope (post continuation err : Code queue PUnit) :=
  inScope_modify (fun _ => rfl) (fun _ => rfl) (fun _ => le_rfl) fun _ => List.prefix_rfl

theorem inScope_deliver (handle : UInt64) :
    InScope config scope (deliver handle : Code queue PUnit) :=
  inScope_modify (fun _ => rfl) (fun _ => rfl) (fun _ => le_rfl) fun _ => List.prefix_rfl

theorem inScope_notify (notifier : ConnectionNotifier) (handle : UInt64) (status : StatusCode) :
    InScope config scope (notify notifier handle status : Code queue PUnit) := by
  refine Advances.bind ?_ fun _ => inScope_deliver handle
  exact inScope_modify (fun _ => rfl) (fun _ => rfl) (fun _ => le_rfl)
    fun _ => List.prefix_append _ _

theorem inScope_notifyAny (pointer : Option ConnectionNotifier) (handle : UInt64)
    (notices : List StatusCode) :
    InScope config scope (notifyAny pointer handle notices : Code queue PUnit) := by
  cases pointer with
  | none => exact inScope_pure _
  | some notifier =>
      rw [notifyAny]
      induction notices with
      | nil => exact inScope_pure _
      | cons err rest ih => exact (inScope_notify notifier handle err).bind fun _ => ih

theorem inScope_getTerminal (conId : ℕ) :
    InScope config scope (getTerminal config conId : Code queue Terminal) :=
  (inScope_audit (by simp [poolChecks])).bind fun _ => advances_get fun _ => inScope_pure _ _

theorem inScope_subspan (span : Span) (offset count : ℕ) :
    InScope config scope (subspan span offset count : Code queue Span) := by
  unfold subspan Span.subspan
  by_cases inside : offset + count ≤ span.size
  · rw [if_pos inside]
    exact inScope_pure _
  · rw [if_neg inside]
    exact advances_throw (fault_of_ne (by simp))

theorem inScope_getBufPair (conId : ℕ) :
    InScope config scope (getBufPair config conId : Code queue Span) :=
  (inScope_audit (by simp [poolChecks])).bind fun _ => advances_get fun _ =>
    inScope_subspan _ _ _ _

theorem inScope_getRcvBuf (conId : ℕ) :
    InScope config scope (getRcvBuf config conId : Code queue Span) :=
  (inScope_audit (by simp [poolChecks])).bind fun _ => advances_get fun _ =>
    inScope_subspan _ _ _ _

end Basics

section Overlaps

variable {job : AsyncJob} {pReceiver : Option ℕ} {event : ArenaEvent}
  {registration : Registration} {handler : Code queue PUnit} (asyncs : scope.asyncs)
include asyncs

theorem inScope_record :
    InScope config scope (record event : Code queue PUnit) :=
  inScope_modifyAsync asyncs (fun _ => rfl) (fun _ => List.prefix_append _ _) fun _ => rfl

theorem inScope_register :
    InScope config scope (register region registration : Code queue PUnit) :=
  inScope_modifyAsync asyncs (fun _ => rfl) (fun _ => List.prefix_rfl) fun _ => rfl

theorem inScope_getNewArena : InScope config scope (getNewArena : Code queue ℕ) := by
  apply advances_get
  intro host
  exact .step rfl (.of_eq rfl (Moves.of_tables asyncs rfl List.prefix_rfl rfl))

theorem inScope_retire :
    InScope config scope (retire arena : Code queue PUnit) :=
  inScope_modifyAsync asyncs (fun _ => rfl) (fun _ => List.prefix_append _ _) fun _ => rfl

theorem inScope_getObj :
    InScope config scope (getObj job arena pReceiver : Code queue ℕ) := by
  apply advances_get
  intro host
  cases taken : queue.get host.overlapPool with
  | none => exact advances_throw (.inl asyncs) host
  | some pair =>
      refine .step rfl (ensures_audit (fun _ => .inl asyncs) fun _ => ?_)
      refine .step rfl (.step rfl (.of_eq rfl (Moves.of_tables asyncs rfl ?_ rfl)))
      exact List.prefix_append _ _

theorem inScope_freeObj : InScope config scope (freeObj ov : Code queue PUnit) := by
  apply advances_get
  intro host
  refine ensures_audit (fun _ => .inl asyncs) fun _ => .step rfl ?_
  cases queue.add host.overlapPool ov with
  | none => exact .inl asyncs
  | some overlapPool =>
      refine .step rfl (.of_eq rfl (Moves.of_tables asyncs rfl ?_ rfl))
      exact List.prefix_append _ _

theorem inScope_pend : InScope config scope (pend ov : Code queue PUnit) :=
  inScope_modifyAsync asyncs (fun _ => rfl) (fun _ => List.prefix_rfl) fun _ => rfl

theorem inScope_unpend : InScope config scope (unpend ov : Code queue PUnit) := by
  apply advances_get
  intro host
  split
  · exact .of_eq rfl (Moves.of_tables asyncs rfl List.prefix_rfl rfl)
  · exact inScope_blocked host

theorem inScope_finishCall (handles : InScope config scope handler) :
    InScope config scope (finishCall ov hr handler) := by
  apply advances_ite
  · refine (inScope_record asyncs).bind fun _ => handles.bind fun _ => ?_
    exact inScope_freeObj asyncs
  · exact inScope_pend asyncs

end Overlaps

section Regions

variable {waiting : Code queue PUnit} {completions : List (ℕ × HRESULT)}
  (asyncs : scope.asyncs)
include asyncs

/-- A terminal with a tag region does not get another one. -/
theorem inScope_onTagRegistered :
    InScope config scope (onTagRegistered conId region hr : Code queue PUnit) := by
  apply advances_ite (inScope_fail _ _)
  refine advances_get fun host => ensures_audit (fun _ => .inl asyncs) fun untagged => ?_
  refine .of_eq rfl (Moves.setTerminal (.inr (.inl untagged)) (fun _ => ?_) (absurd asyncs))
  exact ⟨fun _ tag => absurd tag (by simp [untagged]), fun _ mem => mem,
    rfl, fun unused => { unused with }, id⟩

theorem inScope_onMemRegistered (waits : InScope config scope waiting) :
    InScope config scope (onMemRegistered conId region arena hr waiting) := by
  apply advances_ite (inScope_fail _ _)
  refine waits.bind fun _ => advances_get fun host => ?_
  split
  · exact inScope_blocked host
  refine ensures_audit (fun _ => .inl asyncs) fun unset => ?_
  have recorded : InScopeAt config scope host (modifyTerminal conId fun term =>
      { term with pMemRegion := some region }) := by
    refine .of_eq rfl (Moves.setTerminal (.inr (.inr unset)) (fun _ => ?_) (absurd asyncs))
    exact ⟨fun _ tag => tag, fun _ mem => absurd mem (by simp [unset]),
      rfl, fun unused => { unused with }, id⟩
  exact recorded.bind fun _ after _ => inScope_retire asyncs after

theorem inScope_completeRegistration :
    InScope config scope (completeRegistration ov hr : Code queue PUnit) := by
  refine (inScope_unpend asyncs).bind fun _ => ?_
  refine (inScope_audit (by simp [poolChecks])).bind fun _ => ?_
  refine (inScope_record asyncs).bind fun _ => advances_get fun host => ?_
  have freed : ∀ {code : Code queue PUnit}, InScope config scope code →
      InScopeAt config scope host (code >>= fun _ => freeObj ov) :=
    fun inScope => (inScope.bind fun _ => inScope_freeObj asyncs) host
  dsimp only
  split
  · exact freed (inScope_onTagRegistered asyncs)
  · exact freed (inScope_onMemRegistered asyncs (inScope_pure _))
  · exact freed inScope_blocked

theorem inScope_completeRegistrations :
    InScope config scope (completeRegistrations completions : Code queue PUnit) := by
  induction completions with
  | nil => exact inScope_pure _
  | cons completion rest ih =>
      exact (inScope_completeRegistration asyncs).bind fun _ => ih

theorem inScope_createMemRegions :
    InScope config scope (createMemRegions config conId replies : Code queue PUnit) := by
  refine (inScope_getTerminal _).bind fun pTerm => ?_
  apply advances_ite (inScope_audit (by simp [poolChecks]))
  refine (inScope_getBufPair _).bind fun _ => ?_
  refine (inScope_getNewArena asyncs).bind fun arena => ?_
  apply advances_ite (inScope_fail _ _)
  refine inScope_createObject.bind fun tagRegion => ?_
  refine (inScope_getObj asyncs).bind fun tagOv => advances_get fun host => ?_
  refine ((inScope_register asyncs).bind fun _ => ?_) host
  refine (inScope_finishCall asyncs (inScope_onTagRegistered asyncs)).bind fun _ => ?_
  apply advances_ite (inScope_fail _ _)
  refine inScope_createObject.bind fun memRegion => ?_
  refine (inScope_getObj asyncs).bind fun memOv => ?_
  refine (inScope_register asyncs).bind fun _ => inScope_finishCall asyncs ?_
  exact inScope_onMemRegistered asyncs (inScope_completeRegistrations asyncs)

end Regions

section Terminals

theorem inScope_initQues (inScope : scope.terms conId) :
    InScope config scope (initQues config conId replies : Code queue StatusCode) := by
  have stores : ∀ change : Terminal → Terminal,
      (∀ terminal, (change terminal).traffic = terminal.traffic) →
      (∀ terminal, (change terminal).regions = terminal.regions) →
        InScope config scope (modifyTerminal conId change : Code queue PUnit) :=
    fun _ same regions =>
      inScope_modifyTerminal inScope (fun _ terminal => .of_traffic (same terminal)) regions
  have connects : InScope config scope
      (initQues.createConnector conId replies : Code queue StatusCode) := by
    apply advances_ite (inScope_pure _)
    refine inScope_createObject.bind fun connector => ?_
    exact Advances.bind (stores _ (fun _ => rfl) fun _ => rfl) fun _ => inScope_pure _
  apply advances_ite
  · apply advances_ite (inScope_pure _)
    refine inScope_createObject.bind fun quePair => inScope_createObject.bind fun cq => ?_
    exact Advances.bind (stores _ (fun _ => rfl) fun _ => rfl) fun _ => connects
  · apply advances_ite (inScope_pure _)
    refine inScope_createObject.bind fun cq => ?_
    refine Advances.bind (stores _ (fun _ => rfl) fun _ => rfl) fun _ => ?_
    apply advances_ite (inScope_pure _)
    refine inScope_createObject.bind fun quePair => ?_
    exact Advances.bind (stores _ (fun _ => rfl) fun _ => rfl) fun _ => connects

theorem inScope_prepare (inScope : scope.terms conId) :
    InScope config scope (prepare config conId replies : Code queue StatusCode) := by
  refine advances_get fun host => ?_
  refine ((inScope_audit (by simp [poolChecks])).bind fun _ => ?_) host
  refine Advances.bind (inScope_modifyTerminal inScope (fun _ terminal => ?_) fun _ => rfl)
    fun _ => inScope_initQues inScope
  exact ⟨fun _ tag => tag, fun _ mem => mem, rfl,
    fun unused => ⟨unused.indices, unused.receiving, .inr rfl, .inr rfl⟩, id⟩

theorem inScope_cleanup (inScope : scope.terms conId) :
    InScope config scope (cleanup conId : Code queue PUnit) := by
  apply advances_get
  intro host
  have voids : InScope config scope
      (modifyTerminal conId Terminal.voidFlds : Code queue PUnit) :=
    inScope_modifyTerminal inScope (fun _ => Terminal.later_voidFlds) fun _ => rfl
  dsimp only
  split
  · refine ((inScope_release _).bind fun _ => ?_) host
    refine (inScope_releasePtr _).bind fun _ => ?_
    exact (inScope_releasePtr _).bind fun _ => voids
  · exact voids host

theorem inScope_freeTerminal (inScope : scope.terms id) :
    InScope config scope (freeTerminal config id : Code queue PUnit) := by
  refine (inScope_getTerminal id).bind fun pTerm => ?_
  refine (inScope_audit (by simp [poolChecks])).bind fun _ => ?_
  refine (inScope_cleanup inScope).bind fun _ => advances_get fun host => ?_
  cases added : queue.add host.connPool id with
  | none => exact inScope_assert (by simp [poolChecks]) host
  | some connPool =>
      refine .of_eq rfl (Moves.setConnPool fun conId member => ?_)
      rw [(queue.items_of_add added).1] at member
      rcases List.mem_append.mp member with old | new
      · exact .inl old
      · rw [List.mem_singleton.mp new]
        exact .inr inScope

/-- The terminal allocated is in scope when those of the pool are. -/
theorem inScope_allocTerminal {parent : UInt64} (asyncs : scope.asyncs)
    (invalid : scope.terms invalidTermId)
    (pool : ∀ conId ∈ queue.items host.connPool, scope.terms conId) :
    Ensures (allocTerminal config parent replies)
      (fun result after => Moves config scope host after ∧ scope.terms result.2)
      scope.Fault host := by
  refine .step apply_get ?_
  cases taken : queue.get host.connPool with
  | none => exact .inl asyncs
  | some pair =>
      have items := (queue.items_of_get taken).1
      have inScope : scope.terms pair.1 := by
        apply pool
        simp [items]
      have took : Moves config scope host { host with connPool := pair.2 } := by
        refine .setConnPool fun conId member => .inl ?_
        simp [items, member]
      refine .step rfl ?_
      refine Ensures.bind (AdvancesAt.after (inScope_getTerminal _ _) took) fun ptr _ moved => ?_
      refine Ensures.bind (AdvancesAt.after (inScope_audit (by simp [poolChecks]) _) moved)
        fun _ _ moved => ?_
      refine Ensures.bind (AdvancesAt.after (inScope_prepare inScope _) moved)
        fun err _ moved => ?_
      split
      · have sets : InScope config scope (modifyTerminal pair.1 fun term =>
            { term with sndEnd := { term.sndEnd with
                trailingEdge := UInt64.ofNat config.bufSize } } : Code queue PUnit) := by
          refine inScope_modifyTerminal inScope (fun _ terminal => ?_) fun _ => rfl
          refine ⟨fun _ tag => tag, fun _ mem => mem, rfl, ?_, id⟩
          rintro ⟨indices, receiving, sndEnd | sndEnd, rcvEnd⟩
          all_goals exact ⟨indices, receiving, .inr (by simp [sndEnd]), rcvEnd⟩
        refine Ensures.bind (AdvancesAt.after (sets _) moved) fun _ _ moved => ?_
        refine Ensures.bind (AdvancesAt.after (inScope_freeTerminal inScope _) moved)
          fun _ _ moved => ?_
        exact ⟨moved, invalid⟩
      · refine Ensures.bind (AdvancesAt.after (inScope_createMemRegions asyncs _) moved)
          fun _ _ moved => ?_
        have sets : InScope config scope (modifyTerminal pair.1 fun term =>
            { term with handle := parent } : Code queue PUnit) :=
          inScope_modifyTerminal inScope (fun _ _ => .of_traffic rfl) fun _ => rfl
        refine Ensures.bind (AdvancesAt.after (sets _) moved) fun _ _ moved => ?_
        exact ⟨moved, inScope⟩

theorem inScope_startTerminal {handShake : HandShake} (asyncs : scope.asyncs)
    (inScope : scope.terms conId) :
    InScope config scope (startTerminal config conId handShake replies : Code queue PUnit) := by
  refine (inScope_getTerminal conId).bind fun _ host => ?_
  have begun : Moves config scope host
      { host with
        arenas := host.arenas + 1
        connections := Function.update host.connections conId
          (Terminal.begun (host.connections conId) handShake host.arenas) } := by
    have started : Moves config scope host
        { host with
          connections := Function.update host.connections conId
            (Terminal.begun (host.connections conId) handShake host.arenas) } := by
      refine .setTerminal (.inl inScope) (fun _ => ?_) fun _ => rfl
      exact ⟨fun _ tag => tag, fun _ mem => mem, rfl, fun unused => { unused with },
        fun _ _ => ⟨rfl, rfl⟩⟩
    refine trans_of _ started ?_
    exact .of_tables asyncs rfl List.prefix_rfl rfl
  refine .step rfl (.step rfl (.step rfl (.step rfl ?_)))
  simp only [Function.update_self, Function.update_idem]
  refine AdvancesAt.after ?_ begun
  refine ((inScope_getObj asyncs).bind fun ov => ?_) _
  exact (inScope_audit (by simp [poolChecks])).bind fun _ => inScope_pend asyncs

theorem inScope_setNotifiers {connectCallback rcvCallback : ℕ} (inScope : scope.terms conId) :
    InScope config scope
      (setNotifiers conId connectCallback rcvCallback : Code queue PUnit) := by
  apply advances_get
  intro host
  have called : Moves config scope host { host with calls := host.calls + 1 } :=
    .of_same rfl rfl le_rfl List.prefix_rfl
  have sets : InScope config scope (modifyTerminal conId fun term =>
      { term with
        pConnFunc := some ⟨connectCallback, host.calls⟩, pRcvFunc := some rcvCallback } :
          Code queue PUnit) :=
    inScope_modifyTerminal inScope (fun _ _ => .of_traffic rfl) fun _ => rfl
  exact AdvancesAt.bind (Ensures.of_eq rfl called) fun _ after _ => sets after

theorem inScope_prepareHandShakeData (asyncs : scope.asyncs) (discloses : scope.discloses) :
    InScope config scope
      (prepareHandShakeData config conId replies : Code queue HandShake) := by
  refine (inScope_getTerminal _).bind fun pTerm => (inScope_getRcvBuf _).bind fun rcvBuf => ?_
  refine (inScope_completeRegistrations asyncs).bind fun _ => advances_get fun host => ?_
  split
  · exact .step rfl (.of_eq rfl (Moves.disclose asyncs discloses _))
  · exact inScope_blocked host

theorem inScope_onDisconNotified (termId : ℕ) :
    InScope config scope (onDisconNotified termId : Code queue PUnit) :=
  advances_get fun host =>
    ((inScope_derefPtr _ _).bind fun continuation => inScope_post continuation _) host

theorem inScope_onConnAcceptedFinal (asyncs : scope.asyncs) :
    InScope config scope
      (onConnAcceptedFinal config id err arena : Code queue PUnit) := by
  apply advances_ite
  · refine advances_get fun host => ((inScope_getTerminal _).bind fun pTerm => ?_) host
    refine (inScope_audit (by simp [poolChecks])).bind fun _ => ?_
    refine (inScope_derefPtr _ _).bind fun continuation => ?_
    exact (inScope_post _ _).bind fun _ => inScope_retire asyncs
  · exact inScope_retire asyncs

end Terminals

end Host

end Hermes
