import Hermes.HostRegister

/-!
# Terminals are set up and given back

What `InitQues`, `AllocTerminal`, `FreeTerminal`, `PrepareHandShakeData` and
`StartTerminal` do.
-/

namespace Hermes

open Program

variable {queue : CircularQue ℕ} {config : HostConfig} {mode : Mode} {listeners : List ℕ}
  {hand : Hand} {host : Host queue} {id conId ov region : ℕ} {job : AsyncJob} {arena : ℕ}
  {replies : Replies}

theorem Hand.emptied (hand : Hand) (term : hand.term = none) (making : hand.making = none) :
    { hand with term := none, making := none } = hand := by
  cases hand
  cases term
  cases making
  rfl

theorem Hand.made (hand : Hand) (making : hand.making = none) (conId : ℕ) :
    ({ hand with term := some conId, making := none } : Hand) =
      { hand with term := some conId } := by
  rw [← making]

/-- The provider makes all that `InitQues` asks for. -/
def Replies.makesQues (config : HostConfig) (replies : Replies) : Bool :=
  if config.quePairsPool then !failed replies.createObjects && replies.createConnector == hOk
  else !failed replies.createCompletionQueue && !failed replies.createQueuePair &&
    replies.createConnector == hOk

/-- The terminal's objects are old ones, or no listeners. -/
theorem Terminal.Apart.of_holds {terminal terminal' : Terminal} {objects : ℕ}
    (apart : terminal.Apart listeners objects)
    (holds : ∀ object, terminal'.Holds object → terminal.Holds object ∨
      object < objects ∧ object ∉ listeners) : terminal'.Apart listeners objects :=
  fun object holds' => (holds object holds').elim (apart object) fun other => other

theorem HostOk.new_notListener (ok : HostOk config mode listeners hand host) :
    host.objects ∉ listeners :=
  fun member => Nat.lt_irrefl _ (ok.listens.madeBefore member)

namespace Host

section Queues

/-- What `InitQues` has made and stored in a terminal that had none of the three objects. -/
structure Queued (config : HostConfig) (replies : Replies) (before : Host queue)
    (quePair cq connector : Option ℕ) (objects : ℕ) (refs : ℕ → ℕ) (err : StatusCode) : Prop where
  objects : before.objects ≤ objects
  refs : ∀ object < before.objects, refs object = before.refs object
  new : ∀ object, quePair = some object ∨ cq = some object ∨ connector = some object →
    before.objects ≤ object
  whole : connector ≠ none → quePair ≠ none ∧ cq ≠ none
  made : err = hOk → connector ≠ none
  answered : err = hOk ↔ replies.makesQues config = true

/-- The host after `InitQues` has stored what it made. -/
def stored (host : Host queue) (conId : ℕ) (quePair cq connector : Option ℕ) (objects : ℕ)
    (refs : ℕ → ℕ) : Host queue :=
  { host with
    objects
    refs
    connections := Function.update host.connections conId
      { host.connections conId with
        pQuePair := quePair
        pCQ := cq
        pConnector := connector } }

theorem failed_ne {hr : HRESULT} (bad : failed hr = true) : hr ≠ hOk := by
  rintro rfl
  cases bad

variable {quePair cq connector quePair' cq' connector' : Option ℕ} {objects : ℕ} {refs : ℕ → ℕ}

/-- A terminal that has no objects stores none. -/
theorem stored_none (unset : (host.connections conId).pQuePair = none ∧
    (host.connections conId).pCQ = none ∧ (host.connections conId).pConnector = none) :
    stored host conId none none none host.objects host.refs = host := by
  have same : ∀ terminal : Terminal, terminal.pQuePair = none → terminal.pCQ = none →
      terminal.pConnector = none →
        { terminal with pQuePair := none, pCQ := none, pConnector := none } = terminal := by
    intro terminal quePair cq connector
    cases terminal
    cases quePair
    cases cq
    cases connector
    rfl
  rw [stored, same _ unset.1 unset.2.1 unset.2.2, Function.update_eq_self]

/-- Other pointers are stored in the terminal. -/
theorem stored_update {terminal : Terminal}
    (same : terminal =
      { (stored host conId quePair cq connector objects refs).connections conId with
      pQuePair := quePair', pCQ := cq', pConnector := connector' }) :
    { stored host conId quePair cq connector objects refs with
      connections := Function.update
        (stored host conId quePair cq connector objects refs).connections conId terminal } =
      stored host conId quePair' cq' connector' objects refs := by
  rw [same]
  simp only [stored, Function.update_self, Function.update_idem]

/-- The library is in order with objects that are no listeners stored. -/
theorem stored_ok (ok : HostOk config mode listeners hand
      (stored host conId quePair cq connector objects refs))
    (inHand : hand.term = some conId)
    (pointers : ∀ object, quePair' = some object ∨ cq' = some object ∨ connector' = some object →
      quePair = some object ∨ cq = some object ∨ connector = some object ∨
        (object < objects ∧ object ∉ listeners)) :
    HostOk config mode listeners hand
      (stored host conId quePair' cq' connector' objects refs) := by
  have pointersOf : (stored host conId quePair cq connector objects refs).connections conId =
      { host.connections conId with
        pQuePair := quePair, pCQ := cq, pConnector := connector } := Function.update_self _ _ _
  rw [← stored_update rfl]
  refine ok.setTerminal inHand rfl rfl (fun _ func => func) (.of_same rfl) ?_
  apply (ok.listens.terminalApart (ok.slots.termInHand conId inHand).1).of_holds
  intro object holds
  have cases : quePair' = some object ∨ cq' = some object ∨ connector' = some object ∨
      ((stored host conId quePair cq connector objects refs).connections conId).Records object :=
    holds
  rw [Terminal.Holds, pointersOf]
  have old := pointers object
  rcases cases with new | new | new | records
  · rcases old (.inl new) with same | same | same | other
    · exact .inl (.inl same)
    · exact .inl (.inr (.inl same))
    · exact .inl (.inr (.inr (.inl same)))
    · exact .inr (other)
  · rcases old (.inr (.inl new)) with same | same | same | other
    · exact .inl (.inl same)
    · exact .inl (.inr (.inl same))
    · exact .inl (.inr (.inr (.inl same)))
    · exact .inr (other)
  · rcases old (.inr (.inr new)) with same | same | same | other
    · exact .inl (.inl same)
    · exact .inl (.inr (.inl same))
    · exact .inl (.inr (.inr (.inl same)))
    · exact .inr (other)
  · rw [pointersOf] at records
    exact .inl (.inr (.inr (.inr records)))

theorem createObject_stored :
    createObject (stored host conId quePair cq connector objects refs) =
      .ok (objects, stored host conId quePair cq connector (objects + 1)
        (Function.update refs objects 1)) :=
  rfl

theorem modifyTerminal_stored {change : Terminal → Terminal}
    (changes : ∀ terminal : Terminal,
      change { terminal with pQuePair := quePair, pCQ := cq, pConnector := connector } =
        { terminal with pQuePair := quePair', pCQ := cq', pConnector := connector' }) :
    modifyTerminal conId change (stored host conId quePair cq connector objects refs) =
      .ok (⟨⟩, stored host conId quePair' cq' connector' objects refs) := by
  rw [modifyTerminal, apply_modify]
  simp only [stored, Function.update_self, Function.update_idem, changes]

/-- The connector is made last. -/
theorem createConnector_ensures (ok : HostOk config mode listeners hand
      (stored host conId quePair cq none objects refs))
    (inHand : hand.term = some conId) :
    Ensures (initQues.createConnector conId replies)
      (fun err after => HostOk config mode listeners hand after ∧ err = replies.createConnector ∧
        (failed replies.createConnector = true ∧
          after = stored host conId quePair cq none objects refs ∨
        failed replies.createConnector = false ∧
          after = stored host conId quePair cq (some objects) (objects + 1)
            (Function.update refs objects 1)))
      (mode.Tolerates config) (stored host conId quePair cq none objects refs) := by
  unfold initQues.createConnector
  by_cases bad : failed replies.createConnector = true
  · rw [if_pos bad]
    exact ⟨ok, rfl, .inl ⟨bad, rfl⟩⟩
  · rw [if_neg bad]
    have made : HostOk config mode listeners hand (stored host conId quePair cq none (objects + 1)
        (Function.update refs objects 1)) := ok.makeObject
    have done : HostOk config mode listeners hand (stored host conId quePair cq (some objects)
        (objects + 1) (Function.update refs objects 1)) := by
      apply stored_ok made inHand
      rintro object (quePair | cq | connector)
      · exact .inl quePair
      · exact .inr (.inl cq)
      · cases connector
        exact .inr (.inr (.inr ⟨Nat.lt_succ_self _, ok.new_notListener⟩))
    refine .step createObject_stored (.step (modifyTerminal_stored fun _ => rfl) ?_)
    exact ⟨done, rfl, .inr ⟨by simpa using bad, rfl⟩⟩

theorem initQues_ensures (ok : HostOk config mode listeners hand host)
    (inHand : hand.term = some conId) (unset : (host.connections conId).pQuePair = none ∧
      (host.connections conId).pCQ = none ∧ (host.connections conId).pConnector = none) :
    Ensures (initQues config conId replies)
      (fun err after => HostOk config mode listeners hand after ∧
        ∃ quePair cq connector objects refs,
          after = stored host conId quePair cq connector objects refs ∧
          Queued config replies host quePair cq connector objects refs err)
      (mode.Tolerates config) host := by
  have nothing := stored_none unset
  have old : ∀ {object}, object < host.objects →
      object ≠ host.objects ∧ object ≠ host.objects + 1 ∧ object ≠ host.objects + 1 + 1 := by
    intro object low
    omega
  have okNow : HostOk config mode listeners hand
      (stored host conId none none none host.objects host.refs) := by
    rwa [nothing]
  have okOne : HostOk config mode listeners hand (stored host conId none none none
      (host.objects + 1) (Function.update host.refs host.objects 1)) := okNow.makeObject
  have okTwo : HostOk config mode listeners hand (stored host conId none none none
      (host.objects + 1 + 1) (Function.update (Function.update host.refs host.objects 1)
        (host.objects + 1) 1)) := okOne.makeObject
  have new : host.objects ∉ listeners ∧ host.objects + 1 ∉ listeners :=
    ⟨okNow.new_notListener, okOne.new_notListener⟩
  suffices run : Ensures (initQues config conId replies)
      (fun err after => HostOk config mode listeners hand after ∧
        ∃ quePair cq connector objects refs,
          after = stored host conId quePair cq connector objects refs ∧
          Queued config replies host quePair cq connector objects refs err)
      (mode.Tolerates config) (stored host conId none none none host.objects host.refs) by
    rwa [nothing] at run
  unfold initQues
  cases pooled : config.quePairsPool with
  | true =>
      rw [if_pos rfl]
      by_cases bad : failed replies.createObjects = true
      · rw [if_pos bad]
        refine ⟨okNow, none, none, none, _, _, rfl, Nat.le_refl _, fun _ _ => rfl, by simp, nofun,
          ?_, ?_⟩
        · exact fun good => absurd good (failed_ne bad)
        · refine iff_of_false (failed_ne bad) ?_
          simp [Replies.makesQues, pooled, bad]
      · rw [if_neg bad]
        have okStored : HostOk config mode listeners hand (stored host conId (some host.objects)
            (some (host.objects + 1)) none (host.objects + 1 + 1)
            (Function.update (Function.update host.refs host.objects 1) (host.objects + 1) 1)) := by
          apply stored_ok okTwo inHand
          rintro object (quePair | cq | connector)
          · cases quePair
            exact .inr (.inr (.inr ⟨by omega, new.1⟩))
          · cases cq
            exact .inr (.inr (.inr ⟨by omega, new.2⟩))
          · cases connector
        refine .step createObject_stored (.step createObject_stored
          (.step (modifyTerminal_stored fun _ => rfl) ?_))
        refine (createConnector_ensures okStored inHand).mono ?_ fun _ stops => stops
        rintro err _ ⟨done, rfl, ⟨noConnector, rfl⟩ | ⟨connector, rfl⟩⟩
        · refine ⟨done, _, _, _, _, _, rfl, by omega, ?_, by simp; omega, nofun, ?_, ?_⟩
          · intro object low
            rw [Function.update_of_ne (old low).2.1, Function.update_of_ne (old low).1]
          · exact fun good => absurd good (failed_ne noConnector)
          · refine iff_of_false (failed_ne noConnector) ?_
            simp only [Replies.makesQues, pooled, if_true, Bool.and_eq_true, beq_iff_eq]
            exact fun made => failed_ne noConnector made.2
        · refine ⟨done, _, _, _, _, _, rfl, by omega, ?_, by simp; omega, fun _ => ⟨nofun, nofun⟩,
            fun _ => nofun, ?_⟩
          · intro object low
            rw [Function.update_of_ne (old low).2.2, Function.update_of_ne (old low).2.1,
              Function.update_of_ne (old low).1]
          · simp [Replies.makesQues, pooled, bad]
  | false =>
      rw [if_neg nofun]
      by_cases noCQ : failed replies.createCompletionQueue = true
      · rw [if_pos noCQ]
        refine ⟨okNow, none, none, none, _, _, rfl, Nat.le_refl _, fun _ _ => rfl, by simp, nofun,
          ?_, ?_⟩
        · exact fun good => absurd good (failed_ne noCQ)
        · refine iff_of_false (failed_ne noCQ) ?_
          simp [Replies.makesQues, pooled, noCQ]
      · rw [if_neg noCQ]
        have okCQ : HostOk config mode listeners hand (stored host conId none (some host.objects)
            none (host.objects + 1) (Function.update host.refs host.objects 1)) := by
          apply stored_ok okOne inHand
          rintro object (quePair | cq | connector)
          · cases quePair
          · cases cq
            exact .inr (.inr (.inr ⟨by omega, new.1⟩))
          · cases connector
        refine .step createObject_stored (.step (modifyTerminal_stored fun _ => rfl) ?_)
        by_cases noQuePair : failed replies.createQueuePair = true
        · rw [if_pos noQuePair]
          refine ⟨okCQ, _, _, _, _, _, rfl, by omega, ?_, by simp, nofun, ?_, ?_⟩
          · exact fun object low => Function.update_of_ne (old low).1 _ _
          · exact fun good => absurd good (failed_ne noQuePair)
          · refine iff_of_false (failed_ne noQuePair) ?_
            simp [Replies.makesQues, pooled, noCQ, noQuePair]
        · rw [if_neg noQuePair]
          have okCQTwo : HostOk config mode listeners hand (stored host conId none
              (some host.objects) none (host.objects + 1 + 1)
              (Function.update (Function.update host.refs host.objects 1) (host.objects + 1) 1)) :=
            okCQ.makeObject
          have okStored : HostOk config mode listeners hand (stored host conId
              (some (host.objects + 1)) (some host.objects) none (host.objects + 1 + 1)
              (Function.update (Function.update host.refs host.objects 1)
                (host.objects + 1) 1)) := by
            apply stored_ok okCQTwo inHand
            rintro object (quePair | cq | connector)
            · cases quePair
              exact .inr (.inr (.inr ⟨by omega, new.2⟩))
            · exact .inr (.inl cq)
            · cases connector
          refine .step createObject_stored (.step (modifyTerminal_stored fun _ => rfl) ?_)
          refine (createConnector_ensures okStored inHand).mono ?_ fun _ stops => stops
          rintro err _ ⟨done, rfl, ⟨noConnector, rfl⟩ | ⟨connector, rfl⟩⟩
          · refine ⟨done, _, _, _, _, _, rfl, by omega, ?_, by simp; omega, nofun, ?_, ?_⟩
            · intro object low
              rw [Function.update_of_ne (old low).2.1, Function.update_of_ne (old low).1]
            · exact fun good => absurd good (failed_ne noConnector)
            · refine iff_of_false (failed_ne noConnector) ?_
              simp only [Replies.makesQues, pooled, Bool.false_eq_true, if_false,
                Bool.and_eq_true, beq_iff_eq]
              exact fun made => failed_ne noConnector made.2
          · refine ⟨done, _, _, _, _, _, rfl, by omega, ?_, by simp; omega, fun _ => ⟨nofun, nofun⟩,
              fun _ => nofun, ?_⟩
            · intro object low
              rw [Function.update_of_ne (old low).2.2, Function.update_of_ne (old low).2.1,
                Function.update_of_ne (old low).1]
            · simp [Replies.makesQues, pooled, noCQ, noQuePair]

end Queues

section Freeing

/-- A terminal has all the objects that `Cleanup` releases when it has a connector. -/
theorem cleanup_ensures {fault : Stop → Prop}
    (whole : (host.connections conId).pConnector ≠ none →
      (host.connections conId).pQuePair ≠ none ∧ (host.connections conId).pCQ ≠ none) :
    Ensures (cleanup conId)
      (fun _ after => ∃ refs, after = { host with
          refs
          connections := Function.update host.connections conId
            (host.connections conId).voidFlds } ∧
        ∀ object, (host.connections conId).pQuePair ≠ some object →
          (host.connections conId).pCQ ≠ some object →
            (host.connections conId).pConnector ≠ some object → refs object = host.refs object)
      fault host := by
  unfold cleanup
  rw [ensures_bind, ensures_get]
  dsimp only
  cases connector : (host.connections conId).pConnector with
  | none => exact .of_eq rfl ⟨host.refs, rfl, fun _ _ _ _ => rfl⟩
  | some connector' =>
      rcases whole (by rw [connector]; exact nofun) with ⟨quePair, cq⟩
      rcases Option.ne_none_iff_exists'.mp quePair with ⟨quePair', quePair⟩
      rcases Option.ne_none_iff_exists'.mp cq with ⟨cq', cq⟩
      rw [quePair, cq]
      refine .of_eq rfl ⟨_, rfl, ?_⟩
      intro object notQuePair notCQ notConnector
      have others : object ≠ cq' ∧ object ≠ quePair' ∧ object ≠ connector' :=
        ⟨fun same => notCQ (by rw [same]), fun same => notQuePair (by rw [same]),
          fun same => notConnector (by rw [same])⟩
      change Function.update _ cq' _ object = _
      rw [Function.update_of_ne others.1]
      change Function.update _ quePair' _ object = _
      rw [Function.update_of_ne others.2.1]
      change Function.update _ connector' _ object = _
      rw [Function.update_of_ne others.2.2]

/-- What `FreeTerminal` changes. -/
structure Freed (conId : ℕ) (before after : Host queue) : Prop where
  same : after = { before with
    refs := after.refs
    connPool := after.connPool
    connections := Function.update before.connections conId
      (before.connections conId).voidFlds }
  added : queue.add before.connPool conId = some after.connPool
  refs : ∀ object, (before.connections conId).pQuePair ≠ some object →
    (before.connections conId).pCQ ≠ some object →
      (before.connections conId).pConnector ≠ some object →
        after.refs object = before.refs object

theorem voidFlds_void (terminal : Terminal) :
    terminal.voidFlds.voidFlds = terminal.voidFlds := rfl

theorem freeTerminal_ensures (ok : HostOk config mode listeners hand host)
    (inHand : hand.term = some conId)
    (edges : (host.connections conId).rcvEnd.trailingEdge ≠ 0 ∧
      (host.connections conId).sndEnd.trailingEdge ≠ 0)
    (whole : (host.connections conId).pConnector ≠ none →
      (host.connections conId).pQuePair ≠ none ∧ (host.connections conId).pCQ ≠ none)
    (unused : ∀ {ov job}, host.Pends ov job →
      mode.key job ≠ some (.verb conId) ∧ mode.key job ≠ some (.discon conId))
    (secret : (host.connections conId).Secret host.disclosed) {fault : Stop → Prop} :
    Ensures (freeTerminal config conId)
      (fun _ after => Freed conId host after ∧
        HostOk config mode listeners { hand with term := none } after)
      fault host := by
  have inRange := (ok.slots.termInHand conId inHand).1
  unfold freeTerminal
  refine ensures_getTerminal inRange (.step (audit_eq edges) ?_)
  refine (cleanup_ensures whole).bind ?_
  rintro _ _ ⟨refs, rfl, sameRefs⟩
  have released : HostOk config mode listeners hand { host with refs } := by
    apply ok.setRefs
    intro listener member
    have notHeld : ¬(host.connections conId).Holds listener :=
      fun holds => (ok.listens.terminalApart inRange listener holds).2 member
    apply sameRefs
    · exact fun quePair => notHeld (.inl quePair)
    · exact fun cq => notHeld (.inr (.inl cq))
    · exact fun connector => notHeld (.inr (.inr (.inl connector)))
  have voided : HostOk config mode listeners hand { host with
      refs
      connections := Function.update host.connections conId
        (host.connections conId).voidFlds } := by
    refine released.setTerminal inHand rfl rfl (by simp [Terminal.voidFlds]) ?_ ?_
    · constructor
      case begun =>
        intro ov job outstanding key
        rcases key with discon | verb
        · exact absurd discon (unused outstanding).2
        · exact absurd verb (unused outstanding).1
      case own => simp [Terminal.voidFlds]
    · apply (ok.listens.terminalApart inRange).of_holds
      rintro object (quePair | cq | connector | records)
      · cases quePair
      · cases cq
      · cases connector
      · exact .inl (.inr (.inr (.inr records)))
  rcases voided.connRoom inHand with ⟨connPool, added⟩
  rw [ensures_bind, ensures_get]
  dsimp only
  rw [show queue.add host.connPool conId = some connPool from added]
  refine .of_eq rfl ⟨⟨rfl, added, sameRefs⟩, voided.returnTerminal inHand ?_ ?_ added⟩
  · dsimp only
    rw [Function.update_self, voidFlds_void]
  · dsimp only
    rw [Function.update_self]
    exact secret

end Freeing

section Allocating

/-- No registration is outstanding for the terminal that is taken next. -/
def FrontIdle (host : Host queue) : Prop :=
  ∀ conId rest, queue.items host.connPool = conId :: rest →
    ∀ ov job, host.Pends ov job → job.registers? ≠ some conId

/-- What a failed `AllocTerminal` changes: the terminal goes to the end of the pool. -/
structure Unallocated (before after : Host queue) : Prop where
  same : after = { before with
    objects := after.objects
    refs := after.refs
    connPool := after.connPool }
  rotated : ∃ conId rest, queue.items before.connPool = conId :: rest ∧
    queue.items after.connPool = rest ++ [conId]
  objects : before.objects ≤ after.objects
  refs : ∀ object < before.objects, after.refs object = before.refs object

/-- What a successful `AllocTerminal` changes. -/
structure Allocated (config : HostConfig) (parent : UInt64) (conId : ℕ)
    (before after : Host queue) :
    Prop where
  taken : queue.get before.connPool = some (conId, after.connPool)
  sockTbl : after.sockTbl = before.sockTbl
  sockPool : after.sockPool = before.sockPool
  closing : after.closing = before.closing
  frees : after.frees = before.frees
  delivered : after.delivered = before.delivered
  calls : after.calls = before.calls
  notified : after.notified = before.notified
  disclosed : after.disclosed = before.disclosed
  posts : after.posts = before.posts
  others : ∀ conId', conId' ≠ conId →
    (after.connections conId').noRegions = (before.connections conId').noRegions
  void : (after.connections conId).voidFlds.noRegions = (before.connections conId).noRegions
  handle : (after.connections conId).handle = parent
  edges : (after.connections conId).rcvEnd.trailingEdge ≠ 0 ∧
    (after.connections conId).sndEnd.trailingEdge ≠ 0
  pQuePair : (after.connections conId).pQuePair ≠ none
  pCQ : (after.connections conId).pCQ ≠ none
  pConnector : (after.connections conId).pConnector ≠ none
  pDisconnectCont : (after.connections conId).pDisconnectCont = none
  secret : (after.connections conId).Secret after.disclosed
  objects : before.objects ≤ after.objects
  refs : ∀ object < before.objects, after.refs object = before.refs object
  pends : ∀ {ov job}, job.region? = none → (after.Pends ov job ↔ before.Pends ov job)
  arenas : before.arenas ≤ after.arenas
  awaits : ∀ {arena}, after.Awaits arena → before.Awaits arena ∨ before.arenas ≤ arena
  retired : ∃ more, after.retired = before.retired ++ more ∧
    ∀ arena ∈ more, before.Awaits arena ∨ before.arenas ≤ arena

/-- The terminal with the edges that `Prepare` gives it. -/
def Terminal.edged (config : HostConfig) (terminal : Terminal) : Terminal :=
  { terminal with
    rcvEnd := ⟨UInt64.ofNat config.bufSize, 0⟩
    sndEnd := ⟨UInt64.ofNat config.bufSize, 0⟩ }

/-- What `Terminal::Prepare` changes. -/
structure Prepared (config : HostConfig) (replies : Replies) (conId : ℕ) (before after : Host queue)
    (err : StatusCode) : Prop where
  same : after = { before with
    objects := after.objects
    refs := after.refs
    connections := Function.update before.connections conId (after.connections conId) }
  terminal : after.connections conId = { Terminal.edged config (before.connections conId) with
    pQuePair := (after.connections conId).pQuePair
    pCQ := (after.connections conId).pCQ
    pConnector := (after.connections conId).pConnector }
  queued : Queued config replies before (after.connections conId).pQuePair
    (after.connections conId).pCQ (after.connections conId).pConnector after.objects after.refs err

theorem Prepared.not_new {before after : Host queue} {err : StatusCode}
    (prepared : Prepared config replies conId before after err) {object : ℕ}
    (low : object < before.objects) :
    ¬((after.connections conId).pQuePair = some object ∨
      (after.connections conId).pCQ = some object ∨
        (after.connections conId).pConnector = some object) :=
  fun pointer => Nat.not_le_of_lt low (prepared.queued.new object pointer)

theorem prepare_ensures (ok : HostOk config mode listeners hand host)
    (inHand : hand.term = some conId)
    (void : (host.connections conId).voidFlds = host.connections conId) :
    Ensures (prepare config conId replies)
      (fun err after => HostOk config mode listeners hand after ∧
        Prepared config replies conId host after err)
      (mode.Tolerates config) host := by
  have unset : (host.connections conId).pQuePair = none ∧ (host.connections conId).pCQ = none ∧
      (host.connections conId).pConnector = none := by
    rw [← void]
    exact ⟨rfl, rfl, rfl⟩
  unfold prepare
  refine .step apply_get (.step (audit_eq unset) (.step rfl ?_))
  have edged : HostOk config mode listeners hand { host with
      connections := Function.update host.connections conId
        (Terminal.edged config (host.connections conId)) } := by
    refine ok.setTerminal inHand rfl rfl (fun _ func => func) (.of_same rfl) ?_
    exact (ok.listens.terminalApart (ok.slots.termInHand conId inHand).1).of_holds
      fun _ holds => .inl holds
  refine (initQues_ensures edged inHand ?_).mono ?_ fun _ stops => stops
  · dsimp only
    rw [Function.update_self]
    exact unset
  · rintro err after ⟨done, quePair, cq, connector, objects, refs, rfl, queued⟩
    refine ⟨done, ?_, ?_, ?_⟩
    · simp only [stored, Function.update_self, Function.update_idem]
    · simp only [stored, Function.update_self]
    · simp only [stored, Function.update_self]
      exact { queued with }

/-- A terminal whose queues could not be made goes back to the pool. -/
theorem abandon_ensures (ok : HostOk config mode listeners hand host) (termEmpty : hand.term = none)
    (notMaking : hand.making = none) {connPool : queue.Que}
    (taken : queue.get host.connPool = some (conId, connPool))
    {err : StatusCode} {after : Host queue}
    (afterOk : HostOk config mode listeners
      { hand with term := some conId, making := some conId } after)
    (prepared : Prepared config replies conId { host with connPool } after err) :
    Ensures (do
      modifyTerminal conId fun term =>
        { term with sndEnd := { term.sndEnd with trailingEdge := UInt64.ofNat config.bufSize } }
      freeTerminal config conId)
      (fun _ last => HostOk config mode listeners hand last ∧ Unallocated host last)
      (mode.Tolerates config) after := by
  rcases queue.items_of_get taken with ⟨items, _⟩
  have member : conId ∈ queue.items host.connPool := by
    rw [items]
    exact List.mem_cons_self
  have inRange := ok.slots.connIds conId member
  have void := ok.slots.void conId member
  have noDiscon : (after.connections conId).pDisconnectCont = none := by
    rw [prepared.terminal]
    change (host.connections conId).pDisconnectCont = none
    rw [← void]
    rfl
  have trailing : HostOk config mode listeners
      { hand with term := some conId, making := some conId } { after with
        connections := Function.update after.connections conId
          { after.connections conId with
            sndEnd := { (after.connections conId).sndEnd with
              trailingEdge := UInt64.ofNat config.bufSize } } } := by
    refine afterOk.setTerminal rfl rfl rfl (fun _ func => func) (.of_same rfl) ?_
    exact (afterOk.listens.terminalApart inRange).of_holds fun _ holds => .inl holds
  refine .step rfl ?_
  refine (freeTerminal_ensures trailing rfl ?edges ?whole ?unused ?secret).mono ?_
    fun _ stops => stops
  case edges =>
    dsimp only
    rw [Function.update_self, prepared.terminal]
    exact ⟨ok.sane.edge, ok.sane.edge⟩
  case whole =>
    dsimp only
    rw [Function.update_self]
    exact prepared.queued.whole
  case unused =>
    refine fun outstanding => trailing.jobs.notStarted ?_ outstanding
    dsimp only
    rw [Function.update_self]
    exact noDiscon
  case secret =>
    dsimp only
    rw [Function.update_self, prepared.terminal, prepared.same]
    exact ok.regions.secretPool conId member
  rintro _ last ⟨freed, done⟩
  have connections : last.connections = host.connections := by
    rw [freed.same]
    dsimp only
    rw [Function.update_self, Function.update_idem, prepared.terminal, prepared.same]
    dsimp only
    rw [Function.update_idem]
    refine Eq.trans ?_ (Function.update_eq_self conId _)
    rw [← void]
    rfl
  have pends : ∀ {ov job}, last.Pends ov job ↔ host.Pends ov job := by
    intro ov job
    rw [freed.same, prepared.same]
    exact Iff.rfl
  have back : conId ∈ queue.items last.connPool := by
    rw [(queue.items_of_add freed.added).1]
    exact List.mem_append_right _ List.mem_cons_self
  have restored : HostOk config mode listeners { hand with term := none, making := none } last := by
    refine done.made rfl ?_ ?_ ?_
    · intro strict tagged
      rw [connections] at tagged ⊢
      rcases (ok.registers strict).half inRange (by simp [notMaking]) tagged with
        some | ⟨ov, region, outstanding⟩
      · exact .inl some
      · exact .inr ⟨ov, region, pends.mpr outstanding⟩
    · intro strict ov region outstanding
      rcases (ok.registers strict).awaitsMem (pends.mp outstanding) (by simp [notMaking]) with
        ⟨ov', region', outstanding'⟩
      exact ⟨ov', region', pends.mpr outstanding'⟩
    · exact fun _ _ outside => absurd back outside
  refine ⟨?_, ?_, ⟨conId, _, items, ?_⟩, ?_, ?_⟩
  · rwa [hand.emptied termEmpty notMaking] at restored
  · rw [← connections]
    rw [freed.same, prepared.same]
  · rw [(queue.items_of_add freed.added).1, prepared.same]
  · rw [freed.same]
    exact prepared.queued.objects
  · intro object low
    rw [freed.refs]
    · exact prepared.queued.refs object low
    · dsimp only
      rw [Function.update_self]
      exact fun quePair => prepared.not_new low (.inl quePair)
    · dsimp only
      rw [Function.update_self]
      exact fun cq => prepared.not_new low (.inr (.inl cq))
    · dsimp only
      rw [Function.update_self]
      exact fun connector => prepared.not_new low (.inr (.inr connector))

/-- A terminal that was prepared, and whose regions were registered or are being, is allocated. -/
theorem allocated_of_calm (ok : HostOk config mode listeners hand host)
    {connPool : queue.Que} (taken : queue.get host.connPool = some (conId, connPool))
    {after last : Host queue}
    (afterOk : HostOk config mode listeners
      { hand with term := some conId, making := some conId } after)
    (prepared : Prepared config replies conId { host with connPool } after hOk)
    (calm : Calm after last) (parent : UInt64) :
    Allocated config parent conId host
      { last with
        connections := Function.update last.connections conId
          { last.connections conId with handle := parent } } := by
  rcases queue.items_of_get taken with ⟨items, _⟩
  have member : conId ∈ queue.items host.connPool := by
    rw [items]
    exact List.mem_cons_self
  have void := ok.slots.void conId member
  have same := prepared.same
  have terminal := (calm.noRegions conId).trans (congrArg Terminal.noRegions prepared.terminal)
  have whole := prepared.queued.whole (prepared.queued.made rfl)
  have secret : (after.connections conId).Secret after.disclosed := by
    rw [prepared.terminal, prepared.same]
    exact ok.regions.secretPool conId member
  have secretNow := calm.secret afterOk secret
  have pends : ∀ {ov job}, after.Pends ov job ↔ host.Pends ov job := by
    intro ov job
    rw [same]
    exact Iff.rfl
  have awaits : ∀ {arena}, after.Awaits arena ↔ host.Awaits arena := by
    intro arena
    rw [same]
    exact Iff.rfl
  have arenas : after.arenas = host.arenas := by rw [same]
  have objects : host.objects ≤ after.objects := prepared.queued.objects
  constructor
  case taken =>
    rw [taken]
    dsimp only
    rw [calm.connPool, same]
  case sockTbl => exact calm.sockTbl.trans (by rw [same])
  case sockPool => exact calm.sockPool.trans (by rw [same])
  case closing => exact calm.closing.trans (by rw [same])
  case frees => exact calm.frees.trans (by rw [same])
  case delivered => exact calm.delivered.trans (by rw [same])
  case calls => exact calm.calls.trans (by rw [same])
  case notified => exact calm.notified.trans (by rw [same])
  case disclosed => exact calm.disclosed.trans (by rw [same])
  case posts => exact calm.posts.trans (by rw [same])
  case others =>
    intro conId' other
    refine (congrArg Terminal.noRegions (Function.update_of_ne other _ _)).trans ?_
    rw [calm.noRegions, same]
    exact congrArg Terminal.noRegions (Function.update_of_ne other _ _)
  case objects => exact objects.trans calm.objects
  case refs =>
    intro object low
    exact (calm.refs object (Nat.lt_of_lt_of_le low objects)).trans
      (prepared.queued.refs object low)
  case pends => exact fun other => (calm.pends other).trans pends
  case arenas => exact arenas.symm.le.trans calm.arenas
  case awaits =>
    intro arena waits
    rcases calm.awaits waits with before | new
    · exact .inl (awaits.mp before)
    · exact .inr (arenas ▸ new)
  case retired =>
    rcases calm.retired with ⟨more, retires, from'⟩
    refine ⟨more, retires.trans (by rw [same]), ?_⟩
    intro arena member'
    rcases from' arena member' with before | new
    · exact .inl (awaits.mp before)
    · exact .inr (arenas ▸ new)
  all_goals
    dsimp only
    rw [Function.update_self]
  case void =>
    refine (congrArg Terminal.voidFlds terminal).trans ?_
    exact congrArg Terminal.noRegions void
  case edges =>
    have rcvEnd := congrArg Terminal.rcvEnd terminal
    have sndEnd := congrArg Terminal.sndEnd terminal
    change (last.connections conId).rcvEnd = ⟨UInt64.ofNat config.bufSize, 0⟩ at rcvEnd
    change (last.connections conId).sndEnd = ⟨UInt64.ofNat config.bufSize, 0⟩ at sndEnd
    rw [rcvEnd, sndEnd]
    exact ⟨ok.sane.edge, ok.sane.edge⟩
  case pQuePair =>
    have pointer := congrArg Terminal.pQuePair terminal
    exact fun none => whole.1 (pointer.symm.trans none)
  case pCQ =>
    have pointer := congrArg Terminal.pCQ terminal
    exact fun none => whole.2 (pointer.symm.trans none)
  case pConnector =>
    have pointer := congrArg Terminal.pConnector terminal
    exact fun none => prepared.queued.made rfl (pointer.symm.trans none)
  case pDisconnectCont =>
    have pointer := congrArg Terminal.pDisconnectCont terminal
    refine pointer.trans ?_
    change (host.connections conId).pDisconnectCont = none
    rw [← void]
    rfl
  case secret =>
    exact secretNow

/-- `AllocTerminal`. -/
theorem allocTerminal_ensures (ok : HostOk config mode listeners hand host)
    (termEmpty : hand.term = none) (notMaking : hand.making = none) (few : hand.ovs.length ≤ 7)
    (idle : mode.strict = true → replies.makesQues config = true → FrontIdle host)
    (parent : UInt64) :
    Ensures (allocTerminal config parent replies)
      (fun result after =>
        result.1 ≠ hOk ∧ result.2 = invalidTermId ∧ replies.makesQues config = false ∧
            HostOk config mode listeners hand after ∧ Unallocated host after ∨
          result.1 = hOk ∧ replies.makesQues config = true ∧
            HostOk config mode listeners { hand with term := some result.2 } after ∧
              Allocated config parent result.2 host after)
      (mode.Tolerates config) host := by
  unfold allocTerminal
  rw [ensures_bind, ensures_get]
  cases taken : queue.get host.connPool with
  | none => exact .inl (by decide)
  | some pair =>
      rcases pair with ⟨conId, connPool⟩
      rcases queue.items_of_get taken with ⟨items, _⟩
      have member : conId ∈ queue.items host.connPool := by
        rw [items]
        exact List.mem_cons_self
      have inRange := ok.slots.connIds conId member
      have void := ok.slots.void conId member
      have takenOk := ok.takeTerminal termEmpty taken notMaking
      have edges : (host.connections conId).rcvEnd.trailingEdge = 0 ∧
          (host.connections conId).sndEnd.trailingEdge = 0 := by
        rw [← void]
        exact ⟨rfl, rfl⟩
      dsimp only
      refine .step (apply_set _) (ensures_getTerminal inRange (.step (audit_eq edges) ?_))
      refine (prepare_ensures takenOk rfl void).bind ?_
      intro err after ⟨afterOk, prepared⟩
      by_cases good : err ≠ hOk
      · rw [if_pos good]
        have unmade : replies.makesQues config = false := by
          simpa using fun makes => good (prepared.queued.answered.mpr makes)
        have abandoned := abandon_ensures ok termEmpty notMaking taken afterOk prepared
        refine ensures_bind.mpr ((ensures_bind.mp abandoned).mono ?_ fun _ stops => stops)
        intro _ trailing abandoned
        refine abandoned.bind ?_
        rintro _ last ⟨done, unallocated⟩
        exact .inl ⟨good, rfl, unmade, done, unallocated⟩
      · rw [if_neg good]
        have made := not_not.mp good
        have makes := prepared.queued.answered.mp made
        refine (createMemRegions_ensures afterOk rfl rfl few ?_ ?_).bind ?_
        · intro strict ov job outstanding
          rw [prepared.same] at outstanding
          exact idle strict makes conId _ items ov job outstanding
        · intro strict unset
          rw [prepared.terminal] at unset ⊢
          by_contra tagged
          rcases (ok.registers strict).half inRange (by rw [notMaking]; exact nofun) tagged with
            some | ⟨ov, region, outstanding⟩
          · exact some unset
          · exact idle strict makes conId _ items ov _ outstanding rfl
        · rintro _ registered ⟨registeredOk, calm⟩
          refine .step rfl ?_
          refine .inr ⟨made, makes, ?_, ?_⟩
          · rw [hand.made notMaking conId] at registeredOk
            refine registeredOk.setTerminal rfl rfl rfl (fun _ func => func)
              (.of_same rfl) ?_
            exact (registeredOk.listens.terminalApart inRange).of_holds
              fun _ holds => .inl holds
          · rw [made] at prepared
            exact allocated_of_calm ok taken afterOk prepared calm parent

end Allocating

end Host

end Hermes
