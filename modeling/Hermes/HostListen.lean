import Hermes.HostOperations

/-!
# Listening

What `Listen` does: the listener it makes has one reference, which the listening
socket holds, or it is released again.
-/

namespace Hermes

open Program

variable {queue : CircularQue ℕ} {config : HostConfig} {mode : Mode} {listeners : List ℕ}
  {hand : Hand} {host : Host queue} {id conId ov termId listener : ℕ} {job : AsyncJob} {arena : ℕ}
  {replies : Replies} {err : StatusCode} {hr : HRESULT} {handle : UInt64} {port : UInt16}

namespace ListenersOk

variable {sockTbl : ℕ → HSocket} {connections : ℕ → Terminal} {overlaps : ℕ → HOverlap}
  {pending : List ℕ} {refs : ℕ → ℕ} {objects : ℕ}

/-- A reference in hand becomes that of the socket in hand, which is put down. -/
theorem hold {leaked : List ℕ} (ok : ListenersOk config
      { sock := some id, refs := listener :: leaked } listeners sockTbl connections overlaps pending
      refs objects)
    (sockId : config.SockId id) (holds : (sockTbl id).pListen = some listener)
    (free : ∀ id', Hand.Settled config { sock := some id, refs := listener :: leaked } id' →
      (sockTbl id').pListen ≠ some listener) :
    ListenersOk config { refs := leaked } listeners sockTbl connections overlaps pending refs
      objects := by
  have member := ok.inHand listener List.mem_cons_self
  have settled : ∀ {id'}, Hand.Settled config { refs := leaked } id' → id' ≠ id →
      Hand.Settled config { sock := some id, refs := listener :: leaked } id' :=
    fun settled other => ⟨settled.1, fun same => other (Option.some.inj same).symm⟩
  constructor
  case made => exact ok.made
  case held =>
    intro id' listener' settled' holds'
    by_cases same : id' = id
    · rw [same, holds] at holds'
      cases holds'
      refine ⟨member, ?_⟩
      have counts := ok.unheld listener member free
      rw [counts]
      dsimp only
      rw [List.count_cons_self]
      omega
    · rcases ok.held (settled settled' same) holds' with ⟨member', counts⟩
      refine ⟨member', ?_⟩
      have other : listener ≠ listener' :=
        fun equal => free id' (settled settled' same) (equal ▸ holds')
      rw [counts, List.count_cons_of_ne other]
  case heldOnce =>
    intro id' id'' listener' settled' settled'' holds' holds''
    by_cases same : id' = id
    · by_cases same' : id'' = id
      · rw [same, same']
      · rw [same, holds] at holds'
        cases holds'
        exact absurd holds'' (free id'' (settled settled'' same'))
    · by_cases same' : id'' = id
      · rw [same', holds] at holds''
        cases holds''
        exact absurd holds' (free id' (settled settled' same))
      · exact ok.heldOnce (settled settled' same) (settled settled'' same') holds' holds''
  case unheld =>
    intro listener' member' free'
    have counts := ok.unheld listener' member' fun id' settled' =>
      free' id' ⟨settled'.1, nofun⟩
    rw [counts]
    by_cases same : listener' = listener
    · exact absurd (same ▸ holds) (free' id ⟨sockId, nofun⟩)
    · rw [List.count_cons_of_ne (Ne.symm same)]
  case inHand => exact fun listener' member' => ok.inHand listener' (List.mem_cons_of_mem _ member')
  case apart => exact ok.apart
  case jobs => exact ok.jobs

/-- A listening socket is picked up, and the reference it holds is in hand. -/
theorem takeUp {leaked : List ℕ} (ok : ListenersOk config { refs := leaked } listeners sockTbl
      connections overlaps pending refs objects)
    (sockId : config.SockId id) (holds : (sockTbl id).pListen = some listener) :
    ListenersOk config { sock := some id, refs := listener :: leaked } listeners sockTbl connections
      overlaps pending refs objects := by
  have settledId : Hand.Settled config { refs := leaked } id := ⟨sockId, nofun⟩
  have before : ∀ {id'}, Hand.Settled config { sock := some id, refs := listener :: leaked } id' →
      Hand.Settled config { refs := leaked } id' ∧ id' ≠ id :=
    fun settled => ⟨⟨settled.1, nofun⟩, fun same => settled.2 (congrArg some same.symm)⟩
  rcases ok.held settledId holds with ⟨member, counts⟩
  constructor
  case made => exact ok.made
  case held =>
    intro id' listener' settled holds'
    rcases before settled with ⟨settled', other⟩
    rcases ok.held settled' holds' with ⟨member', counts'⟩
    refine ⟨member', ?_⟩
    have different : listener ≠ listener' := by
      rintro rfl
      exact other (ok.heldOnce settled' settledId holds' holds)
    rw [counts', List.count_cons_of_ne different]
  case heldOnce =>
    exact fun settled settled' => ok.heldOnce (before settled).1 (before settled').1
  case unheld =>
    intro listener' member' free
    by_cases same : listener' = listener
    · rw [same, counts]
      dsimp only
      rw [List.count_cons_self]
      omega
    · rw [List.count_cons_of_ne (Ne.symm same)]
      apply ok.unheld listener' member'
      intro id' settled holds'
      by_cases equal : id' = id
      · rw [equal, holds] at holds'
        exact same (Option.some.inj holds').symm
      · exact free id' ⟨settled.1, fun same => equal (Option.some.inj same).symm⟩ holds'
  case inHand =>
    intro listener' member'
    rcases List.mem_cons.mp member' with same | old
    · exact same ▸ member
    · exact ok.inHand listener' old
  case apart => exact ok.apart
  case jobs => exact ok.jobs

end ListenersOk

namespace Host

section Listen

/-- The clean-up of `Listen`, when there is no listener. -/
theorem listenCleanup_none (noListen : (host.sockTbl id).pListen = none) :
    listenCleanup id host = .ok (⟨⟩, { host with
      sockTbl := Function.update host.sockTbl id
        { host.sockTbl id with state := .disconnected, port := 0, pListen := none } }) := by
  unfold listenCleanup
  rw [apply_bind rfl, apply_bind apply_get]
  simp only [Function.update_self, noListen]
  rfl

/-- The clean-up of `Listen` releases the listener. -/
theorem listenCleanup_some (holds : (host.sockTbl id).pListen = some listener) :
    listenCleanup id host = .ok (⟨⟩, { host with
      refs := Function.update host.refs listener (host.refs listener - 1)
      sockTbl := Function.update host.sockTbl id
        { host.sockTbl id with state := .disconnected, port := 0, pListen := none } }) := by
  unfold listenCleanup
  rw [apply_bind rfl, apply_bind apply_get]
  simp only [Function.update_self, holds]
  rw [apply_bind rfl]
  simp only [modifySocket, apply_modify, Function.update_idem, Function.update_self]

/-- The objects made by a call. -/
def madeSince (before after : Host queue) : List ℕ :=
  List.range' before.objects (after.objects - before.objects)

/-- What a failed `Listen` leaves: the listener it made has no reference. -/
structure ListenUndone (before after : Host queue) : Prop extends Undone before after where
  handles' : ∀ id, (after.sockTbl id).handle = (before.sockTbl id).handle
  released : ∀ object, before.objects ≤ object → object < after.objects → after.refs object = 0

/-- The host after `Listen` has made its listener. -/
def listening (host : Host queue) (id : ℕ) (state : SocketState) (port : UInt16) : Host queue :=
  { host with
    objects := host.objects + 1
    refs := Function.update host.refs host.objects 1
    sockTbl := Function.update host.sockTbl id
      { host.sockTbl id with pListen := some host.objects, state, port } }

/-- How `Listen` ends under its guard. -/
theorem startToListen_ensures {fault : Stop → Prop}
    (state : (host.sockTbl id).state = .startToListen) :
    Ensures (startToListen id port replies)
      (fun err after => err ≠ hOk ∧ after = host ∨
        err ≠ hOk ∧ (∃ port, after = listening host id .startToListen port) ∨
        err = hOk ∧ after = listening host id .listening port)
      fault host := by
  have made : ∀ port : UInt16, { host with
      objects := host.objects + 1
      refs := Function.update host.refs host.objects 1
      sockTbl := Function.update host.sockTbl id
        { host.sockTbl id with pListen := some host.objects, port } } =
      listening host id .startToListen port := by
    intro port
    rw [listening, ← state]
  unfold startToListen
  refine .step apply_get ?_
  by_cases canceled : host.closing = true ∨ (host.sockTbl id).state = .stopping
  · rw [if_pos canceled]
    exact .inl ⟨by decide, rfl⟩
  rw [if_neg canceled]
  by_cases noListener : failed replies.createListener = true
  · rw [if_pos noListener]
    exact .inl ⟨failed_ne noListener, rfl⟩
  rw [if_neg noListener]
  refine .step rfl (.step rfl ?_)
  by_cases warned : replies.createListener ≠ hOk
  · rw [if_pos warned]
    exact .inr (.inl ⟨warned, _, made _⟩)
  rw [if_neg warned]
  by_cases noBind : replies.bindListener ≠ hOk
  · rw [if_pos noBind]
    exact .inr (.inl ⟨noBind, _, made _⟩)
  rw [if_neg noBind]
  refine .step rfl ?_
  simp only [Function.update_self, Function.update_idem]
  by_cases noListen : replies.listen ≠ hOk
  · rw [if_pos noListen]
    exact .inr (.inl ⟨noListen, _, made _⟩)
  rw [if_neg noListen]
  refine .step apply_get (.step (audit_eq (by simpa using state)) (.step rfl ?_))
  refine .inr (.inr ⟨rfl, ?_⟩)
  simp only [Function.update_self, Function.update_idem, listening]

/-- `Listen`. -/
theorem listen_ensures (ok : HostOk config mode listeners {} host) :
    Ensures (listen handle port replies)
      (fun status after => HostOk config mode (listeners ++ madeSince host after) {} after ∧
        (status ≠ hOk → ListenUndone host after))
      (mode.Tolerates config) host := by
  have nothing : HostOk config mode (listeners ++ madeSince host host) {} host := by
    rw [madeSince, Nat.sub_self]
    simpa using ok
  have unchanged : ListenUndone host host :=
    { Undone.refl host with
      handles' := fun _ => rfl
      released := fun _ low high => absurd high (Nat.not_lt_of_le low) }
  unfold listen
  rw [ensures_bind, ensures_get]
  cases found : host.findSocket handle with
  | none => exact ⟨nothing, fun _ => unchanged⟩
  | some pSock =>
      rcases findSocket_some ok found with ⟨sockId, _, _⟩
      dsimp only
      by_cases busy : host.closing = true ∨ (host.sockTbl pSock).state ≠ .disconnected
      · rw [if_pos busy]
        exact ⟨nothing, fun _ => unchanged⟩
      rw [if_neg busy]
      have state := not_not.mp (not_or.mp busy).2
      have fits := ok.slots.sockets pSock (.of_none sockId rfl)
      simp only [SocketOk, state] at fits
      have picked : HostOk config mode listeners { sock := some pSock } host :=
        ok.pick rfl rfl sockId (by simp [state]) fits.2 (.inl ⟨rfl, fits.1⟩)
          (noAttempt_of_state ok (by rw [state]; rfl))
      -- the socket as the clean-up leaves it
      have down : ∀ {listeners : List ℕ} {after : Host queue},
          HostOk config mode listeners { sock := some pSock } after →
          (after.sockTbl pSock).handle = (host.sockTbl pSock).handle →
            HostOk config mode listeners {} { after with
              sockTbl := Function.update after.sockTbl pSock
                { host.sockTbl pSock with
                  state := .disconnected, port := 0, pListen := none } } := by
        intro listeners after afterOk handle
        have changed : HostOk config mode listeners { sock := some pSock } { after with
            sockTbl := Function.update after.sockTbl pSock
              { host.sockTbl pSock with state := .disconnected, port := 0, pListen := none } } :=
          afterOk.setSocket rfl handle.symm
        refine changed.putDown (stowDisconnected rfl rfl ?_ ?_ ?_) ?_
        all_goals simp [fits.1]
      have undone : ∀ {after : Host queue}, after.sockTbl = Function.update host.sockTbl pSock
            { host.sockTbl pSock with state := .disconnected, port := 0, pListen := none } →
          after.sockPool = host.sockPool → after.connPool = host.connPool →
          after.connections = host.connections →
          (∀ object, host.objects ≤ object → object < after.objects → after.refs object = 0) →
            ListenUndone host after := by
        intro after sockTbl sockPool connPool connections released
        have sockets : ∀ id, (after.sockTbl id).handle = (host.sockTbl id).handle ∧
            (after.sockTbl id).state = (host.sockTbl id).state ∧
              (after.sockTbl id).term = (host.sockTbl id).term ∧
                (after.sockTbl id).pListen = (host.sockTbl id).pListen := by
          intro id
          rw [sockTbl]
          by_cases same : id = pSock
          · rw [same, Function.update_self, state, fits.1, fits.2]
            exact ⟨rfl, rfl, rfl, rfl⟩
          · rw [Function.update_of_ne same]
            exact ⟨rfl, rfl, rfl, rfl⟩
        exact
          { sockets := fun id => (sockets id).2
            handles := fun id => .inl (sockets id).1
            once := fun id _ changed => absurd (sockets id).1 changed
            sockItems := by rw [sockPool]
            connItems := by rw [connPool]
            terminals := fun conId => by rw [connections]
            handles' := fun id => (sockets id).1
            released }
      refine .step rfl ((startToListen_ensures (by simp)).bind ?_)
      rintro err after (⟨bad, rfl⟩ | ⟨bad, port', rfl⟩ | ⟨rfl, rfl⟩)
      · rw [if_pos bad]
        refine .step (listenCleanup_none (by simpa using fits.2)) ?_
        simp only [Function.update_idem, Function.update_self]
        refine ⟨?_, fun _ => undone rfl rfl rfl rfl ?_⟩
        · rw [madeSince, Nat.sub_self]
          simpa using down picked rfl
        · exact fun _ low high => absurd high (Nat.not_lt_of_le low)
      · rw [if_pos bad]
        refine .step (listenCleanup_some (show _ = some host.objects by simp [listening])) ?_
        simp only [listening, Function.update_idem, Function.update_self]
        refine ⟨?_, fun _ => undone rfl rfl rfl rfl ?_⟩
        · have made := picked.makeListener
          have released := made.releaseRef rfl
          simp only [Function.update_idem, Function.update_self] at released
          have last := down released rfl
          rw [madeSince, Nat.add_sub_cancel_left]
          exact last
        · intro object low high
          have same : object = host.objects := by
            dsimp only at high
            omega
          rw [same]
          dsimp only
          rw [Function.update_self]
      · rw [if_neg (not_not.mpr rfl)]
        simp only [listening, Function.update_idem, Function.update_self]
        refine ⟨?_, fun bad => absurd rfl bad⟩
        have made : HostOk config mode (listeners ++ [host.objects])
            { sock := some pSock, refs := [host.objects] } { host with
              objects := host.objects + 1
              refs := Function.update host.refs host.objects 1
              sockTbl := Function.update host.sockTbl pSock
                { host.sockTbl pSock with
                  pListen := some host.objects, state := .listening, port } } :=
          picked.makeListener.setSocket rfl rfl
        have stowable : Stowable config mode { sock := some pSock, refs := [host.objects] }
            { host with
              objects := host.objects + 1
              refs := Function.update host.refs host.objects 1
              sockTbl := Function.update host.sockTbl pSock
                { host.sockTbl pSock with
                  pListen := some host.objects, state := .listening, port } } pSock := by
          refine stowUnowned rfl rfl ?_ (by simp) (by simpa using fits.1) (by simp; rfl)
          simp only [Function.update_self, SocketOk]
          exact ⟨fits.1, by simp⟩
        rw [madeSince, Nat.add_sub_cancel_left]
        refine made.stow stowable (made.listens.map fun leaked listens => ?_)
        refine ListenersOk.hold listens sockId (by simp) ?_
        intro id' settled holds
        dsimp only at holds
        rw [Hand.Settled.update settled rfl] at holds
        have before := ok.listens.known ⟨settled.1, by simp⟩ holds
        exact Nat.lt_irrefl _ (ok.listens.madeBefore before)

end Listen

end Host

end Hermes
