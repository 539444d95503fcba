import Hermes.HostInvariant

/-!
# Moving slots between the tables, the pools and the hand

How the two tables and pools stay in agreement: a socket or a terminal is taken from
its pool, given back, picked up from the table by the code that works on it, changed
in hand, and put down again.
-/

namespace Hermes

variable {config : HostConfig} {mode : Mode} {hand : Hand} {sockTbl : ℕ → HSocket}
  {connections : ℕ → Terminal} {frees : ℕ → ℕ} {sockItems connItems : List ℕ} {id conId : ℕ}

section Basics

theorem SocketOk.unowned {sock : HSocket} {terminal : Terminal}
    (ok : SocketOk config sock terminal) (state : sock.state = .inpool) :
    sock.term = invalidTermId ∧ sock.pListen = none := by
  simpa only [SocketOk, state] using ok

theorem SocketOk.owns {sock : HSocket} {terminal : Terminal} (ok : SocketOk config sock terminal)
    (owner : sock.term ≠ invalidTermId) : Owns config sock terminal := by
  cases state : sock.state
  all_goals
    simp only [SocketOk, state] at ok
  case accept1 => exact ok
  case connecting | connAgreed | connAck | connected => exact ok.1
  all_goals exact absurd ok.1 owner

/-- A socket that attempts to connect has a terminal. -/
theorem SocketOk.attempts {sock : HSocket} {terminal : Terminal}
    (ok : SocketOk config sock terminal) (attempting : sock.state.attempting = true) :
    Owns config sock terminal := by
  cases state : sock.state
  all_goals
    rw [state] at attempting
  case accept1 => simpa only [SocketOk, state] using ok
  case connecting | connAck =>
    simp only [SocketOk, state] at ok
    exact ok.1
  all_goals cases attempting

/-- What a socket needs of its terminal is not about the regions. -/
theorem SocketOk.congr {sock : HSocket} {terminal terminal' : Terminal}
    (same : terminal'.noRegions = terminal.noRegions) (ok : SocketOk config sock terminal) :
    SocketOk config sock terminal' := by
  have handle : terminal'.handle = terminal.handle := congrArg (·.handle) same
  have rcvEnd : terminal'.rcvEnd = terminal.rcvEnd := congrArg (·.rcvEnd) same
  have sndEnd : terminal'.sndEnd = terminal.sndEnd := congrArg (·.sndEnd) same
  have pQuePair : terminal'.pQuePair = terminal.pQuePair := congrArg (·.pQuePair) same
  have pCQ : terminal'.pCQ = terminal.pCQ := congrArg (·.pCQ) same
  have pConnector : terminal'.pConnector = terminal.pConnector := congrArg (·.pConnector) same
  have pConnFunc : terminal'.pConnFunc = terminal.pConnFunc := congrArg (·.pConnFunc) same
  have pDisconnectCont : terminal'.pDisconnectCont = terminal.pDisconnectCont :=
    congrArg (·.pDisconnectCont) same
  have owns : Owns config sock terminal → Owns config sock terminal' := by
    intro owns
    exact
      { listen := owns.listen
        term := owns.term
        handle := by rw [handle, owns.handle]
        edges := by rw [rcvEnd, sndEnd]; exact owns.edges
        pQuePair := by rw [pQuePair]; exact owns.pQuePair
        pCQ := by rw [pCQ]; exact owns.pCQ
        pConnector := by rw [pConnector]; exact owns.pConnector
        pConnFunc := by rw [pConnFunc]; exact owns.pConnFunc }
  unfold SocketOk at ok ⊢
  rw [pDisconnectCont]
  cases state : sock.state
  all_goals
    simp only [state] at ok ⊢
  case accept1 => exact owns ok
  case connecting | connAgreed | connAck | connected => exact ⟨owns ok.1, ok.2⟩
  all_goals exact ok

theorem HostConfig.TermId.ne (inRange : config.TermId conId) : conId ≠ invalidTermId :=
  Nat.one_le_iff_ne_zero.mp inRange.1

theorem Hand.Settled.of_none (sockId : config.SockId id) (empty : hand.sock = none) :
    hand.Settled config id :=
  ⟨sockId, by rw [empty]; exact nofun⟩

end Basics

namespace SlotsOk

section Sockets

/-- The sockets that stay settled when one is taken in hand. -/
theorem settled_of_grab (empty : hand.sock = none) {term : Option ℕ} {refs : List ℕ} {id' : ℕ}
    (settled : Hand.Settled config { hand with sock := some id, term, refs } id') :
    hand.Settled config id' ∧ id' ≠ id :=
  ⟨.of_none settled.1 empty, fun same => settled.2 (by rw [same])⟩

theorem takeSocket
    (ok : SlotsOk config hand sockTbl connections frees (id :: sockItems) connItems)
    (empty : hand.sock = none) :
    SlotsOk config { hand with sock := some id } sockTbl connections frees sockItems
      connItems := by
  have nodup := List.nodup_cons.mp ok.sockNodup
  have sockId := ok.sockIds id List.mem_cons_self
  have inpool := (ok.pooled id (.of_none sockId empty)).mp List.mem_cons_self
  have void := (ok.sockets id (.of_none sockId empty)).unowned inpool
  refine
    { ok with
      sockNodup := nodup.2
      sockIds := fun id' member => ok.sockIds id' (List.mem_cons_of_mem id member)
      sockInHand := ?_
      pooled := ?_
      sockets := fun id' settled => ok.sockets id' (settled_of_grab empty settled).1
      termInHand := ok.termInHand
      owner := ?_
      owned := fun id' settled => ok.owned id' (settled_of_grab empty settled).1
      ownedOnce := ?_ }
  · intro id' same
    cases same
    exact ⟨sockId, nodup.1⟩
  · intro id' settled
    rcases settled_of_grab empty settled with ⟨before, other⟩
    rw [← ok.pooled id' before]
    simp [other]
  · intro conId inRange outside notInHand
    rcases ok.owner conId inRange outside notInHand with ⟨id', settled, term⟩
    refine ⟨id', ⟨settled.1, ?_⟩, term⟩
    intro same
    cases same
    exact inRange.ne (term ▸ void.1)
  · intro id' id'' settled settled'
    exact ok.ownedOnce id' id'' (settled_of_grab empty settled).1 (settled_of_grab empty settled').1

/-- A socket in hand changes, but for its handle. -/
theorem setSocket (ok : SlotsOk config hand sockTbl connections frees sockItems connItems)
    (inHand : hand.sock = some id) {sock : HSocket} (handle : sock.handle = (sockTbl id).handle) :
    SlotsOk config hand (Function.update sockTbl id sock) connections frees sockItems
      connItems := by
  have same : ∀ {id'}, hand.Settled config id' → Function.update sockTbl id sock id' =
      sockTbl id' := by
    intro id' settled
    apply Function.update_of_ne
    intro equal
    exact settled.2 (by rw [inHand, equal])
  refine { ok with pooled := ?_, sockets := ?_, handles := ?_, owner := ?_, owned := ?_,
                   ownedOnce := ?_ }
  · intro id' settled
    rw [same settled]
    exact ok.pooled id' settled
  · intro id' settled
    rw [same settled]
    exact ok.sockets id' settled
  · intro id' sockId
    by_cases equal : id' = id
    · rw [equal, Function.update_self, handle]
      exact ok.handles id (equal ▸ sockId)
    · rw [Function.update_of_ne equal]
      exact ok.handles id' sockId
  · intro conId inRange outside notInHand
    rcases ok.owner conId inRange outside notInHand with ⟨id', settled, term⟩
    exact ⟨id', settled, by rw [same settled, term]⟩
  · intro id' settled
    rw [same settled]
    exact ok.owned id' settled
  · intro id' id'' settled settled'
    rw [same settled, same settled']
    exact ok.ownedOnce id' id'' settled settled'

/-- A socket in hand whose terminal is not, or that has none, is put down. -/
theorem stow (ok : SlotsOk config hand sockTbl connections frees sockItems connItems)
    (inHand : hand.sock = some id)
    (fits : SocketOk config (sockTbl id) (connections (sockTbl id).term))
    (active : (sockTbl id).state ≠ .inpool)
    (term : hand.term = none ∧ (sockTbl id).term = invalidTermId ∨
      hand.term = some (sockTbl id).term) {refs : List ℕ} :
    SlotsOk config { hand with sock := none, term := none, refs }
      sockTbl connections frees sockItems
      connItems := by
  rcases ok.sockInHand id inHand with ⟨sockId, outside⟩
  have before : ∀ {id'}, config.SockId id' → id' ≠ id → hand.Settled config id' := by
    intro id' sockId other
    refine ⟨sockId, ?_⟩
    intro same
    rw [inHand] at same
    exact other (Option.some.inj same).symm
  have termCases : (sockTbl id).term ≠ invalidTermId → hand.term = some (sockTbl id).term := by
    intro valid
    rcases term with none | some
    · exact absurd none.2 valid
    · exact some
  refine
    { ok with
      sockInHand := nofun
      pooled := ?_
      sockets := ?_
      termInHand := nofun
      owner := ?_
      owned := ?_
      ownedOnce := ?_ }
  · intro id' settled
    by_cases same : id' = id
    · rw [same]
      exact iff_of_false outside active
    · exact ok.pooled id' (before settled.1 same)
  · intro id' settled
    by_cases same : id' = id
    · rw [same]
      exact fits
    · exact ok.sockets id' (before settled.1 same)
  · intro conId inRange outside _
    by_cases inHand' : hand.term = some conId
    · refine ⟨id, ⟨sockId, nofun⟩, ?_⟩
      rcases term with none | some
      · rw [none.1] at inHand'
        cases inHand'
      · rw [some] at inHand'
        exact Option.some.inj inHand'
    · rcases ok.owner conId inRange outside inHand' with ⟨id', settled, owns⟩
      exact ⟨id', ⟨settled.1, nofun⟩, owns⟩
  · intro id' settled valid
    refine ⟨?_, nofun⟩
    by_cases same : id' = id
    · rw [same] at valid ⊢
      exact (ok.termInHand _ (termCases valid)).2
    · exact (ok.owned id' (before settled.1 same) valid).1
  · intro id' id'' settled settled' valid equal
    by_cases same : id' = id
    · by_cases same' : id'' = id
      · rw [same, same']
      · rw [same] at valid equal
        have other := (ok.owned id'' (before settled'.1 same') (equal ▸ valid)).2
        rw [← equal] at other
        exact absurd (termCases valid) other
    · by_cases same' : id'' = id
      · rw [same'] at equal
        have other := (ok.owned id' (before settled.1 same) valid).2
        rw [equal] at other valid
        exact absurd (termCases valid) other
      · exact ok.ownedOnce id' id'' (before settled.1 same) (before settled'.1 same') valid equal

/-- A socket is picked up, with its terminal if it has one. -/
theorem grab (ok : SlotsOk config hand sockTbl connections frees sockItems connItems)
    (sockEmpty : hand.sock = none) (termEmpty : hand.term = none) (sockId : config.SockId id)
    (active : (sockTbl id).state ≠ .inpool) {term : Option ℕ}
    (owns : term = none ∧ (sockTbl id).term = invalidTermId ∨
      term = some (sockTbl id).term ∧ config.TermId (sockTbl id).term) {refs : List ℕ} :
    SlotsOk config { hand with sock := some id, term, refs } sockTbl connections frees sockItems
      connItems := by
  have settled : hand.Settled config id := .of_none sockId sockEmpty
  have before : ∀ {id'}, Hand.Settled config { hand with sock := some id, term, refs } id' →
      hand.Settled config id' ∧ id' ≠ id := fun settled => settled_of_grab sockEmpty settled
  have outside : id ∉ sockItems := fun member => active ((ok.pooled id settled).mp member)
  refine
    { ok with
      sockInHand := ?_
      pooled := fun id' settled => ok.pooled id' (before settled).1
      sockets := fun id' settled => ok.sockets id' (before settled).1
      termInHand := ?_
      owner := ?_
      owned := ?_
      ownedOnce := ?_ }
  · intro id' same
    cases same
    exact ⟨sockId, outside⟩
  · intro conId inHand
    rcases owns with ⟨none, _⟩ | ⟨some, inRange⟩
    · rw [none] at inHand
      cases inHand
    · rw [some] at inHand
      cases inHand
      exact ⟨inRange, (ok.owned id settled inRange.ne).1⟩
  · intro conId inRange outside notInHand
    rcases ok.owner conId inRange outside (by rw [termEmpty]; exact nofun) with
      ⟨id', settled, equal⟩
    refine ⟨id', ⟨settled.1, ?_⟩, equal⟩
    intro same
    cases same
    rcases owns with ⟨_, invalid⟩ | ⟨some, _⟩
    · exact inRange.ne (equal ▸ invalid)
    · exact notInHand (by rw [some, equal])
  · intro id' settled' valid
    refine ⟨(ok.owned id' (before settled').1 valid).1, ?_⟩
    intro inHand
    rcases owns with ⟨none, _⟩ | ⟨some, _⟩
    · rw [none] at inHand
      cases inHand
    · rw [some] at inHand
      exact (before settled').2
        (ok.ownedOnce id' id (before settled').1 settled valid (Option.some.inj inHand).symm)
  · intro id' id'' settled settled'
    exact ok.ownedOnce id' id'' (before settled).1 (before settled').1

/-- A socket in hand is freed. -/
theorem returnSocket (ok : SlotsOk config hand sockTbl connections frees sockItems connItems)
    (inHand : hand.sock = some id) {sock : HSocket} (state : sock.state = .inpool)
    (term : sock.term = invalidTermId) (listen : sock.pListen = none)
    (handle : sock.handle = handleOf id (frees id + 1)) :
    SlotsOk config { hand with sock := none } (Function.update sockTbl id sock) connections
      (Function.update frees id (frees id + 1)) (sockItems ++ [id]) connItems := by
  rcases ok.sockInHand id inHand with ⟨sockId, outside⟩
  have before : ∀ {id'}, config.SockId id' → id' ≠ id → hand.Settled config id' := by
    intro id' sockId other
    refine ⟨sockId, ?_⟩
    intro same
    rw [inHand] at same
    exact other (Option.some.inj same).symm
  refine
    { ok with
      sockNodup := ?_
      sockIds := ?_
      sockInHand := nofun
      pooled := ?_
      sockets := ?_
      handles := ?_
      termInHand := ok.termInHand
      owner := ?_
      owned := ?_
      ownedOnce := ?_ }
  · exact List.nodup_append.mpr ⟨ok.sockNodup, by simp, by
      intro id' member id'' member'
      rw [List.mem_singleton.mp member']
      exact fun same => outside (same ▸ member)⟩
  · intro id' member
    rcases List.mem_append.mp member with old | new
    · exact ok.sockIds id' old
    · rw [List.mem_singleton.mp new]
      exact sockId
  · intro id' settled
    by_cases same : id' = id
    · rw [same, Function.update_self]
      simp [state]
    · rw [Function.update_of_ne same, ← ok.pooled id' (before settled.1 same)]
      simp [same]
  · intro id' settled
    by_cases same : id' = id
    · rw [same, Function.update_self]
      simp only [SocketOk, state]
      exact ⟨term, listen⟩
    · rw [Function.update_of_ne same]
      exact ok.sockets id' (before settled.1 same)
  · intro id' sockId
    by_cases same : id' = id
    · rw [same, Function.update_self, Function.update_self, handle]
    · rw [Function.update_of_ne same, Function.update_of_ne same]
      exact ok.handles id' sockId
  · intro conId inRange outside notInHand
    rcases ok.owner conId inRange outside notInHand with ⟨id', settled, owns⟩
    have other : id' ≠ id := fun same => settled.2 (by rw [inHand, same])
    exact ⟨id', ⟨settled.1, nofun⟩, by rw [Function.update_of_ne other, owns]⟩
  · intro id' settled valid
    by_cases same : id' = id
    · rw [same, Function.update_self] at valid
      exact absurd term valid
    · rw [Function.update_of_ne same] at valid ⊢
      exact ok.owned id' (before settled.1 same) valid
  · intro id' id'' settled settled' valid equal
    by_cases same : id' = id
    · rw [same, Function.update_self] at valid
      exact absurd term valid
    · by_cases same' : id'' = id
      · rw [equal, same', Function.update_self] at valid
        exact absurd term valid
      · rw [Function.update_of_ne same] at valid equal
        rw [Function.update_of_ne same'] at equal
        exact ok.ownedOnce id' id'' (before settled.1 same) (before settled'.1 same') valid equal

end Sockets

section Terminals

theorem takeTerminal
    (ok : SlotsOk config hand sockTbl connections frees sockItems (conId :: connItems))
    (empty : hand.term = none) :
    SlotsOk config { hand with term := some conId } sockTbl connections frees sockItems
      connItems := by
  have nodup := List.nodup_cons.mp ok.connNodup
  refine
    { ok with
      pooled := ok.pooled
      sockets := ok.sockets
      sockInHand := ok.sockInHand
      connNodup := nodup.2
      connIds := fun conId' member => ok.connIds conId' (List.mem_cons_of_mem conId member)
      termInHand := ?_
      owner := ?_
      owned := ?_
      ownedOnce := ok.ownedOnce
      void := fun conId' member => ok.void conId' (List.mem_cons_of_mem conId member) }
  · intro conId' same
    cases same
    exact ⟨ok.connIds conId List.mem_cons_self, nodup.1⟩
  · intro conId' inRange outside notInHand
    apply ok.owner conId' inRange
    · intro member
      rcases List.mem_cons.mp member with same | member
      · exact notInHand (by rw [same])
      · exact outside member
    · rw [empty]
      exact nofun
  · intro id settled valid
    have owned := (ok.owned id settled valid).1
    refine ⟨fun member => owned (List.mem_cons_of_mem conId member), ?_⟩
    intro same
    cases same
    exact owned List.mem_cons_self

theorem returnTerminal (ok : SlotsOk config hand sockTbl connections frees sockItems connItems)
    (inHand : hand.term = some conId) (void : (connections conId).voidFlds = connections conId) :
    SlotsOk config { hand with term := none } sockTbl connections frees sockItems
      (connItems ++ [conId]) := by
  rcases ok.termInHand conId inHand with ⟨inRange, outside⟩
  refine
    { ok with
      pooled := ok.pooled
      sockets := ok.sockets
      sockInHand := ok.sockInHand
      connNodup := ?_
      connIds := ?_
      termInHand := nofun
      owner := ?_
      owned := ?_
      ownedOnce := ok.ownedOnce
      void := ?_ }
  · exact List.nodup_append.mpr ⟨ok.connNodup, by simp, by
      intro conId' member conId'' member'
      rw [List.mem_singleton.mp member']
      exact fun same => outside (same ▸ member)⟩
  · intro conId' member
    rcases List.mem_append.mp member with old | new
    · exact ok.connIds conId' old
    · rw [List.mem_singleton.mp new]
      exact inRange
  · intro conId' inRange outside' _
    apply ok.owner conId' inRange (fun member => outside' (List.mem_append_left _ member))
    intro same
    rw [inHand] at same
    cases same
    exact outside' (List.mem_append_right _ List.mem_cons_self)
  · intro id settled valid
    rcases ok.owned id settled valid with ⟨owned, notInHand⟩
    refine ⟨?_, nofun⟩
    intro member
    rcases List.mem_append.mp member with old | new
    · exact owned old
    · exact notInHand (by rw [inHand, List.mem_singleton.mp new])
  · intro conId' member
    rcases List.mem_append.mp member with old | new
    · exact ok.void conId' old
    · rw [List.mem_singleton.mp new]
      exact void

/-- The terminals of settled sockets are not in hand. -/
theorem notInHand (ok : SlotsOk config hand sockTbl connections frees sockItems connItems)
    (inHand : hand.term = some conId) (settled : hand.Settled config id) :
    (sockTbl id).term ≠ conId := by
  intro same
  have valid : (sockTbl id).term ≠ invalidTermId := by
    rw [same]
    exact (ok.termInHand conId inHand).1.ne
  exact (ok.owned id settled valid).2 (by rw [inHand, same])

/-- A terminal in hand changes, and the regions of any. -/
theorem setTerminal (ok : SlotsOk config hand sockTbl connections frees sockItems connItems)
    {connections' : ℕ → Terminal} (same : ∀ conId', hand.term ≠ some conId' →
      (connections' conId').noRegions = (connections conId').noRegions) :
    SlotsOk config hand sockTbl connections' frees sockItems connItems := by
  refine { ok with sockets := ?_, void := ?_ }
  · intro id settled
    by_cases inHand : hand.term = some (sockTbl id).term
    · exact absurd rfl (ok.notInHand inHand settled)
    · exact (ok.sockets id settled).congr (same _ inHand)
  · intro conId' member
    have fields : (connections' conId').noRegions = (connections conId').noRegions := by
      apply same conId'
      intro inHand
      exact (ok.termInHand conId' inHand).2 member
    exact void_congr fields (ok.void conId' member)
where
  void_congr {terminal terminal' : Terminal} (fields : terminal'.noRegions = terminal.noRegions)
      (void : terminal.voidFlds = terminal) : terminal'.voidFlds = terminal' := by
    cases terminal
    cases terminal'
    simp only [Terminal.noRegions, Terminal.voidFlds, Terminal.mk.injEq] at fields void ⊢
    grind

end Terminals

end SlotsOk

end Hermes
