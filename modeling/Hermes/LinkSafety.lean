import Hermes.LinkRun

/-!
# Safety of sending

Two results on every reachable state of a connection, whatever the threads, the
wire, the peer and the provider do.  `flow_control_safe`: the writing edge never
gets further than the ring size ahead of the peer, the space computation never
underflows, and no frame touches a byte of a frame the peer has not consumed.
`sends_in_order`: one thread at a time drains the queue, in order, and every request
is notified once, after its packets are posted and before it leaves the queue.
-/

namespace Hermes

open Memory Packets

/-- Every action is admitted. -/
def AnyAction (_ : Link) (_ : LinkAction) : Prop := True

/-- Ring positions of the bytes of a frame. -/
def Emission.positions (config : LinkConfig) (emission : Emission) : Set ℕ :=
  Window.positions config.ring emission.edge emission.size

/-- Flow control holds: the edges bound what is on the way, frames the peer has not consumed share
no byte, and what is still to be written lies inside such a frame. -/
structure FlowSafe (config : LinkConfig) (link : Link) : Prop where
  writeEdge : link.term.sndEnd.writeEdge = UInt64.ofNat link.written
  trailingEdge : link.term.sndEnd.trailingEdge = UInt64.ofNat link.landed
  consumed_le : link.consumed ≤ link.written
  written_le : link.written ≤ link.consumed + config.ring
  unconsumed : (link.term.sndEnd.writeEdge - UInt64.ofNat link.consumed).toNat =
    link.written - link.consumed
  written_le_landed : link.written ≤ link.landed
  available : (link.term.sndEnd.trailingEdge - link.term.sndEnd.writeEdge).toNat =
    link.landed - link.written
  apart : link.emissions.Pairwise fun first second => link.consumed < first.last →
    Disjoint (first.positions config) (second.positions config)
  intact : ∀ emission ∈ link.emissions, link.consumed < emission.last →
    link.mem.Shows config.sendBuf.data config.ring emission.edge emission.record
  posted : ∀ transfer ∈ link.wire, transfer.emission ∈ link.emissions ∧
    link.consumed < transfer.emission.last ∧
    ∀ write ∈ transfer.writes, ∀ offset < write.2.length,
      ∃ position ∈ transfer.emission.positions config,
        write.1 + offset = config.rcvData + position

section FlowSafe

variable {config : LinkConfig} {link link' : Link}

theorem Flow.safe (flow : Flow config link) : FlowSafe config link := by
  obtain ⟨old, resident, fresh, history⟩ := flow.history
  have writtenLe := flow.written_le
  have landedLe := flow.landed_le
  have consumedLe := flow.consumed_le
  have ringLt := config.ring_lt
  have oldLast : ∀ emission ∈ old, emission.last ≤ link.consumed :=
    fun emission present => (history.oldChain.mem_bounds present).2
  have unconsumed : ∀ emission ∈ link.emissions, link.consumed < emission.last →
      emission ∈ resident ++ fresh := by
    intro emission present later
    rw [history.emissions, List.append_assoc] at present
    rcases List.mem_append.mp present with before | after
    · have := oldLast emission before
      omega
    · exact after
  refine
    { writeEdge := flow.writeEdge
      trailingEdge := flow.trailingEdge
      consumed_le := by omega
      written_le := by omega
      unconsumed := ?_
      written_le_landed := writtenLe
      available := flow.available
      apart := ?_
      intact := fun emission present later =>
        history.localShown emission (unconsumed emission present later)
      posted := ?_ }
  · rw [flow.writeEdge, UInt64.toNat_sub, UInt64.toNat_ofNat', UInt64.toNat_ofNat']
    omega
  · have chain : Chained Emission.edge Emission.size 0 link.emissions link.written := by
      rw [history.emissions]
      exact (history.oldChain.append history.residentChain).append history.freshChain
    refine List.Pairwise.imp_of_mem ?_ chain.pairwise
    intro first second firstIn secondIn before later
    have low := history.window (unconsumed first firstIn later)
    have high := chain.mem_bounds secondIn
    exact Window.positions_disjoint low.1 before (by omega)
  · intro transfer present
    have inFresh := List.mem_append_right resident (history.wirePosted transfer present).1
    have wellFormed := history.wellFormed _ (history.mem_emissions inFresh)
    have positive := history.positive _ (history.mem_emissions inFresh)
    have bounds := history.window inFresh
    refine ⟨history.mem_emissions inFresh, by rw [Emission.last]; omega, ?_⟩
    intro write member offset inside
    obtain ⟨skip, segment⟩ := history.wireSegments transfer present write member
    have bound := segment.bound
    have length := wellFormed.length
    exact ⟨_, ⟨skip + offset, by omega, rfl⟩, segment.address_add inside⟩

/-- A step changes local bytes only where it puts down the frame it adds to the history. -/
theorem local_changes (flow : Flow config link) (discipline : Discipline link)
    {action : LinkAction} (stepped : LinkStep config link action link') {place : ℕ}
    (changed : link'.mem place ≠ link.mem place) :
    ∃ emission, link'.emissions = link.emissions ++ [emission] ∧
      ∃ position ∈ emission.positions config, place = config.sendBuf.data + position := by
  have putsDown : ∀ {thread replies next rest term mem posting posted},
      link.threads thread = .emitting next :: rest →
      link.term.emitPacket link.mem config.sendBuf next replies = .ok (term, mem, posting) →
      mem place ≠ link.mem place →
      ∃ position ∈ Emission.positions config
        (({ link with term, mem } : Link).recordFrame config next.pktSize posted),
        place = config.sendBuf.data + position := by
    intro thread replies next rest term mem posting posted stackEq emitted changed
    obtain ⟨message, index, ready⟩ := discipline.emitReady stackEq
    have emits := ready.emits flow emitted posted
    obtain ⟨offset, inside, placed⟩ := emits.putDown.changed changed
    exact ⟨_, ⟨offset, by rw [← emits.wellFormed.length]; exact inside, rfl⟩, placed⟩
  cases stepped with
  | run ran =>
      cases ran with
      | dropped stackEq emitted => exact ⟨_, rfl, putsDown stackEq emitted changed⟩
      | posted stackEq emitted => exact ⟨_, rfl, putsDown stackEq emitted changed⟩
      | _ => exact absurd rfl changed
  | _ => exact absurd rfl changed

/-- A step changes remote bytes only inside the frame whose write it applies. -/
theorem remote_changes (flow : Flow config link) {action : LinkAction}
    (stepped : LinkStep config link action link') {place : ℕ}
    (changed : link'.rmt place ≠ link.rmt place) :
    ∃ transfer ∈ link.wire, ∃ position ∈ transfer.emission.positions config,
      place = config.rcvData + position := by
  cases stepped with
  | applied head =>
      obtain ⟨low, high⟩ := write_changed changed
      obtain ⟨offset, rfl⟩ := Nat.exists_eq_add_of_le low
      refine ⟨_, by rw [head]; exact List.mem_cons_self, ?_⟩
      exact (flow.safe.posted _ (by rw [head]; exact List.mem_cons_self)).2.2 _
        List.mem_cons_self offset (by omega)
  | run ran => cases ran <;> exact absurd rfl changed
  | _ => exact absurd rfl changed

/-- Flow control is safe in every reachable state: the edges keep their distance, also modulo
2⁶⁴, and every byte a step writes, locally or at the peer, belongs to a frame that shares no byte
with any other frame the peer has not consumed. -/
theorem flow_control_safe (reachable : (linkMachine config).Reachable AnyAction link) :
    FlowSafe config link ∧
      ∀ action link', (linkMachine config).step link action = .ok link' →
        FlowSafe config link' ∧
        (∀ place, link'.mem place ≠ link.mem place →
          ∃ emission, link'.emissions = link.emissions ++ [emission] ∧
            ∃ position ∈ emission.positions config, place = config.sendBuf.data + position) ∧
        (∀ place, link'.rmt place ≠ link.rmt place →
          ∃ transfer ∈ link.wire, ∃ position ∈ transfer.emission.positions config,
            place = config.rcvData + position) := by
  obtain ⟨flow, discipline⟩ := link_invariant reachable
  refine ⟨flow.safe, ?_⟩
  intro action link' stepped
  have cases := step_cases stepped
  have next := link_invariant (reachable.tail trivial stepped)
  exact ⟨next.1.safe, fun _ changed => local_changes flow discipline cases changed,
    fun _ changed => remote_changes flow cases changed⟩

/-- A ring of the smallest size the factory admits. -/
def smallRing : LinkConfig where
  sendBuf := ⟨0x10000, 4096⟩
  rcvData := 0x20000
  exponent := 12
  small := by decide
  power := rfl
  aligned := by decide

/-- After three messages of which nothing is consumed, the safety of flow control applies. -/
theorem flow_control_safe_three_frames :
    ∃ link, link.written = 96 ∧ link.consumed = 0 ∧ FlowSafe smallRing link := by
  obtain ⟨link, reachable, burst⟩ := bursts smallRing 3 (by decide)
  have reached : (linkMachine smallRing).Reachable AnyAction link :=
    reachable.mono fun _ => trivial
  refine ⟨link, burst.written, ?_, (flow_control_safe reached).1⟩
  exact burst.consumed

end FlowSafe

/-- The request a thread works on. -/
def Activation.request? : Activation → Option SndReq
  | emitting next => some next.req
  | checkingEdge (some (next, _)) | readingEdge _ (some (next, _)) | advancing next _ =>
      some next.req
  | notifying req _ | inCallback req | popping req => some req
  | _ => none

/-- Requests are processed, notified and popped in the order of insertion: each is notified once,
after all its packets are posted and before it leaves the queue. -/
structure InOrder (link : Link) : Prop where
  queue : link.inserted = link.popped ++ link.term.sndQue.reverse
  processed : link.postedPackets <+: link.inserted.flatMap SndReq.packets
  called : link.called.map Prod.fst <+: link.inserted
  calledAfter : (link.called.map Prod.fst).flatMap SndReq.packets <+: link.postedPackets
  calledBefore : link.popped <+: link.called.map Prod.fst

/-- Sends are serialized: one thread at a time between setting and clearing the flag, which enters
on a queue that is not empty and keeps its request at the back until it pops it. -/
structure SendsInOrder (link : Link) : Prop extends InOrder link where
  exclusive : ∀ first second left right, left ∈ link.threads first → right ∈ link.threads second →
    left.owns = true → right.owns = true → first = second ∧ left = right
  flagged : ∀ thread activation, activation ∈ link.threads thread → activation.owns = true →
    link.term.sndRunning = true
  entry : ∀ thread rest, link.threads thread = .entering :: rest →
    link.term.sndQue ≠ [] ∧ link.term.sndRunning = true ∧
      link.term.processSendQEntry = .ok ()
  back : ∀ thread activation req, activation ∈ link.threads thread →
    activation.request? = some req → link.term.sndQue.getLast? = some req
  noRace : ∀ thread rest req, link.threads thread = .popping req :: rest →
    ∃ result, link.term.popLocked req = .ok result

section SendsInOrder

variable {config : LinkConfig} {link : Link}

theorem StackShape.owner_eq {stack : List Activation} (shape : StackShape stack)
    {activation : Activation} (present : activation ∈ stack) (owns : activation.owns = true) :
    owner stack = some activation := by
  cases shape with
  | idle => simp at present
  | single other =>
      obtain rfl := List.mem_singleton.mp present
      exact owner_cons owns []
  | nested req served =>
      rcases List.mem_cons.mp present with rfl | below
      · simp [Activation.owns] at owns
      · obtain rfl := List.mem_singleton.mp below
        rfl

theorem Link.currentPackets_prefix (link : Link) :
    link.currentPackets <+: link.term.sndQue.reverse.flatMap SndReq.packets := by
  cases back : link.term.sndQue.getLast? with
  | none => simp [Link.currentPackets, back]
  | some req =>
      have split : link.term.sndQue = link.term.sndQue.dropLast ++ [req] :=
        (List.dropLast_append_getLast? req back).symm
      have current : link.currentPackets = req.packets := by simp [Link.currentPackets, back]
      rw [current, split]
      simp

theorem Ledger.inOrder {done : ℕ} {notified : List SndReq} (ledger : Ledger link done notified)
    (here : notified <+: link.term.sndQue.reverse)
    (whole : notified.flatMap SndReq.packets <+: link.currentPackets.take done) : InOrder link where
  queue := ledger.inserted
  processed := by
    rw [ledger.posted, ledger.inserted, List.flatMap_append]
    exact (List.prefix_append_right_inj _).mpr
      ((List.take_prefix _ _).trans link.currentPackets_prefix)
  called := by
    rw [ledger.called, ledger.inserted]
    exact (List.prefix_append_right_inj _).mpr here
  calledAfter := by
    rw [ledger.called, ledger.posted, List.flatMap_append]
    exact (List.prefix_append_right_inj _).mpr whole
  calledBefore := by
    rw [ledger.called]
    exact List.prefix_append _ _

/-- Whatever the owner of the flag executes next, the ledgers are in order. -/
theorem Activation.Serves.inOrder {activation : Activation} (serves : activation.Serves link) :
    InOrder link := by
  have finished : ∀ {req : SndReq}, link.term.sndQue.getLast? = some req →
      Ledger link (count packetSize req.buf.bytes) [req] → InOrder link := by
    intro req back ledger
    have split : link.term.sndQue = link.term.sndQue.dropLast ++ [req] :=
      (List.dropLast_append_getLast? req back).symm
    have current : link.currentPackets = req.packets := by simp [Link.currentPackets, back]
    refine ledger.inOrder ?_ ?_
    · rw [split]
      simp
    · rw [current, List.take_of_length_le (by simp [SndReq.packets])]
      simp
  have unfinished : ∀ {done : ℕ}, Ledger link done [] → InOrder link :=
    fun ledger => ledger.inOrder List.nil_prefix List.nil_prefix
  cases activation with
  | entering | looping | full | closing =>
      obtain ⟨⟨_, _, ledger, _⟩, _⟩ := serves
      exact unfinished ledger
  | emitting next =>
      obtain ⟨_, _, ledger, _⟩ := serves
      exact unfinished ledger
  | checkingEdge packet | readingEdge _ packet =>
      cases packet with
      | none => exact serves.elim
      | some packet =>
          obtain ⟨_, _, ledger⟩ := serves
          exact unfinished ledger
  | advancing next hr =>
      obtain ⟨_, _, ledger⟩ := serves
      exact unfinished ledger
  | notifying req _ => exact unfinished serves.2.2
  | inCallback req | popping req => exact finished serves.1 serves.2.2
  | sending _ => exact serves.elim

theorem Discipline.inOrder (discipline : Discipline link) : InOrder link := by
  cases running : link.term.sndRunning with
  | false =>
      obtain ⟨_, _, _, ledger, _⟩ := (discipline.outside running)
      exact ledger.inOrder List.nil_prefix List.nil_prefix
  | true =>
      obtain ⟨_, _, _, _, serves⟩ := discipline.inside running
      exact serves.inOrder

/-- The request a thread works on is at the back of the queue. -/
theorem Activation.Serves.back {activation : Activation} {req : SndReq}
    (serves : activation.Serves link) (works : activation.request? = some req) :
    link.term.sndQue.getLast? = some req := by
  cases activation with
  | emitting next =>
      obtain ⟨_, working, _⟩ := serves
      obtain rfl := Option.some.inj works
      exact working.back
  | checkingEdge packet | readingEdge _ packet =>
      cases packet with
      | none => exact serves.elim
      | some packet =>
          obtain ⟨_, working, _⟩ := serves
          obtain rfl := Option.some.inj works
          exact working.back
  | advancing next hr =>
      obtain ⟨_, working, _⟩ := serves
      obtain rfl := Option.some.inj works
      exact working.back
  | notifying other _ | inCallback other | popping other =>
      obtain rfl := Option.some.inj works
      exact serves.1
  | _ => simp [Activation.request?] at works

theorem Activation.owns_of_request? {activation : Activation} {req : SndReq}
    (works : activation.request? = some req) : activation.owns = true := by
  cases activation with
  | checkingEdge packet | readingEdge _ packet =>
      cases packet with
      | none => simp [Activation.request?] at works
      | some packet => rfl
  | _ => first | rfl | simp [Activation.request?] at works

/-- The critical section at the end of a turn, run on the request at the back, does not fail. -/
theorem Terminal.popLocked_succeeds {terminal : Terminal} {req : SndReq}
    (back : terminal.sndQue.getLast? = some req) :
    ∃ result, terminal.popLocked req = .ok result := by
  simp only [Terminal.popLocked, deref, back, auditAssert, if_true, bind, Except.bind]
  split <;> exact ⟨_, rfl⟩

/-- For any number of threads and any interleaving of their steps, sends are serialized and
notified in order. -/
theorem sends_in_order (reachable : (linkMachine config).Reachable AnyAction link) :
    SendsInOrder link := by
  have discipline := (link_invariant reachable).2
  have inOrder := discipline.inOrder
  have mine : ∀ thread activation, activation ∈ link.threads thread → activation.owns = true →
      owner (link.threads thread) = some activation :=
    fun thread _ present owns => (discipline.shape thread).owner_eq present owns
  have running : ∀ thread activation, activation ∈ link.threads thread → activation.owns = true →
      link.term.sndRunning = true := by
    intro thread activation present owns
    by_contra idle
    have none := (discipline.outside (by simpa using idle)).1 thread
    exact absurd (mine thread activation present owns) (by simp [none])
  have serves : ∀ thread activation, activation ∈ link.threads thread → activation.owns = true →
      activation.Serves link := by
    intro thread activation present owns
    obtain ⟨holder, held, holds, others, serves⟩ :=
      discipline.inside (running thread activation present owns)
    have own := mine thread activation present owns
    have same : thread = holder := by
      by_contra different
      simp [others thread different] at own
    subst same
    obtain rfl := Option.some.inj (own.symm.trans holds)
    exact serves
  refine
    { inOrder with
      exclusive := ?_
      flagged := running
      entry := ?_
      back := ?_
      noRace := ?_ }
  · intro first second left right leftIn rightIn leftOwns rightOwns
    obtain ⟨holder, held, _, others, _⟩ :=
      discipline.inside (running first left leftIn leftOwns)
    have leftOwner := mine first left leftIn leftOwns
    have rightOwner := mine second right rightIn rightOwns
    have firstHolder : first = holder := by
      by_contra different
      simp [others first different] at leftOwner
    have secondHolder : second = holder := by
      by_contra different
      simp [others second different] at rightOwner
    subst firstHolder secondHolder
    exact ⟨rfl, Option.some.inj (leftOwner.symm.trans rightOwner)⟩
  · intro thread rest stackEq
    obtain ⟨flag, _, served, _⟩ := discipline.owned stackEq rfl
    exact ⟨served.2, flag, auditAssert_of ⟨served.2, flag⟩ _⟩
  · intro thread activation req present works
    exact (serves thread activation present (Activation.owns_of_request? works)).back works
  · intro thread rest req stackEq
    obtain ⟨_, _, served, _⟩ := discipline.owned stackEq rfl
    exact Terminal.popLocked_succeeds served.1

/-- After three calls of `Send` by one thread, the three requests are notified and gone. -/
theorem sends_in_order_three_calls :
    ∃ link, link.written = 96 ∧ link.term.sndQue = [] ∧ SendsInOrder link := by
  obtain ⟨link, reachable, burst⟩ := bursts smallRing 3 (by decide)
  exact ⟨link, burst.written, burst.sndQue, sends_in_order (reachable.mono fun _ => trivial)⟩

end SendsInOrder

end Hermes
