import Hermes.LinkSafety

/-!
# What the peer reads

`scanFrames` reads frames at consecutive edges of the peer's ring.  On a connection
that is not closed and whose writes the provider takes, the frames the peer has taken
and the ones it finds resident are a prefix of the canonical encoding of the messages
queued, so reassembling them gives a prefix of the messages; once everything queued
has been sent, delivered and taken, it gives all of them.  No step aborts.
-/

namespace Hermes

open Memory Packets

/-- The packets a peer finds that reads frames at consecutive edges from `edge` up to `limit`. -/
def scanFrames (memory : Memory UInt8) (rcvBuf : Span) (limit : ℕ) :
    ℕ → ℕ → Except Abort (List (Packet UInt8))
  | 0, _ => .ok []
  | fuel + 1, edge =>
      if limit ≤ edge then .ok []
      else do
        let (packet, pktSize) ← takeFrame memory rcvBuf (UInt64.ofNat edge)
        let rest ← scanFrames memory rcvBuf limit fuel (edge + pktSize)
        return packet :: rest

/-- The frames in the peer's ring that have arrived and are not consumed. -/
def Link.resident (config : LinkConfig) (link : Link) : Except Abort (List (Packet UInt8)) :=
  scanFrames link.rmt config.rcvBuf link.delivered (link.delivered - link.consumed) link.consumed

/-- The messages queued so far. -/
def Link.messages (link : Link) : List (List UInt8) := link.inserted.map fun req => req.buf.bytes

/-- The canonical encoding of messages. -/
def canonical (messages : List (List UInt8)) : List (Packet UInt8) :=
  messages.flatMap (encode packetSize)

/-- The connection stays open, buffers are aligned, and the provider takes the writes. -/
def Faithful (link : Link) : LinkAction → Prop
  | .call _ req => msgAlign ∣ req.buf.data
  | .run _ replies => link.term.rmtMemToken ≠ 0 ∧ accepted replies.secondHalf = true ∧
      accepted replies.firstHalf = true ∧
      (accepted replies.read = true ∨ replies.read = ndCanceled)
  | .close => False
  | _ => True

instance (link : Link) (action : LinkAction) : Decidable (Faithful link action) :=
  match action with
  | .call _ req => inferInstanceAs (Decidable (msgAlign ∣ req.buf.data))
  | .run _ replies => inferInstanceAs (Decidable (link.term.rmtMemToken ≠ 0 ∧
      accepted replies.secondHalf = true ∧ accepted replies.firstHalf = true ∧
      (accepted replies.read = true ∨ replies.read = ndCanceled)))
  | .close => .isFalse id
  | .enter _ | .deliver | .take | .publish | .land _ | .completeWrite _ | .completeRead =>
      .isTrue trivial

/-- Everything queued has been sent, delivered and taken. -/
structure Link.Drained (link : Link) : Prop where
  sndQue : link.term.sndQue = []
  wire : link.wire = []
  consumed : link.consumed = link.delivered

/-- What holds on a faithful connection beside flow control and the discipline of the threads: the
objects of the terminal are there, buffers are aligned, and every frame put down is delivered or
on the wire as a whole. -/
structure Sound (config : LinkConfig) (link : Link) : Prop where
  pMemRegion : link.term.pMemRegion.isSome
  pTagRegion : link.term.pTagRegion.isSome
  pQuePair : link.term.pQuePair.isSome
  sending : ∀ thread req, .sending req ∈ link.threads thread → msgAlign ∣ req.buf.data
  inserted : ∀ req ∈ link.inserted, msgAlign ∣ req.buf.data
  posted : ∀ emission ∈ link.emissions, emission.posted = true
  onWire : Chained Emission.edge Emission.size link.delivered (link.wire.map Transfer.emission)
    link.written
  complete : ∀ transfer ∈ link.wire, transfer.complete = true

section Scan

variable {config : LinkConfig} {memory : Memory UInt8}

/-- Scanning a stretch that shows a chain of frames finds their packets. -/
theorem scanFrames_eq {frames : List Emission} {low high fuel : ℕ}
    (chain : Chained Emission.edge Emission.size low frames high)
    (wellFormed : ∀ emission ∈ frames, emission.WellFormed config)
    (shown : ∀ emission ∈ frames,
      memory.Shows config.rcvData config.ring emission.edge emission.record)
    (enough : high - low ≤ fuel) :
    scanFrames memory config.rcvBuf high fuel low = .ok (frames.map Emission.packet) := by
  induction frames generalizing low fuel with
  | nil =>
      obtain rfl : low = high := chain
      cases fuel <;> simp [scanFrames]
  | cons emission frames ih =>
      have first : emission.edge = low := chain.1
      have wellFormedFirst := wellFormed emission List.mem_cons_self
      have positive := wellFormedFirst.low
      have further := chain.2.le
      simp only [msgEndSize] at positive
      have taken := takeFrame_eq wellFormedFirst (shown emission List.mem_cons_self)
      cases fuel with
      | zero => omega
      | succ fuel =>
          have rest : scanFrames memory config.rcvBuf high fuel (low + emission.size) =
              .ok (frames.map Emission.packet) := ih chain.2
            (fun other present => wellFormed other (List.mem_cons_of_mem _ present))
            (fun other present => shown other (List.mem_cons_of_mem _ present)) (by omega)
          rw [scanFrames, if_neg (by omega), ← first, taken]
          simp only [bind, Except.bind, first, rest]
          rfl

end Scan

section Steps

variable {config : LinkConfig} {link link' : Link}

/-- A thread's step starts no call of `Send`. -/
theorem RunStep.sending {thread : ℕ} {replies : SendReplies}
    (ran : RunStep config link thread replies link') {other : ℕ} {req : SndReq}
    (present : .sending req ∈ link'.threads other) : .sending req ∈ link.threads other := by
  have kept : ∀ {base : Link} {activation : Activation} {rest stack : List Activation},
      link.threads thread = activation :: rest → base.threads = link.threads →
      (.sending req ∈ stack → .sending req ∈ rest) →
      .sending req ∈ (base.setStack thread stack).threads other →
      .sending req ∈ link.threads other := by
    intro base activation rest stack stackEq threads below member
    by_cases same : other = thread
    · subst same
      rw [setStack_self] at member
      rw [stackEq]
      exact List.mem_cons_of_mem _ (below member)
    · rw [setStack_other base same, threads] at member
      exact member
  have afterRead : ∀ {packet : Option (NextPacket × HRESULT)} {rest : List Activation},
      .sending req ∈ afterEdge packet ++ rest → .sending req ∈ rest := by
    intro packet rest member
    cases packet <;> simpa [afterEdge] using member
  cases ran with
  | queued stackEq | closed stackEq | emptied stackEq =>
      exact kept stackEq rfl (fun member => member) present
  | skipped stackEq | read stackEq => exact kept stackEq rfl afterRead present
  | entered stackEq | checked stackEq | noSpace stackEq | space stackEq | left stackEq
  | dropped stackEq | posted stackEq | passed stackEq | again stackEq | finished stackEq
  | notified stackEq | returned stackEq | popped stackEq =>
      exact kept stackEq rfl (fun member => by simpa using member) present

/-- A request a thread's step inserts comes from its call of `Send`. -/
theorem RunStep.inserted {thread : ℕ} {replies : SendReplies}
    (ran : RunStep config link thread replies link') {req : SndReq}
    (present : req ∈ link'.inserted) :
    req ∈ link.inserted ∨ .sending req ∈ link.threads thread := by
  have fromCall : ∀ {sent rest}, link.threads thread = .sending sent :: rest →
      req ∈ link.inserted ++ [sent] → req ∈ link.inserted ∨ .sending req ∈ link.threads thread := by
    intro sent rest stackEq member
    rcases List.mem_append.mp member with before | new
    · exact Or.inl before
    · obtain rfl := List.mem_singleton.mp new
      exact Or.inr (by rw [stackEq]; exact List.mem_cons_self)
  cases ran with
  | queued stackEq | entered stackEq => exact fromCall stackEq present
  | _ => exact Or.inl present

end Steps

namespace Sound

variable {config : LinkConfig} {link link' : Link}

theorem start (started : (linkMachine config).start link) : Sound config link := by
  obtain ⟨terminal, mem, rmt, prepared, rfl⟩ := started
  exact
    { pMemRegion := prepared.pMemRegion
      pTagRegion := prepared.pTagRegion
      pQuePair := prepared.pQuePair
      sending := by simp
      inserted := by simp
      posted := by simp
      onWire := rfl
      complete := by simp }

/-- Soundness depends on the requests, the wire and the objects of the terminal only. -/
theorem frame (sound : Sound config link)
    (pMemRegion : link'.term.pMemRegion = link.term.pMemRegion)
    (pTagRegion : link'.term.pTagRegion = link.term.pTagRegion)
    (pQuePair : link'.term.pQuePair = link.term.pQuePair)
    (sending : ∀ thread req, .sending req ∈ link'.threads thread → msgAlign ∣ req.buf.data)
    (inserted : ∀ req ∈ link'.inserted, msgAlign ∣ req.buf.data)
    (emissions : link'.emissions = link.emissions) (wire : link'.wire = link.wire)
    (delivered : link'.delivered = link.delivered) (written : link'.written = link.written) :
    Sound config link' where
  pMemRegion := by rw [pMemRegion]; exact sound.pMemRegion
  pTagRegion := by rw [pTagRegion]; exact sound.pTagRegion
  pQuePair := by rw [pQuePair]; exact sound.pQuePair
  sending := sending
  inserted := inserted
  posted := by rw [emissions]; exact sound.posted
  onWire := by rw [wire, delivered, written]; exact sound.onWire
  complete := by rw [wire]; exact sound.complete

/-- A thread's step on an open connection. -/
theorem run (sound : Sound config link) (flow : Flow config link) (discipline : Discipline link)
    {thread : ℕ} {replies : SendReplies} (openToken : link.term.rmtMemToken ≠ 0)
    (takes : accepted replies.firstHalf = true)
    (ran : RunStep config link thread replies link') : Sound config link' := by
  have sending : ∀ other req, .sending req ∈ link'.threads other → msgAlign ∣ req.buf.data :=
    fun other req present => sound.sending other req (ran.sending present)
  have inserted : ∀ req ∈ link'.inserted, msgAlign ∣ req.buf.data := by
    intro req present
    rcases ran.inserted present with before | call
    · exact sound.inserted req before
    · exact sound.sending thread req call
  cases ran with
  | dropped stackEq emitted =>
      obtain ⟨message, index, ready⟩ := discipline.emitReady stackEq
      have emits := ready.emits flow emitted false
      rcases emits.outcome with ⟨closed, _⟩ | ⟨_, _, impossible⟩
      · exact absurd closed openToken
      · cases impossible
  | posted stackEq emitted =>
      obtain ⟨message, index, ready⟩ := discipline.emitReady stackEq
      have emits := ready.emits flow emitted true
      obtain rfl := emits.term
      refine
        { pMemRegion := sound.pMemRegion
          pTagRegion := sound.pTagRegion
          pQuePair := sound.pQuePair
          sending := sending
          inserted := inserted
          posted := ?_
          onWire := ?_
          complete := ?_ }
      · intro emission present
        rcases List.mem_append.mp present with before | new
        · exact sound.posted emission before
        · obtain rfl := List.mem_singleton.mp new
          rfl
      · have chain := sound.onWire.concat emits.edge
        rw [emits.size] at chain
        simpa [Link.setStack, Link.postedFrame, Link.emitted] using chain
      · intro transfer present
        rcases List.mem_append.mp present with before | new
        · exact sound.complete transfer before
        · obtain rfl := List.mem_singleton.mp new
          exact takes
  | _ => exact sound.frame rfl rfl rfl sending inserted rfl rfl rfl rfl

/-- Every step of a faithful connection. -/
theorem step (sound : Sound config link) (flow : Flow config link) (discipline : Discipline link)
    {action : LinkAction} (faithful : Faithful link action)
    (stepped : LinkStep config link action link') : Sound config link' := by
  cases stepped with
  | run ran => exact sound.run flow discipline faithful.1 faithful.2.2.1 ran
  | called free admitted =>
      rename_i thread req
      refine sound.frame rfl rfl rfl ?_ sound.inserted rfl rfl rfl rfl
      intro other sent present
      by_cases same : other = thread
      · subst same
        rw [setStack_self] at present
        rcases List.mem_cons.mp present with same | below
        · obtain rfl := Activation.sending.inj same
          exact faithful
        · exact sound.sending other sent below
      · rw [setStack_other link same] at present
        exact sound.sending other sent present
  | entered free idle queue =>
      rename_i thread
      refine sound.frame rfl rfl rfl ?_ sound.inserted rfl rfl rfl rfl
      intro other sent present
      by_cases same : other = thread
      · subst same
        rw [setStack_self] at present
        exact sound.sending other sent (by simpa using present)
      · rw [setStack_other _ same] at present
        exact sound.sending other sent present
  | applied head =>
      have chain := sound.onWire
      rw [head] at chain
      refine { sound with onWire := chain, complete := ?_ }
      intro transfer present
      rcases List.mem_cons.mp present with rfl | later
      · exact sound.complete ⟨_, _ :: _, _⟩ (by rw [head]; exact List.mem_cons_self)
      · exact sound.complete transfer (by rw [head]; exact List.mem_cons_of_mem _ later)
  | arrived head inOrder =>
      have chain := sound.onWire
      rw [head] at chain
      refine { sound with onWire := ?_, complete := ?_ }
      · rw [Emission.last, inOrder]
        exact chain.2
      · exact fun transfer present =>
          sound.complete transfer (by rw [head]; exact List.mem_cons_of_mem _ present)
  | lost head gap =>
      have chain := sound.onWire
      rw [head] at chain
      exact absurd ⟨sound.complete _ (by rw [head]; exact List.mem_cons_self), chain.1⟩ gap
  | closed => exact faithful.elim
  | _ => exact sound.frame rfl rfl rfl sound.sending sound.inserted rfl rfl rfl rfl

/-- The loop head of a terminal that waits finds its packet or no space. -/
theorem nextPacket_succeeds (discipline : Discipline link) (waiting : Waiting link)
    (queue : link.term.sndQue ≠ []) : ∃ found, link.term.nextPacket = .ok found := by
  obtain ⟨index, idx, ledger, _, more⟩ := waiting
  cases back : link.term.sndQue.getLast? with
  | none => exact absurd (List.getLast?_eq_none_iff.mp back) queue
  | some req =>
      have admits := (sendAdmits_iff _).mp
        (discipline.admitted req (ledger.mem_inserted back))
      obtain ⟨_, _, _, nextEq⟩ := Terminal.nextPacket_eq back idx (more req back) admits.1
      exact ⟨_, nextEq⟩

/-- No thread's step aborts on an open connection. -/
theorem runThread_succeeds (sound : Sound config link) (flow : Flow config link)
    (discipline : Discipline link) {thread : ℕ} {replies : SendReplies}
    (faithful : Faithful link (.run thread replies)) (reason : Abort) :
    link.runThread config thread replies ≠ .error (.abort reason) := by
  obtain ⟨_, second, first, answered⟩ := faithful
  cases stackEq : link.threads thread with
  | nil => simp [Link.runThread, stackEq]
  | cons activation rest =>
    cases activation with
    | entering =>
        obtain ⟨running, _, serves, _⟩ := discipline.owned stackEq rfl
        have entry : link.term.processSendQEntry = .ok () := auditAssert_of ⟨serves.2, running⟩ _
        simp [Link.runThread, stackEq, entry, runCode, Except.mapError, bind, Except.bind, pure,
          Except.pure]
    | looping =>
        obtain ⟨_, _, serves, _⟩ := discipline.owned stackEq rfl
        obtain ⟨found, nextEq⟩ := nextPacket_succeeds discipline serves.1 serves.2
        cases found <;> simp [Link.runThread, stackEq, nextEq, runCode, Except.mapError, bind,
          Except.bind, pure, Except.pure]
    | emitting next =>
        obtain ⟨_, _, serves, _⟩ := discipline.owned stackEq rfl
        obtain ⟨index, working, ledger, ready⟩ := serves.emitReady
        have srcAligned : 16 ∣ next.srcBuf.data := by
          have base := sound.inserted _ (ledger.mem_inserted working.back)
          rw [working.data]
          simp only [msgAlign, packetSize] at *
          omega
        obtain ⟨⟨term, mem, posting⟩, emitted⟩ :=
          ready.succeeds flow replies srcAligned sound.pMemRegion sound.pQuePair second first
        cases posting <;> simp [Link.runThread, stackEq, emitted, runCode, Except.mapError, bind,
          Except.bind, pure, Except.pure]
    | checkingEdge packet =>
        cases check : link.term.checkRmtEdge <;> simp [Link.runThread, stackEq, check]
    | readingEdge rmtToken packet =>
        have read : link.term.readRmtEdge rmtToken replies.read = .ok (_, _) :=
          Terminal.readRmtEdge_ok_iff.mpr
            ⟨sound.pTagRegion, sound.pQuePair, answered, rfl, rfl⟩
        rw [Link.runThread, stackEq]
        simp only [read, runCode, Except.mapError, bind, Except.bind, pure, Except.pure]
        simp
    | popping req =>
        obtain ⟨_, _, serves, _⟩ := discipline.owned stackEq rfl
        obtain ⟨⟨term, empty⟩, popped⟩ := Terminal.popLocked_succeeds serves.1
        simp [Link.runThread, stackEq, popped, runCode, Except.mapError, bind, Except.bind, pure,
          Except.pure]
    | _ => simp [Link.runThread, stackEq]

/-- No step of a faithful connection aborts the process. -/
theorem step_succeeds (sound : Sound config link) (flow : Flow config link)
    (discipline : Discipline link) {action : LinkAction} (faithful : Faithful link action)
    (reason : Abort) : link.step config action ≠ .error (.abort reason) := by
  cases action with
  | run thread replies => exact sound.runThread_succeeds flow discipline faithful reason
  | take =>
      obtain ⟨old, resident, fresh, history⟩ := flow.history
      by_cases available : link.consumed < link.delivered
      · cases resident with
        | nil =>
            have : link.consumed = link.delivered := history.residentChain
            omega
        | cons emission rest =>
            have first : emission.edge = link.consumed := history.residentChain.1
            have taken := takeFrame_eq (history.wellFormed emission
              (history.mem_emissions (List.mem_append_left _ List.mem_cons_self)))
              (history.remoteShown emission List.mem_cons_self)
            rw [first] at taken
            simp [Link.step, available, taken, runCode, Except.mapError, bind, Except.bind, pure,
              Except.pure]
      · simp [Link.step, available]
  | deliver =>
      simp only [Link.step]
      split <;> simp
  | _ =>
      simp only [Link.step]
      repeat' split
      all_goals simp

end Sound

section Stream

variable {config : LinkConfig} {link : Link}

theorem faithful_invariant (reachable : (linkMachine config).Reachable Faithful link) :
    Flow config link ∧ Discipline link ∧ Sound config link := by
  refine reachable.invariant
    (fun link => Flow config link ∧ Discipline link ∧ Sound config link) ?_ ?_
  · exact fun started => ⟨.start started, .start started, .start started⟩
  · rintro link action link' ⟨flow, discipline, sound⟩ faithful stepped
    have cases := step_cases stepped
    exact ⟨flow.step discipline.emitReady cases, discipline.step flow cases,
      sound.step flow discipline faithful cases⟩

theorem canonical_messages (link : Link) :
    canonical link.messages = link.inserted.flatMap SndReq.packets := by
  simp only [canonical, Link.messages, List.flatMap_map]
  rfl

/-- The frames the peer has taken and finds resident are posted frames, in order. -/
theorem resident_prefix (flow : Flow config link) :
    ∃ resident, link.resident config = .ok resident ∧
      link.taken ++ resident <+: link.postedPackets := by
  obtain ⟨old, resident, fresh, history⟩ := flow.history
  refine ⟨resident.map Emission.packet, ?_, ?_⟩
  · exact scanFrames_eq history.residentChain
      (fun emission present => history.wellFormed emission
        (history.mem_emissions (List.mem_append_left _ present)))
      history.remoteShown le_rfl
  · have posted : (old ++ resident).filter (·.posted) = old ++ resident :=
      List.filter_eq_self.mpr history.posted
    rw [history.taken, ← List.map_append, Link.postedPackets, history.emissions,
      List.filter_append, posted]
    exact (List.prefix_append _ _).map _

/-- When everything is sent, delivered and taken, the peer has taken every packet. -/
theorem drained_taken (flow : Flow config link) (discipline : Discipline link)
    (sound : Sound config link) (drained : link.Drained) :
    link.taken = canonical link.messages := by
  obtain ⟨old, resident, fresh, history⟩ := flow.history
  have written : link.delivered = link.written := by
    have chain := sound.onWire
    rw [drained.wire] at chain
    exact chain
  have freshEmpty : fresh = [] := by
    have chain := history.freshChain
    rw [← written] at chain
    exact chain.eq_nil fun emission present =>
      history.positive emission (history.mem_emissions (List.mem_append_right _ present))
  have residentEmpty : resident = [] := by
    have chain := history.residentChain
    rw [← drained.consumed] at chain
    exact chain.eq_nil fun emission present =>
      history.positive emission (history.mem_emissions (List.mem_append_left _ present))
  have all : link.taken = link.postedPackets := by
    have posted : link.emissions.filter (·.posted) = link.emissions :=
      List.filter_eq_self.mpr sound.posted
    rw [history.taken, Link.postedPackets, posted, history.emissions, freshEmpty, residentEmpty]
    simp
  have inOrder := discipline.inOrder
  have called : link.called.map Prod.fst = link.inserted := by
    have popped : link.inserted = link.popped := by
      rw [inOrder.queue, drained.sndQue]
      simp
    exact inOrder.called.eq_of_length_le (popped ▸ inOrder.calledBefore.length_le)
  have after := inOrder.calledAfter
  rw [called] at after
  rw [all, canonical_messages]
  exact inOrder.processed.eq_of_length_le after.length_le

/-- On a faithful connection nothing aborts, the frames in the peer's ring continue what it has
taken to a prefix of the canonical encoding at every moment, reassembling them gives whole messages
in order and the beginning of the next one, and once the connection is drained exactly the messages
sent. -/
theorem peer_recovers_messages (reachable : (linkMachine config).Reachable Faithful link) :
    (∀ action reason, Faithful link action →
      (linkMachine config).step link action ≠ .error (.abort reason)) ∧
    (∃ resident, link.resident config = .ok resident ∧
      link.taken ++ resident <+: canonical link.messages ∧
      ∃ assembly, assemble (link.taken ++ resident) = some assembly ∧
        assembly.messages <+: link.messages ∧
        ∀ unfinished ∈ assembly.unfinished, ∃ message,
          assembly.messages ++ [message] <+: link.messages ∧ unfinished.body <+: message) ∧
    (link.Drained → assemble link.taken = some ⟨link.messages, none⟩) := by
  obtain ⟨flow, discipline, sound⟩ := faithful_invariant reachable
  refine ⟨fun action reason faithful => sound.step_succeeds flow discipline faithful reason,
    ?_, ?_⟩
  · obtain ⟨resident, found, isPrefix⟩ := resident_prefix flow
    have canonicalPrefix : link.taken ++ resident <+: canonical link.messages := by
      rw [canonical_messages]
      exact isPrefix.trans discipline.inOrder.processed
    exact ⟨resident, found, canonicalPrefix, assemble_prefix packetSize_pos canonicalPrefix⟩
  · intro drained
    rw [drained_taken flow discipline sound drained]
    exact assemble_flatMap packetSize_pos _

/-- The peer has taken the first message, and the second one is in its ring. -/
theorem peer_recovers_messages_two_calls :
    ∃ link : Link, link.taken = [⟨0, 16, List.replicate 16 0x41⟩] ∧
      link.resident smallRing = .ok [⟨0, 32, List.replicate 32 0x42⟩] ∧
      link.taken ++ [⟨0, 32, List.replicate 32 0x42⟩] <+: canonical link.messages := by
  have passes : (((linkMachine smallRing).guarded
      (fun link action => Faithful link action) .blocked).execute smallRing.freshLink
        (sampleCall (filledReq 16 0x41) ++ [.deliver, .deliver, .take] ++
          sampleCall (filledReq 32 0x42) ++ [.deliver, .deliver])).toOption.any
            (fun link => link.taken = [⟨0, 16, List.replicate 16 0x41⟩] ∧
              (link.resident smallRing).toOption = some [⟨0, 32, List.replicate 32 0x42⟩]) =
                true := by
    decide +kernel
  rcases Machine.Run.of_checked (fun _ _ => of_decide_eq_true) passes with ⟨link, run, holds⟩
  rcases of_decide_eq_true holds with ⟨taken, shown⟩
  have recovers := peer_recovers_messages ⟨_, smallRing.start_freshLink, run⟩
  rcases recovers with ⟨_, ⟨resident, found, isPrefix, _⟩, _⟩
  rw [found] at shown
  cases shown
  exact ⟨link, taken, found, isPrefix⟩

end Stream

end Hermes
