import Hermes.LinkFlow

/-!
# One thread drains the queue

`Discipline` is the invariant of the threads.  `sndRunning` is set exactly while one
thread is between setting and clearing it, and what this thread executes next fixes,
through `Activation.Serves`, where it stands in the queue: which request is at the
back, which packets of it are posted and whether its callback has run.  While no
thread has the flag, the terminal is between two packets (`Waiting`).
-/

namespace Hermes

open Memory Packets

/-- The packets of a request. -/
def SndReq.packets (req : SndReq) : List (Packet UInt8) := encode packetSize req.buf.bytes

namespace Link

/-- The packets of the frames posted so far. -/
def postedPackets (link : Link) : List (Packet UInt8) :=
  (link.emissions.filter (·.posted)).map Emission.packet

/-- The packets of the request at the back of the queue. -/
def currentPackets (link : Link) : List (Packet UInt8) :=
  (link.term.sndQue.getLast?.map SndReq.packets).getD []

end Link

/-- The histories agree: every request inserted has left the queue or waits in it, those that
left have been notified (and the ones in `notified` too), and the packets posted are those of the
requests that left and the first `done` ones of the request at the back. -/
structure Ledger (link : Link) (done : ℕ) (notified : List SndReq) : Prop where
  inserted : link.inserted = link.popped ++ link.term.sndQue.reverse
  called : link.called.map Prod.fst = link.popped ++ notified
  posted : link.postedPackets =
    link.popped.flatMap SndReq.packets ++ link.currentPackets.take done

/-- The terminal is between two packets. -/
def Waiting (link : Link) : Prop :=
  ∃ index : ℕ, link.term.mSndIdx.toInt = index ∧ Ledger link index [] ∧
    (link.term.sndQue = [] → index = 0) ∧
    ∀ req, link.term.sndQue.getLast? = some req → index < count packetSize req.buf.bytes

/-- A thread works on packet `index` of the request at the back. -/
structure Working (link : Link) (next : NextPacket) (index : ℕ) : Prop where
  back : link.term.sndQue.getLast? = some next.req
  atPacket : AtPacket link.term next.req.buf.bytes index next.srcBuf
  aligned : msgAlign ∣ next.req.buf.size
  data : next.srcBuf.data = next.req.buf.data + index * packetSize

/-- What the thread that has `m_sndRunning` relies on, by what it executes next. -/
def Activation.Serves (link : Link) : Activation → Prop
  | entering | looping | full | closing => Waiting link ∧ link.term.sndQue ≠ []
  | emitting next =>
      ∃ index, Working link next index ∧ Ledger link index [] ∧
        next.pktSize = min next.srcBuf.size packetSize + 2 * msgEndSize ∧
        link.written + next.pktSize ≤ link.landed
  | checkingEdge (some (next, _)) | readingEdge _ (some (next, _)) | advancing next _ =>
      ∃ index, Working link next index ∧ Ledger link (index + 1) []
  | notifying req _ =>
      link.term.sndQue.getLast? = some req ∧ link.term.mSndIdx = 0 ∧
        Ledger link (count packetSize req.buf.bytes) []
  | inCallback req | popping req =>
      link.term.sndQue.getLast? = some req ∧ link.term.mSndIdx = 0 ∧
        Ledger link (count packetSize req.buf.bytes) [req]
  | sending _ | checkingEdge none | readingEdge _ none => False

/-- What a thread can be in: nothing, one activation, or a call of `Send` made by a callback. -/
inductive StackShape : List Activation → Prop where
  | idle : StackShape []
  | single (activation : Activation) : StackShape [activation]
  | nested (req served : SndReq) : StackShape [.sending req, .inCallback served]

/-- The activation of a thread that lies between setting and clearing `m_sndRunning`. -/
def owner (stack : List Activation) : Option Activation := stack.find? Activation.owns

structure Discipline (link : Link) : Prop where
  shape : ∀ thread, StackShape (link.threads thread)
  sending : ∀ thread req, .sending req ∈ link.threads thread → sendAdmits req.buf = true
  admitted : ∀ req ∈ link.inserted, sendAdmits req.buf = true
  outside : link.term.sndRunning = false →
    (∀ thread, owner (link.threads thread) = none) ∧ Waiting link
  inside : link.term.sndRunning = true →
    ∃ thread activation, owner (link.threads thread) = some activation ∧
      (∀ other, other ≠ thread → owner (link.threads other) = none) ∧ activation.Serves link

section Frame

variable {link link' : Link}

/-- The parts of the state the invariant of the threads reads. -/
structure SameLedgers (link link' : Link) : Prop where
  sndQue : link'.term.sndQue = link.term.sndQue
  mSndIdx : link'.term.mSndIdx = link.term.mSndIdx
  inserted : link'.inserted = link.inserted
  called : link'.called = link.called
  popped : link'.popped = link.popped
  emissions : link'.emissions = link.emissions

theorem Ledger.frame {done : ℕ} {notified : List SndReq} (ledger : Ledger link done notified)
    (same : SameLedgers link link') : Ledger link' done notified where
  inserted := by
    rw [same.inserted, same.popped, same.sndQue]
    exact ledger.inserted
  called := by
    rw [same.called, same.popped]
    exact ledger.called
  posted := by
    rw [Link.postedPackets, Link.currentPackets, same.emissions, same.popped, same.sndQue]
    exact ledger.posted

theorem Waiting.frame (waiting : Waiting link) (same : SameLedgers link link') : Waiting link' := by
  obtain ⟨index, idx, ledger, empty, more⟩ := waiting
  rw [← same.mSndIdx] at idx
  rw [← same.sndQue] at empty more
  exact ⟨index, idx, ledger.frame same, empty, more⟩

theorem Working.frame {next : NextPacket} {index : ℕ} (working : Working link next index)
    (same : SameLedgers link link') : Working link' next index where
  back := by
    rw [same.sndQue]
    exact working.back
  atPacket :=
    { working.atPacket with
      idx := by
        rw [same.mSndIdx]
        exact working.atPacket.idx }
  aligned := working.aligned
  data := working.data

/-- What the owner relies on stays when others move, also when more space is granted. -/
theorem Activation.Serves.frame {activation : Activation} (serves : activation.Serves link)
    (same : SameLedgers link link') (written : link'.written = link.written)
    (landed : link.landed ≤ link'.landed) : activation.Serves link' := by
  cases activation with
  | entering | looping | full | closing =>
      exact ⟨serves.1.frame same, by rw [same.sndQue]; exact serves.2⟩
  | emitting next =>
      obtain ⟨index, working, ledger, pktSize, space⟩ := serves
      exact ⟨index, working.frame same, ledger.frame same, pktSize, by omega⟩
  | checkingEdge packet | readingEdge _ packet =>
      cases packet with
      | none => exact serves
      | some packet =>
          obtain ⟨index, working, ledger⟩ := serves
          exact ⟨index, working.frame same, ledger.frame same⟩
  | advancing next hr =>
      obtain ⟨index, working, ledger⟩ := serves
      exact ⟨index, working.frame same, ledger.frame same⟩
  | notifying req _ | inCallback req | popping req =>
      obtain ⟨back, idx, ledger⟩ := serves
      exact ⟨by rw [same.sndQue]; exact back, by rw [same.mSndIdx]; exact idx,
        ledger.frame same⟩
  | sending _ => exact serves

end Frame

section Insert

variable {link link' : Link} {req : SndReq}

/-- The critical section of `Send` has inserted a request. -/
structure InsertedReq (req : SndReq) (link link' : Link) : Prop where
  sndQue : link'.term.sndQue = req :: link.term.sndQue
  inserted : link'.inserted = link.inserted ++ [req]
  mSndIdx : link'.term.mSndIdx = link.term.mSndIdx
  called : link'.called = link.called
  popped : link'.popped = link.popped
  emissions : link'.emissions = link.emissions

/-- Inserting does not change the back of a queue that is not empty. -/
theorem InsertedReq.back (insertion : InsertedReq req link link') {last : SndReq}
    (back : link.term.sndQue.getLast? = some last) :
    link'.term.sndQue.getLast? = some last := by
  rw [insertion.sndQue, List.getLast?_cons, back]
  rfl

theorem Ledger.insert {done : ℕ} {notified : List SndReq} (ledger : Ledger link done notified)
    (insertion : InsertedReq req link link') (nothing : link.term.sndQue = [] → done = 0) :
    Ledger link' done notified where
  inserted := by
    rw [insertion.inserted, insertion.popped, insertion.sndQue, ledger.inserted]
    simp
  called := by
    rw [insertion.called, insertion.popped]
    exact ledger.called
  posted := by
    have current : link'.currentPackets.take done = link.currentPackets.take done := by
      cases back : link.term.sndQue.getLast? with
      | none => simp [nothing (List.getLast?_eq_none_iff.mp back)]
      | some last => simp only [Link.currentPackets, back, insertion.back back]
    rw [current, Link.postedPackets, insertion.emissions, insertion.popped]
    exact ledger.posted

theorem Waiting.insert (waiting : Waiting link) (insertion : InsertedReq req link link') :
    Waiting link' ∧ link'.term.sndQue ≠ [] := by
  obtain ⟨index, idx, ledger, empty, more⟩ := waiting
  have nonempty : link'.term.sndQue ≠ [] := by simp [insertion.sndQue]
  refine ⟨⟨index, ?_, ledger.insert insertion empty, fun none => absurd none nonempty, ?_⟩,
    nonempty⟩
  · rw [insertion.mSndIdx]
    exact idx
  · intro last back
    cases earlier : link.term.sndQue.getLast? with
    | none =>
        rw [empty (List.getLast?_eq_none_iff.mp earlier)]
        exact count_pos _ _
    | some first =>
        obtain rfl := Option.some.inj ((insertion.back earlier).symm.trans back)
        exact more _ earlier

theorem Activation.Serves.insert {activation : Activation} (serves : activation.Serves link)
    (insertion : InsertedReq req link link') (written : link'.written = link.written)
    (landed : link'.landed = link.landed) : activation.Serves link' := by
  have occupied : ∀ {last}, link.term.sndQue.getLast? = some last →
      ∀ {done : ℕ}, link.term.sndQue = [] → done = 0 := by
    intro last back done empty
    simp [empty] at back
  have working : ∀ {next index}, Working link next index → Working link' next index := by
    intro next index working
    exact
      { working with
        back := insertion.back working.back
        atPacket :=
          { working.atPacket with
            idx := by
              rw [insertion.mSndIdx]
              exact working.atPacket.idx } }
  cases activation with
  | entering | looping | full | closing => exact serves.1.insert insertion
  | emitting next =>
      obtain ⟨index, works, ledger, pktSize, space⟩ := serves
      exact ⟨index, working works, ledger.insert insertion (occupied works.back), pktSize,
        by omega⟩
  | checkingEdge packet | readingEdge _ packet =>
      cases packet with
      | none => exact serves
      | some packet =>
          obtain ⟨index, works, ledger⟩ := serves
          exact ⟨index, working works, ledger.insert insertion (occupied works.back)⟩
  | advancing next hr =>
      obtain ⟨index, works, ledger⟩ := serves
      exact ⟨index, working works, ledger.insert insertion (occupied works.back)⟩
  | notifying req _ | inCallback req | popping req =>
      obtain ⟨back, idx, ledger⟩ := serves
      exact ⟨insertion.back back, by rw [insertion.mSndIdx]; exact idx,
        ledger.insert insertion (occupied back)⟩
  | sending _ => exact serves

end Insert

section Drain

variable {config : LinkConfig} {link link' : Link} {next : NextPacket} {index : ℕ}

theorem sendAdmits_iff (buf : Buf) :
    sendAdmits buf = true ↔ buf.size ≤ maxMsgSize ∧ msgAlign ∣ buf.size := by
  have mask := Nat.and_two_pow_sub_one_eq_mod buf.size 4
  simp only [Nat.reducePow, Nat.reduceSub] at mask
  simp only [sendAdmits, msgAlign, Nat.reduceSub, mask, decide_eq_true_eq,
    Nat.dvd_iff_mod_eq_zero]

/-- The request at the back was inserted. -/
theorem Ledger.mem_inserted {done : ℕ} {notified : List SndReq} (ledger : Ledger link done notified)
    {req : SndReq} (back : link.term.sndQue.getLast? = some req) : req ∈ link.inserted := by
  rw [ledger.inserted]
  exact List.mem_append_right _ (List.mem_reverse.mpr (List.mem_of_getLast? back))

/-- The packet the loop head finds, when it finds space. -/
theorem Waiting.space (waiting : Waiting link) (flow : Flow config link)
    (admitted : ∀ req ∈ link.inserted, sendAdmits req.buf = true)
    (found : link.term.nextPacket = .ok (some next)) :
    Activation.Serves link (.emitting next) := by
  obtain ⟨index, idx, ledger, empty, more⟩ := waiting
  cases back : link.term.sndQue.getLast? with
  | none => simp [Terminal.nextPacket, back, deref, bind, Except.bind] at found
  | some req =>
      have admits := (sendAdmits_iff _).mp (admitted req (ledger.mem_inserted back))
      obtain ⟨srcBuf, atPacket, data, nextEq⟩ :=
        Terminal.nextPacket_eq back idx (more req back) admits.1
      rw [nextEq, flow.available] at found
      split at found
      case isTrue => simp at found
      case isFalse space =>
        obtain rfl := Option.some.inj (Except.ok.inj found)
        have := flow.written_le
        exact ⟨index, ⟨back, atPacket, admits.2, data⟩, ledger, rfl, by simp only; omega⟩

/-- What the thread at `emitting` knows is enough to put its frame down. -/
theorem Activation.Serves.emitReady (serves : Activation.Serves link (.emitting next)) :
    ∃ index, Working link next index ∧ Ledger link index [] ∧
      EmitReady link next next.req.buf.bytes index := by
  obtain ⟨index, working, ledger, pktSize, space⟩ := serves
  exact ⟨index, working, ledger, working.atPacket, working.aligned, pktSize, space⟩

/-- A packet put down while the connection closes is not posted: the terminal stays where it was. -/
theorem Ledger.dropped {emission : Emission} (ledger : Ledger link index [])
    (working : Working link next index) (posted : emission.posted = false)
    (same : SameLedgers { link with emissions := link.emissions ++ [emission] } link') :
    Waiting link' ∧ link'.term.sndQue ≠ [] := by
  have back : link'.term.sndQue.getLast? = some next.req := by
    rw [same.sndQue]
    exact working.back
  have nonempty : link'.term.sndQue ≠ [] := by
    rintro empty
    simp [empty] at back
  have unposted : Ledger { link with emissions := link.emissions ++ [emission] } index [] :=
    { ledger with
      posted := by
        have nothing : (link.emissions ++ [emission]).filter (·.posted) =
            link.emissions.filter (·.posted) := by simp [posted]
        rw [Link.postedPackets, nothing]
        exact ledger.posted }
  refine ⟨⟨index, ?_, unposted.frame same, fun empty => absurd empty nonempty, ?_⟩, nonempty⟩
  · rw [same.mSndIdx]
    exact working.atPacket.idx
  · intro req found
    obtain rfl := Option.some.inj (back.symm.trans found)
    exact working.atPacket.more

/-- A posted packet is the next one of the request at the back. -/
theorem Ledger.posts {emission : Emission} (ledger : Ledger link index [])
    (working : Working link next index) (posted : emission.posted = true)
    (packetEq : emission.packet = packet packetSize next.req.buf.bytes index)
    (same : SameLedgers { link with emissions := link.emissions ++ [emission] } link') :
    Working link' next index ∧ Ledger link' (index + 1) [] := by
  have added : Ledger { link with emissions := link.emissions ++ [emission] } (index + 1) [] :=
    { ledger with
      posted := by
        have current : link.currentPackets = encode packetSize next.req.buf.bytes := by
          simp [Link.currentPackets, working.back, SndReq.packets]
        have before := ledger.posted
        rw [Link.postedPackets, current] at before
        have after : Link.currentPackets { link with emissions := link.emissions ++ [emission] } =
            encode packetSize next.req.buf.bytes := current
        rw [Link.postedPackets, after, encode_take_succ _ _ working.atPacket.more,
          List.filter_append, List.map_append, before]
        simp [posted, packetEq] }
  have workingAdded : Working { link with emissions := link.emissions ++ [emission] } next index :=
    { working with }
  exact ⟨workingAdded.frame same, added.frame same⟩

/-- After a packet that is not the last, the terminal waits at the next one. -/
theorem Ledger.again (ledger : Ledger link (index + 1) []) (working : Working link next index)
    (more : packetSize < next.srcBuf.size)
    (same : SameLedgers { link with term := { link.term with mSndIdx := link.term.mSndIdx + 1 } }
      link') :
    Waiting link' ∧ link'.term.sndQue ≠ [] := by
  have back : link'.term.sndQue.getLast? = some next.req := by
    rw [same.sndQue]
    exact working.back
  have nonempty : link'.term.sndQue ≠ [] := by
    rintro empty
    simp [empty] at back
  have further := working.atPacket.size_gt_iff.mp more
  have few := working.atPacket.count_lt
  have moved : Ledger { link with term := { link.term with mSndIdx := link.term.mSndIdx + 1 } }
      (index + 1) [] := { ledger with }
  refine ⟨⟨index + 1, ?_, moved.frame same, fun empty => absurd empty nonempty, ?_⟩, nonempty⟩
  · have idx := working.atPacket.idx
    simp only [int16Max] at few
    rw [same.mSndIdx, Int16.toInt_add, idx]
    simp only [Int16.toInt_one, Int.bmod]
    omega
  · intro req found
    obtain rfl := Option.some.inj (back.symm.trans found)
    exact further

/-- After the last packet the request is complete. -/
theorem Ledger.finished (ledger : Ledger link (index + 1) []) (working : Working link next index)
    (done : next.srcBuf.size ≤ packetSize)
    (same : SameLedgers { link with term := { link.term with mSndIdx := 0 } } link')
    (hr : HRESULT) :
    Activation.Serves link' (.notifying next.req hr) := by
  have last : index + 1 = count packetSize next.req.buf.bytes := by
    have := working.atPacket.more
    have := working.atPacket.size_gt_iff.not
    omega
  have moved : Ledger { link with term := { link.term with mSndIdx := 0 } }
      (count packetSize next.req.buf.bytes) [] := by
    rw [← last]
    exact { ledger with }
  refine ⟨?_, same.mSndIdx, moved.frame same⟩
  rw [same.sndQue]
  exact working.back

/-- Leaving the queue after the callback, the request takes its packets along. -/
theorem Activation.Serves.pops {req : SndReq}
    (serves : Activation.Serves link (.popping req))
    (sndQue : link'.term.sndQue = link.term.sndQue.dropLast)
    (popped : link'.popped = link.popped ++ [req])
    (mSndIdx : link'.term.mSndIdx = link.term.mSndIdx)
    (inserted : link'.inserted = link.inserted) (called : link'.called = link.called)
    (emissions : link'.emissions = link.emissions) : Waiting link' := by
  obtain ⟨back, idx, ledger⟩ := serves
  have split : link.term.sndQue = link.term.sndQue.dropLast ++ [req] :=
    (List.dropLast_append_getLast? req back).symm
  refine ⟨0, ?_, ⟨?_, ?_, ?_⟩, fun _ => rfl, fun _ _ => count_pos _ _⟩
  · simp [mSndIdx, idx]
  · rw [inserted, popped, sndQue, ledger.inserted, split]
    simp
  · rw [called, popped, ledger.called, List.append_nil]
  · have current : link.currentPackets = req.packets := by simp [Link.currentPackets, back]
    have whole : req.packets.take (count packetSize req.buf.bytes) = req.packets :=
      List.take_of_length_le (by simp [SndReq.packets])
    rw [Link.postedPackets, emissions, popped, List.take_zero, List.append_nil]
    rw [← Link.postedPackets, ledger.posted, current, whole]
    simp

end Drain

section Stacks

variable {link : Link} {thread : ℕ} {activation : Activation} {rest stack : List Activation}

@[simp]
theorem setStack_self (link : Link) (thread : ℕ) (stack : List Activation) :
    (link.setStack thread stack).threads thread = stack := by
  simp [Link.setStack]

theorem setStack_other {other : ℕ} (link : Link) (different : other ≠ thread)
    (stack : List Activation) :
    (link.setStack thread stack).threads other = link.threads other := by
  simp [Link.setStack, different]

@[simp]
theorem owner_nil : owner [] = none := rfl

@[simp]
theorem owner_sending (req : SndReq) (rest : List Activation) :
    owner (.sending req :: rest) = owner rest := rfl

theorem owner_cons (owns : activation.owns = true) (rest : List Activation) :
    owner (activation :: rest) = some activation := by
  simp [owner, owns]

/-- Only a call of `Send` has anything below it. -/
theorem StackShape.rest_eq_nil (shape : StackShape (activation :: rest))
    (notSending : ∀ req, activation ≠ .sending req) : rest = [] := by
  cases shape with
  | single => rfl
  | nested req served => exact absurd rfl (notSending req)

theorem StackShape.below (shape : StackShape (activation :: rest)) : StackShape rest := by
  cases shape with
  | single => exact .idle
  | nested req served => exact .single _

/-- A thread that can call in is idle or in a callback. -/
theorem StackShape.push (shape : StackShape stack) (free : callsFrom stack = true) (req : SndReq) :
    StackShape (.sending req :: stack) := by
  cases shape with
  | idle => exact .single _
  | single activation =>
      cases activation <;> simp [callsFrom] at free
      exact .nested _ _
  | nested req served => simp [callsFrom] at free

end Stacks

namespace Discipline

variable {link link' : Link} {thread : ℕ} {activation next : Activation}
  {rest stack : List Activation}

/-- A thread between setting and clearing the flag is the only one. -/
theorem owned (discipline : Discipline link) (stackEq : link.threads thread = activation :: rest)
    (owns : activation.owns = true) :
    link.term.sndRunning = true ∧ rest = [] ∧ activation.Serves link ∧
      ∀ other, other ≠ thread → owner (link.threads other) = none := by
  have shape := discipline.shape thread
  rw [stackEq] at shape
  have mine : owner (link.threads thread) = some activation := by
    rw [stackEq]
    exact owner_cons owns rest
  have running : link.term.sndRunning = true := by
    by_contra notRunning
    have none := (discipline.outside (by simpa using notRunning)).1 thread
    simp [none] at mine
  obtain ⟨holder, held, holds, others, serves⟩ := discipline.inside running
  have same : holder = thread := by
    by_contra different
    have none := others thread (Ne.symm different)
    simp [none] at mine
  subst same
  obtain rfl := Option.some.inj (mine.symm.trans holds)
  refine ⟨running, shape.rest_eq_nil ?_, serves, others⟩
  rintro req rfl
  simp [Activation.owns] at owns

/-- A step of a thread outside the flag's section, or of no thread at all. -/
theorem keeps (discipline : Discipline link)
    (threads : link'.threads = Function.update link.threads thread stack) (shape : StackShape stack)
    (sameOwner : owner stack = owner (link.threads thread))
    (sending : ∀ req, .sending req ∈ stack → sendAdmits req.buf = true)
    (admitted : ∀ req ∈ link'.inserted, sendAdmits req.buf = true)
    (running : link'.term.sndRunning = link.term.sndRunning)
    (waiting : Waiting link → Waiting link')
    (serves : ∀ activation, Activation.Serves link activation →
      Activation.Serves link' activation) : Discipline link' := by
  have owners : ∀ other, owner (link'.threads other) = owner (link.threads other) := by
    intro other
    rw [threads]
    by_cases same : other = thread
    · subst same
      rw [Function.update_self, sameOwner]
    · rw [Function.update_of_ne same]
  refine ⟨?_, ?_, admitted, ?_, ?_⟩
  · intro other
    rw [threads]
    by_cases same : other = thread
    · subst same
      rw [Function.update_self]
      exact shape
    · rw [Function.update_of_ne same]
      exact discipline.shape other
  · intro other req
    rw [threads]
    by_cases same : other = thread
    · subst same
      rw [Function.update_self]
      exact sending req
    · rw [Function.update_of_ne same]
      exact discipline.sending other req
  · intro idle
    rw [running] at idle
    obtain ⟨none, waits⟩ := discipline.outside idle
    exact ⟨fun other => (owners other).trans (none other), waiting waits⟩
  · intro busy
    rw [running] at busy
    obtain ⟨holder, held, holds, others, served⟩ := discipline.inside busy
    exact ⟨holder, held, (owners holder).trans holds,
      fun other different => (owners other).trans (others other different), serves held served⟩

/-- A thread that takes the flag or has it goes on to an activation inside the section. -/
theorem occupies (discipline : Discipline link)
    (others : ∀ other, other ≠ thread → owner (link.threads other) = none)
    (threads : link'.threads = Function.update link.threads thread [next])
    (owns : next.owns = true) (admitted : ∀ req ∈ link'.inserted, sendAdmits req.buf = true)
    (running : link'.term.sndRunning = true) (serves : next.Serves link') : Discipline link' := by
  refine ⟨?_, ?_, admitted, ?_, ?_⟩
  · intro other
    rw [threads]
    by_cases same : other = thread
    · subst same
      rw [Function.update_self]
      exact .single next
    · rw [Function.update_of_ne same]
      exact discipline.shape other
  · intro other req
    rw [threads]
    by_cases same : other = thread
    · subst same
      rw [Function.update_self]
      intro present
      obtain rfl := List.mem_singleton.mp present
      simp [Activation.owns] at owns
    · rw [Function.update_of_ne same]
      exact discipline.sending other req
  · intro idle
    simp [running] at idle
  · intro _
    refine ⟨thread, next, ?_, ?_, serves⟩
    · rw [threads, Function.update_self]
      exact owner_cons owns []
    · intro other different
      rw [threads, Function.update_of_ne different]
      exact others other different

/-- The thread that has the flag takes its next step inside the section. -/
theorem moves (discipline : Discipline link) (stackEq : link.threads thread = activation :: rest)
    (owns : activation.owns = true)
    (threads : link'.threads = Function.update link.threads thread (next :: rest))
    (ownsNext : next.owns = true) (inserted : link'.inserted = link.inserted)
    (running : link'.term.sndRunning = link.term.sndRunning) (serves : next.Serves link') :
    Discipline link' := by
  obtain ⟨busy, rfl, _, others⟩ := discipline.owned stackEq owns
  refine discipline.occupies others threads ownsNext ?_ (running.trans busy) serves
  rw [inserted]
  exact discipline.admitted

/-- The thread that has the flag clears it. -/
theorem leaves (discipline : Discipline link) (stackEq : link.threads thread = activation :: rest)
    (owns : activation.owns = true)
    (threads : link'.threads = Function.update link.threads thread stack)
    (left : stack = [] ∨ stack = [.checkingEdge none]) (inserted : link'.inserted = link.inserted)
    (cleared : link'.term.sndRunning = false) (waiting : Waiting link') : Discipline link' := by
  obtain ⟨_, rfl, _, others⟩ := discipline.owned stackEq owns
  have none : owner stack = none := by
    rcases left with rfl | rfl <;> rfl
  refine ⟨?_, ?_, ?_, ?_, ?_⟩
  · intro other
    rw [threads]
    by_cases same : other = thread
    · subst same
      rw [Function.update_self]
      rcases left with rfl | rfl
      · exact .idle
      · exact .single _
    · rw [Function.update_of_ne same]
      exact discipline.shape other
  · intro other req
    rw [threads]
    by_cases same : other = thread
    · subst same
      rw [Function.update_self]
      rcases left with rfl | rfl <;> simp
    · rw [Function.update_of_ne same]
      exact discipline.sending other req
  · rw [inserted]
    exact discipline.admitted
  · intro _
    refine ⟨?_, waiting⟩
    intro other
    rw [threads]
    by_cases same : other = thread
    · subst same
      rw [Function.update_self]
      exact none
    · rw [Function.update_of_ne same]
      exact others other same
  · intro busy
    simp [cleared] at busy

/-- While nobody has the flag, a thread that can call in is idle. -/
theorem idle_of_callsFrom (discipline : Discipline link) (idle : link.term.sndRunning = false)
    (free : callsFrom (link.threads thread) = true) : link.threads thread = [] := by
  have none := (discipline.outside idle).1 thread
  cases stackEq : link.threads thread with
  | nil => rfl
  | cons activation rest =>
      rw [stackEq] at free none
      cases activation <;> simp [callsFrom] at free
      simp [owner, Activation.owns] at none

/-- A call of `Send` that finds the flag clear was not made by a callback. -/
theorem rest_of_sending (discipline : Discipline link) (idle : link.term.sndRunning = false)
    {req : SndReq} (stackEq : link.threads thread = .sending req :: rest) : rest = [] := by
  have none := (discipline.outside idle).1 thread
  have shape := discipline.shape thread
  rw [stackEq] at shape none
  cases shape with
  | single => rfl
  | nested => simp [owner, Activation.owns] at none

theorem start {config : LinkConfig} (started : (linkMachine config).start link) :
    Discipline link := by
  obtain ⟨terminal, mem, rmt, prepared, rfl⟩ := started
  refine ⟨fun _ => .idle, by simp, by simp, ?_, ?_⟩
  · intro _
    refine ⟨fun _ => rfl, 0, by simp [prepared.mSndIdx], ⟨?_, ?_, ?_⟩, fun _ => rfl, ?_⟩
    · simp [prepared.sndQue]
    · simp
    · simp [Link.postedPackets]
    · simp [prepared.sndQue]
  · intro running
    simp [prepared.sndRunning] at running

/-- A step in which no request is inserted, notified or popped, and no frame is put down. -/
theorem sameLedgers (discipline : Discipline link) (same : SameLedgers link link')
    (threads : link'.threads = Function.update link.threads thread stack) (shape : StackShape stack)
    (sameOwner : owner stack = owner (link.threads thread))
    (sending : ∀ req, .sending req ∈ stack → sendAdmits req.buf = true)
    (running : link'.term.sndRunning = link.term.sndRunning)
    (written : link'.written = link.written) (landed : link.landed ≤ link'.landed) :
    Discipline link' := by
  refine discipline.keeps threads shape sameOwner sending ?_ running
    (fun waiting => waiting.frame same) (fun _ serves => serves.frame same written landed)
  rw [same.inserted]
  exact discipline.admitted

/-- A step of the environment. -/
theorem environment (discipline : Discipline link) (same : SameLedgers link link')
    (threads : link'.threads = link.threads)
    (running : link'.term.sndRunning = link.term.sndRunning)
    (written : link'.written = link.written) (landed : link.landed ≤ link'.landed) :
    Discipline link' :=
  discipline.sameLedgers same
    (show link'.threads = Function.update link.threads 0 (link.threads 0) by
      rw [threads, Function.update_eq_self]) (discipline.shape 0) rfl (discipline.sending 0)
    running written landed

/-- After the edge read a thread leaves, or goes on inside the section. -/
theorem afterEdge_moves (discipline : Discipline link) {packet : Option (NextPacket × HRESULT)}
    {checking : Activation}
    (isEdge : checking = .checkingEdge packet ∨ ∃ rmtToken, checking = .readingEdge rmtToken packet)
    (stackEq : link.threads thread = checking :: rest) (same : SameLedgers link link')
    (threads : link'.threads = Function.update link.threads thread (afterEdge packet ++ rest))
    (running : link'.term.sndRunning = link.term.sndRunning)
    (written : link'.written = link.written) (landed : link.landed ≤ link'.landed) :
    Discipline link' := by
  cases packet with
  | none =>
      have shape := discipline.shape thread
      rw [stackEq] at shape
      have alone : rest = [] := shape.rest_eq_nil (by rcases isEdge with rfl | ⟨_, rfl⟩ <;> simp)
      subst alone
      refine discipline.sameLedgers same threads .idle ?_ (by simp [afterEdge]) running written
        landed
      rw [stackEq]
      rcases isEdge with rfl | ⟨_, rfl⟩ <;> rfl
  | some packet =>
      have owns : checking.owns = true := by rcases isEdge with rfl | ⟨_, rfl⟩ <;> rfl
      obtain ⟨_, _, serves, _⟩ := discipline.owned stackEq owns
      have moved : Activation.Serves link (.advancing packet.1 packet.2) := by
        rcases isEdge with rfl | ⟨_, rfl⟩ <;> exact serves
      exact discipline.moves stackEq owns threads rfl same.inserted running
        (moved.frame same written landed)

/-- Every step of a thread keeps the discipline. -/
theorem run {config : LinkConfig} (discipline : Discipline link) (flow : Flow config link)
    {replies : SendReplies} (ran : RunStep config link thread replies link') :
    Discipline link' := by
  have shape := discipline.shape thread
  have sendingHere := discipline.sending thread
  cases ran with
  | queued stackEq running =>
      rename_i req rest
      rw [stackEq] at shape sendingHere
      have insertion : InsertedReq req link
          ({ link with
            term := { link.term with sndQue := req :: link.term.sndQue }
            inserted := link.inserted ++ [req] }.setStack thread rest) :=
        ⟨rfl, rfl, rfl, rfl, rfl, rfl⟩
      refine discipline.keeps (show _ = Function.update link.threads thread rest from rfl)
        shape.below ?_ ?_ ?_ rfl
        (fun waiting => (waiting.insert insertion).1)
        (fun _ serves => serves.insert insertion rfl rfl)
      · rw [stackEq, owner_sending]
      · exact fun other present => sendingHere other (List.mem_cons_of_mem _ present)
      · intro other present
        rcases List.mem_append.mp present with before | new
        · exact discipline.admitted other before
        · obtain rfl := List.mem_singleton.mp new
          exact sendingHere _ List.mem_cons_self
  | entered stackEq idle =>
      rename_i req rest
      obtain rfl := discipline.rest_of_sending idle stackEq
      obtain ⟨none, waiting⟩ := discipline.outside idle
      rw [stackEq] at sendingHere
      refine discipline.occupies (fun other _ => none other) rfl rfl ?_ rfl
        (waiting.insert ⟨rfl, rfl, rfl, rfl, rfl, rfl⟩)
      intro other present
      rcases List.mem_append.mp present with before | new
      · exact discipline.admitted other before
      · obtain rfl := List.mem_singleton.mp new
        exact sendingHere _ List.mem_cons_self
  | checked stackEq queue running =>
      obtain ⟨_, _, serves, _⟩ := discipline.owned stackEq rfl
      exact discipline.moves stackEq rfl rfl rfl rfl rfl
        (serves.frame ⟨rfl, rfl, rfl, rfl, rfl, rfl⟩ rfl le_rfl)
  | noSpace stackEq next =>
      obtain ⟨_, _, serves, _⟩ := discipline.owned stackEq rfl
      exact discipline.moves stackEq rfl rfl rfl rfl rfl
        (serves.frame ⟨rfl, rfl, rfl, rfl, rfl, rfl⟩ rfl le_rfl)
  | space stackEq found =>
      obtain ⟨_, _, serves, _⟩ := discipline.owned stackEq rfl
      exact discipline.moves stackEq rfl rfl rfl rfl rfl
        ((serves.1.space flow discipline.admitted found).frame ⟨rfl, rfl, rfl, rfl, rfl, rfl⟩ rfl
          le_rfl)
  | left stackEq =>
      obtain ⟨_, rfl, serves, _⟩ := discipline.owned stackEq rfl
      exact discipline.leaves stackEq rfl rfl (Or.inr rfl) rfl rfl
        (serves.1.frame ⟨rfl, rfl, rfl, rfl, rfl, rfl⟩)
  | dropped stackEq emitted =>
      obtain ⟨_, _, serves, _⟩ := discipline.owned stackEq rfl
      obtain ⟨index, working, ledger, ready⟩ := serves.emitReady
      have emits := ready.emits flow emitted false
      obtain rfl := emits.term
      exact discipline.moves stackEq rfl rfl rfl rfl rfl
        (ledger.dropped working rfl ⟨rfl, rfl, rfl, rfl, rfl, rfl⟩)
  | posted stackEq emitted =>
      obtain ⟨_, _, serves, _⟩ := discipline.owned stackEq rfl
      obtain ⟨index, working, ledger, ready⟩ := serves.emitReady
      have emits := ready.emits flow emitted true
      obtain rfl := emits.term
      exact discipline.moves stackEq rfl rfl rfl rfl rfl
        ⟨index, ledger.posts working rfl emits.packet ⟨rfl, rfl, rfl, rfl, rfl, rfl⟩⟩
  | closed stackEq =>
      obtain ⟨_, rfl, serves, _⟩ := discipline.owned stackEq rfl
      exact discipline.leaves stackEq rfl rfl (Or.inl rfl) rfl rfl
        (serves.1.frame ⟨rfl, rfl, rfl, rfl, rfl, rfl⟩)
  | skipped stackEq check =>
      exact discipline.afterEdge_moves (Or.inl rfl) stackEq ⟨rfl, rfl, rfl, rfl, rfl, rfl⟩ rfl rfl
        rfl le_rfl
  | passed stackEq check =>
      rename_i rest packet rmtToken
      cases packet with
      | none =>
          rw [stackEq] at shape
          obtain rfl := shape.rest_eq_nil (by simp)
          refine discipline.sameLedgers ⟨rfl, rfl, rfl, rfl, rfl, rfl⟩ rfl (.single _) ?_ (by simp)
            rfl rfl le_rfl
          rw [stackEq]
          rfl
      | some packet =>
          obtain ⟨_, _, serves, _⟩ := discipline.owned stackEq rfl
          have reading : Activation.Serves link (.readingEdge rmtToken (some packet)) := serves
          refine discipline.moves stackEq rfl rfl ?_ rfl rfl
            (reading.frame ⟨rfl, rfl, rfl, rfl, rfl, rfl⟩ rfl le_rfl)
          rfl
  | read stackEq answered =>
      exact discipline.afterEdge_moves (Or.inr ⟨_, rfl⟩) stackEq ⟨rfl, rfl, rfl, rfl, rfl, rfl⟩ rfl
        rfl rfl le_rfl
  | again stackEq more =>
      obtain ⟨_, _, serves, _⟩ := discipline.owned stackEq rfl
      obtain ⟨index, working, ledger⟩ := serves
      exact discipline.moves stackEq rfl rfl rfl rfl rfl
        (ledger.again working more ⟨rfl, rfl, rfl, rfl, rfl, rfl⟩)
  | finished stackEq done =>
      obtain ⟨_, _, serves, _⟩ := discipline.owned stackEq rfl
      obtain ⟨index, working, ledger⟩ := serves
      refine discipline.moves stackEq rfl rfl rfl rfl rfl (ledger.finished working done ?_ _)
      exact ⟨rfl, rfl, rfl, rfl, rfl, rfl⟩
  | notified stackEq =>
      obtain ⟨_, _, serves, _⟩ := discipline.owned stackEq rfl
      obtain ⟨back, idx, ledger⟩ := serves
      refine discipline.moves stackEq rfl rfl rfl rfl rfl ⟨back, idx, ⟨ledger.inserted, ?_,
        ledger.posted⟩⟩
      have called := ledger.called
      simp only [List.append_nil] at called
      simp [Link.setStack, called]
  | returned stackEq =>
      obtain ⟨_, _, serves, _⟩ := discipline.owned stackEq rfl
      have popping : Activation.Serves link (.popping _) := serves
      refine discipline.moves stackEq rfl rfl ?_ rfl rfl
        (popping.frame ⟨rfl, rfl, rfl, rfl, rfl, rfl⟩ rfl le_rfl)
      rfl
  | emptied stackEq back same empty =>
      obtain ⟨_, rfl, serves, _⟩ := discipline.owned stackEq rfl
      exact discipline.leaves stackEq rfl rfl (Or.inl rfl) rfl rfl
        (serves.pops empty.symm rfl rfl rfl rfl rfl)
  | popped stackEq back same remaining =>
      obtain ⟨_, _, serves, _⟩ := discipline.owned stackEq rfl
      exact discipline.moves stackEq rfl rfl rfl rfl rfl
        ⟨serves.pops rfl rfl rfl rfl rfl rfl, remaining⟩

/-- Every step keeps the discipline. -/
theorem step {config : LinkConfig} (discipline : Discipline link) (flow : Flow config link)
    {action : LinkAction} (stepped : LinkStep config link action link') : Discipline link' := by
  cases stepped with
  | run ran => exact discipline.run flow ran
  | called free admitted =>
      rename_i thread req
      refine discipline.sameLedgers ⟨rfl, rfl, rfl, rfl, rfl, rfl⟩ rfl
        ((discipline.shape thread).push free req) (owner_sending _ _) ?_ rfl rfl le_rfl
      intro other present
      rcases List.mem_cons.mp present with same | below
      · obtain rfl := Activation.sending.inj same
        exact admitted
      · exact discipline.sending thread other below
  | refused => exact discipline
  | notEntered => exact discipline
  | entered free idle queue =>
      rename_i thread
      obtain ⟨none, waiting⟩ := discipline.outside idle
      have stackEq := discipline.idle_of_callsFrom idle free
      have entering : Activation.Serves link .entering := ⟨waiting, queue⟩
      have threads : (({ link with term := { link.term with sndRunning := true } } :
          Link).setStack thread (.entering :: link.threads thread)).threads =
            Function.update link.threads thread [.entering] := by
        rw [Link.setStack, stackEq]
      exact discipline.occupies (fun other _ => none other) threads rfl discipline.admitted rfl
        (entering.frame ⟨rfl, rfl, rfl, rfl, rfl, rfl⟩ rfl le_rfl)
  | landed forward bound =>
      exact discipline.environment ⟨rfl, rfl, rfl, rfl, rfl, rfl⟩ rfl rfl rfl forward
  | _ => exact discipline.environment ⟨rfl, rfl, rfl, rfl, rfl, rfl⟩ rfl rfl rfl le_rfl

/-- What a thread knows that is about to put down a packet. -/
theorem emitReady (discipline : Discipline link) {thread : ℕ} {next : NextPacket}
    {rest : List Activation} (stackEq : link.threads thread = .emitting next :: rest) :
    ∃ message index, EmitReady link next message index := by
  obtain ⟨_, _, serves, _⟩ := discipline.owned stackEq rfl
  obtain ⟨index, _, _, ready⟩ := serves.emitReady
  exact ⟨_, index, ready⟩

end Discipline

/-- In every reachable state of a connection, under any restriction of its actions, flow control
and the discipline of the threads hold. -/
theorem link_invariant {config : LinkConfig} {allowed : Link → LinkAction → Prop} {link : Link}
    (reachable : (linkMachine config).Reachable allowed link) :
    Flow config link ∧ Discipline link := by
  refine reachable.invariant (fun link => Flow config link ∧ Discipline link) ?_ ?_
  · exact fun started => ⟨.start started, .start started⟩
  · rintro link action link' ⟨flow, discipline⟩ _ stepped
    have cases := step_cases stepped
    exact ⟨flow.step discipline.emitReady cases, discipline.step flow cases⟩

end Hermes
