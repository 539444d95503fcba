import Hermes.SendRun

/-!
# What the status of a notification covers

`ProcessSendQ` keeps the answer to the writes of a packet in a variable of the loop turn,
and passes the one of the last turn to the callback.  The log of a run has the answers to
the writes of every packet and the notifications.  `status_covers` reads it: a
notification comes right after the packets of its message, and its status tells of the
last one only.
-/

namespace Hermes

open Memory Packets

/-- The log of posted packets. -/
def postedEvents (current : List (SndReq × Bool)) : List SendEvent :=
  current.map fun entry => .posted entry.1 entry.2

/-- The log is empty or ends with a notification. -/
def BetweenMessages (events : List SendEvent) : Prop :=
  ∀ event ∈ events.getLast?, ∃ req status, event = .notified req status

/-- The log before a notification ends with the packets of its message, and the status says whether
the writes of the last one were accepted. -/
def StatusOfLast (events : List SendEvent) (req : SndReq) (status : StatusCode) : Prop :=
  ∃ (earlier : List SendEvent) (results : List Bool),
    events = earlier ++ results.map (.posted req) ∧ BetweenMessages earlier ∧
      results.length = count packetSize req.buf.bytes ∧
      (status = hOk ↔ results.getLast? = some true)

def LastOnly (events : List SendEvent) : Prop :=
  ∀ before req status after, events = before ++ .notified req status :: after →
    StatusOfLast before req status

/-- What the current packets are for a thread, by what it executes next. -/
def Activation.Counts (index : Int16) (current : List (SndReq × Bool)) : Activation → Prop
  | entering | looping | full | closing | emitting _ => (current.length : ℤ) = index.toInt
  | checkingEdge (some (_, hr)) | readingEdge _ (some (_, hr)) | advancing _ hr =>
      (current.length : ℤ) = index.toInt + 1 ∧
        (hr = hOk ↔ current.getLast?.map Prod.snd = some true)
  | notifying req hr =>
      current.length = count packetSize req.buf.bytes ∧
        (hr = hOk ↔ current.getLast?.map Prod.snd = some true)
  | inCallback _ | popping _ => current = []
  | sending _ | checkingEdge none | readingEdge _ none => True

/-- The packets posted since the last notification belong to the request at the back. -/
structure Tally (link : Link) (current : List (SndReq × Bool)) : Prop where
  back : ∀ entry ∈ current, link.term.sndQue.getLast? = some entry.1
  outside : link.term.sndRunning = false → (current.length : ℤ) = link.term.mSndIdx.toInt
  counts : ∀ thread activation, activation ∈ link.threads thread →
    activation.Counts link.term.mSndIdx current

section Log

theorem LastOnly.append {events : List SendEvent} {event : SendEvent} (lastOnly : LastOnly events)
    (covers : ∀ req status, event = .notified req status → StatusOfLast events req status) :
    LastOnly (events ++ [event]) := by
  intro before req status after split
  rcases List.eq_nil_or_concat after with rfl | ⟨front, last, rfl⟩
  · rcases List.append_inj' split rfl with ⟨rfl, same⟩
    exact covers req status (List.singleton_inj.mp same)
  · have regrouped : events ++ [event] = (before ++ .notified req status :: front) ++ [last] := by
      rw [split, List.concat_eq_append]
      simp
    exact lastOnly before req status front (List.append_inj' regrouped rfl).1

theorem Activation.counts_of_not_owns {activation : Activation} {index : Int16}
    {current : List (SndReq × Bool)} (notOwns : activation.owns = false) :
    activation.Counts index current := by
  cases activation with
  | checkingEdge packet => cases packet <;> simp_all [Activation.owns, Activation.Counts]
  | readingEdge rmtToken packet => cases packet <;> simp_all [Activation.owns, Activation.Counts]
  | sending req => trivial
  | _ => simp [Activation.owns] at notOwns

theorem mem_update {threads : ℕ → List Activation} {thread other : ℕ} {stack : List Activation}
    {next : Activation} (present : next ∈ Function.update threads thread stack other) :
    other = thread ∧ next ∈ stack ∨ other ≠ thread ∧ next ∈ threads other := by
  by_cases same : other = thread
  · subst same
    rw [Function.update_self] at present
    exact Or.inl ⟨rfl, present⟩
  · rw [Function.update_of_ne same] at present
    exact Or.inr ⟨same, present⟩

variable {link link' : Link} {current current' : List (SndReq × Bool)} {thread : ℕ}
  {activation : Activation} {rest stack : List Activation}

/-- In a turn that goes on, the frame counts as taken when its first half is. -/
theorem writesTaken_eq {config : LinkConfig} {next : NextPacket} {replies : SendReplies}
    (flow : Flow config link)
    (answered : WritesAnswered replies (config.ring < link.written % config.ring + next.pktSize)) :
    writesTaken config link.term next replies = accepted replies.firstHalf := by
  have edge :
      (link.term.sndEnd.writeEdge.toNat + 0) % config.ring = link.written % config.ring := by
    rw [Nat.add_zero, flow.writeEdge, config.toNat_mod]
  rw [writesTaken, splitAt, edge]
  by_cases split : config.ring < link.written % config.ring + next.pktSize
  · simp [answered.second split]
  · simp [split]

theorem status_eq_hOk_iff {hr : HRESULT} (answered : accepted hr = true ∨ hr = ndCanceled) :
    (if hr = ndPending then ndSuccess else hr) = hOk ↔ accepted hr = true := by
  rcases answered with taken | rfl
  · rcases (accepted_iff hr).mp taken with rfl | rfl <;> decide
  · decide

/-- A thread between setting and clearing the flag goes on. -/
theorem Tally.acts (discipline : Discipline link)
    (stackEq : link.threads thread = activation :: rest) (owns : activation.owns = true)
    (threads : link'.threads = Function.update link.threads thread stack)
    (back : ∀ entry ∈ current', link'.term.sndQue.getLast? = some entry.1)
    (outside : link'.term.sndRunning = false → (current'.length : ℤ) = link'.term.mSndIdx.toInt)
    (here : ∀ next ∈ stack, next.Counts link'.term.mSndIdx current') : Tally link' current' := by
  refine ⟨back, outside, ?_⟩
  intro other next present
  rw [threads] at present
  rcases mem_update present with ⟨rfl, here'⟩ | ⟨same, present⟩
  · exact here next here'
  · have others := (discipline.owned stackEq owns).2.2.2 other same
    have notOwns := List.find?_eq_none.mp others next present
    exact Activation.counts_of_not_owns (by simpa using notOwns)

/-- A step that touches nothing the tally reads, but for activations outside the flag's section. -/
theorem Tally.frame (tally : Tally link current)
    (back : ∀ entry ∈ current, link'.term.sndQue.getLast? = some entry.1)
    (mSndIdx : link'.term.mSndIdx = link.term.mSndIdx)
    (running : link'.term.sndRunning = link.term.sndRunning)
    (threads : ∀ other next, next ∈ link'.threads other →
      next ∈ link.threads other ∨ next.owns = false) : Tally link' current where
  back := back
  outside := by
    rw [running, mSndIdx]
    exact tally.outside
  counts := by
    intro other next present
    rw [mSndIdx]
    rcases threads other next present with old | notOwns
    · exact tally.counts other next old
    · exact Activation.counts_of_not_owns notOwns

end Log

/-- The log so far: every notification tells of the last packet of its message, and the packets
after the last notification are those of the request at the back. -/
structure Tracked (link : Link) (events : List SendEvent) : Prop where
  lastOnly : LastOnly events
  current : ∃ earlier current, events = earlier ++ postedEvents current ∧
    BetweenMessages earlier ∧ Tally link current

namespace Tracked

variable {config : LinkConfig} {link link' : Link} {events : List SendEvent} {thread : ℕ}
  {activation : Activation} {rest stack : List Activation} {replies : SendReplies}

theorem start (started : (linkMachine config).start link) : Tracked link [] := by
  rcases started with ⟨terminal, mem, rmt, prepared, rfl⟩
  refine ⟨?_, [], [], rfl, ?_, ?_⟩
  · intro before req status after split
    simp at split
  · intro event present
    simp at present
  · refine ⟨by simp, ?_, by simp⟩
    intro _
    simp [prepared.mSndIdx]

/-- A thread goes on inside the flag's section, with an event or without. -/
theorem moves {next : Activation} {event : List SendEvent} (tracked : Tracked link events)
    (discipline : Discipline link) (stackEq : link.threads thread = activation :: rest)
    (owns : activation.owns = true)
    (threads : link'.threads = Function.update link.threads thread (next :: rest))
    (running : link'.term.sndRunning = link.term.sndRunning)
    (here : ∀ earlier current, events = earlier ++ postedEvents current →
      BetweenMessages earlier → (∀ entry ∈ current, link.term.sndQue.getLast? = some entry.1) →
      activation.Counts link.term.mSndIdx current →
        ∃ earlier' current', LastOnly (events ++ event) ∧
          events ++ event = earlier' ++ postedEvents current' ∧ BetweenMessages earlier' ∧
          (∀ entry ∈ current', link'.term.sndQue.getLast? = some entry.1) ∧
          next.Counts link'.term.mSndIdx current') : Tracked link' (events ++ event) := by
  rcases tracked with ⟨lastOnly, earlier, current, split, between, tally⟩
  have mine := tally.counts thread activation (by rw [stackEq]; exact List.mem_cons_self)
  rcases discipline.owned stackEq owns with ⟨isRunning, rfl, _⟩
  rcases here earlier current split between tally.back mine with
    ⟨earlier', current', lastOnly', split', between', back', counts'⟩
  refine ⟨lastOnly', earlier', current', split', between', ?_⟩
  apply Tally.acts discipline stackEq owns threads back'
  · intro stopped
    rw [running, isRunning] at stopped
    cases stopped
  · intro other present
    rw [List.mem_singleton.mp present]
    exact counts'

/-- A thread goes on inside the flag's section without an event. -/
theorem goes {next : Activation} (tracked : Tracked link events)
    (discipline : Discipline link) (stackEq : link.threads thread = activation :: rest)
    (owns : activation.owns = true)
    (threads : link'.threads = Function.update link.threads thread (next :: rest))
    (running : link'.term.sndRunning = link.term.sndRunning)
    (back : ∀ req, link.term.sndQue.getLast? = some req → link'.term.sndQue.getLast? = some req)
    (here : ∀ current, activation.Counts link.term.mSndIdx current →
      next.Counts link'.term.mSndIdx current) : Tracked link' events := by
  rw [← List.append_nil events]
  apply tracked.moves discipline stackEq owns threads running
  intro earlier current split between backs counts
  refine ⟨earlier, current, ?_, ?_, between, fun entry present => back _ (backs entry present),
    here current counts⟩
  · rw [List.append_nil]
    exact tracked.lastOnly
  · rw [List.append_nil]
    exact split

/-- A thread leaves the flag's section. -/
theorem leaves (tracked : Tracked link events) (discipline : Discipline link)
    (stackEq : link.threads thread = activation :: rest) (owns : activation.owns = true)
    (threads : link'.threads = Function.update link.threads thread stack)
    (outer : ∀ next ∈ stack, next.owns = false)
    (here : ∀ current, activation.Counts link.term.mSndIdx current →
      (∀ entry ∈ current, link.term.sndQue.getLast? = some entry.1) →
        (∀ entry ∈ current, link'.term.sndQue.getLast? = some entry.1) ∧
          (current.length : ℤ) = link'.term.mSndIdx.toInt) : Tracked link' events := by
  rcases tracked with ⟨lastOnly, earlier, current, split, between, tally⟩
  have mine := tally.counts thread activation (by rw [stackEq]; exact List.mem_cons_self)
  rcases here current mine tally.back with ⟨back, length⟩
  refine ⟨lastOnly, earlier, current, split, between, ?_⟩
  apply Tally.acts discipline stackEq owns threads back fun _ => length
  intro next present
  exact Activation.counts_of_not_owns (outer next present)

/-- A step outside the flag's section without an event. -/
theorem stays (tracked : Tracked link events)
    (back : ∀ req, link.term.sndQue.getLast? = some req → link'.term.sndQue.getLast? = some req)
    (mSndIdx : link'.term.mSndIdx = link.term.mSndIdx)
    (running : link'.term.sndRunning = link.term.sndRunning)
    (threads : ∀ other next, next ∈ link'.threads other →
      next ∈ link.threads other ∨ next.owns = false) : Tracked link' events := by
  rcases tracked with ⟨lastOnly, earlier, current, split, between, tally⟩
  refine ⟨lastOnly, earlier, current, split, between, ?_⟩
  apply tally.frame _ mSndIdx running threads
  intro entry present
  exact back entry.1 (tally.back entry present)

/-- A thread takes the flag. -/
theorem enters (tracked : Tracked link events) (idle : link.term.sndRunning = false)
    (threads : link'.threads = Function.update link.threads thread [.entering])
    (running : link'.term.sndRunning = true) (mSndIdx : link'.term.mSndIdx = link.term.mSndIdx)
    (back : ∀ req, link.term.sndQue.getLast? = some req → link'.term.sndQue.getLast? = some req) :
    Tracked link' events := by
  rcases tracked with ⟨lastOnly, earlier, current, split, between, tally⟩
  refine ⟨lastOnly, earlier, current, split, between, ?_, ?_, ?_⟩
  · exact fun entry present => back _ (tally.back entry present)
  · intro stopped
    rw [running] at stopped
    cases stopped
  · intro other next present
    rw [mSndIdx]
    rw [threads] at present
    rcases mem_update present with ⟨rfl, here⟩ | ⟨_, old⟩
    · rw [List.mem_singleton.mp here]
      exact tally.outside idle
    · exact tally.counts other next old

/-- A thread goes on after `ReadRmtEdge`. -/
theorem afterEdge {packet : Option (NextPacket × HRESULT)} (tracked : Tracked link events)
    (discipline : Discipline link) (isEdge : activation = .checkingEdge packet ∨
      ∃ rmtToken, activation = .readingEdge rmtToken packet)
    (stackEq : link.threads thread = activation :: rest)
    (threads : link'.threads = Function.update link.threads thread
      (Hermes.afterEdge packet ++ rest))
    (running : link'.term.sndRunning = link.term.sndRunning)
    (mSndIdx : link'.term.mSndIdx = link.term.mSndIdx)
    (sndQue : link'.term.sndQue = link.term.sndQue) : Tracked link' events := by
  cases packet with
  | none =>
      refine tracked.stays ?_ mSndIdx running ?_
      · rw [sndQue]
        exact fun _ back => back
      · intro other next present
        rw [threads] at present
        rcases mem_update present with ⟨rfl, here⟩ | ⟨_, old⟩
        · rw [stackEq]
          exact Or.inl (List.mem_cons_of_mem _ here)
        · exact Or.inl old
  | some packet =>
      have owns : activation.owns = true := by
        rcases isEdge with rfl | ⟨_, rfl⟩ <;> rfl
      apply tracked.goes discipline stackEq owns threads running
      · rw [sndQue]
        exact fun _ back => back
      · rw [mSndIdx]
        rcases isEdge with rfl | ⟨_, rfl⟩ <;> exact fun _ counts => counts

theorem run (tracked : Tracked link events) (flow : Flow config link)
    (discipline : Discipline link) (ran : RunStep config link thread replies link') :
    Tracked link' (events ++ sendEvents config link (.run thread replies)) := by
  cases ran with
  | @queued req rest stackEq running =>
      simp only [sendEvents, stackEq, List.append_nil]
      refine tracked.stays ?_ rfl rfl ?_
      · intro last back
        simp [Link.setStack, List.getLast?_cons, back]
      · intro other next present
        rcases mem_update present with ⟨rfl, here⟩ | ⟨_, old⟩
        · rw [stackEq]
          exact Or.inl (List.mem_cons_of_mem _ here)
        · exact Or.inl old
  | @entered req rest stackEq idle =>
      simp only [sendEvents, stackEq, List.append_nil]
      have alone := discipline.rest_of_sending idle stackEq
      subst alone
      refine tracked.enters idle rfl rfl rfl ?_
      intro last back
      simp [Link.setStack, List.getLast?_cons, back]
  | checked stackEq queue running =>
      simp only [sendEvents, stackEq, List.append_nil]
      exact tracked.goes discipline stackEq rfl rfl rfl (fun _ back => back) fun _ counts => counts
  | noSpace stackEq next =>
      simp only [sendEvents, stackEq, List.append_nil]
      exact tracked.goes discipline stackEq rfl rfl rfl (fun _ back => back) fun _ counts => counts
  | space stackEq found =>
      simp only [sendEvents, stackEq, List.append_nil]
      exact tracked.goes discipline stackEq rfl rfl rfl (fun _ back => back) fun _ counts => counts
  | left stackEq =>
      simp only [sendEvents, stackEq, List.append_nil]
      rcases discipline.owned stackEq rfl with ⟨_, rfl, _⟩
      exact tracked.leaves discipline stackEq rfl rfl (by simp [Activation.owns])
        fun _ counts backs => ⟨backs, counts⟩
  | dropped stackEq emitted =>
      rcases discipline.owned stackEq rfl with ⟨_, _, serves, _⟩
      rcases serves.emitReady with ⟨index, working, ledger, ready⟩
      have emits := ready.emits flow emitted false
      have closed : link.term.rmtMemToken = 0 := by
        rcases emits.outcome with ⟨closed, _⟩ | ⟨_, _, posting⟩
        · exact closed
        · cases posting
      have term := emits.term
      subst term
      simp only [sendEvents, stackEq, closed, if_true, List.append_nil]
      exact tracked.goes discipline stackEq rfl rfl rfl (fun _ back => back) fun _ counts => counts
  | @posted rest next term mem writes hr stackEq emitted =>
      rcases discipline.owned stackEq rfl with ⟨_, _, serves, _⟩
      rcases serves.emitReady with ⟨index, working, ledger, ready⟩
      have emits := ready.emits flow emitted true
      have term := emits.term
      subst term
      rcases emits.outcome with ⟨_, posting⟩ | ⟨opened, answered, posting⟩
      · cases posting
      · simp only [sendEvents, stackEq, opened, if_false]
        have taken := writesTaken_eq flow answered
        simp only [Posting.posted.injEq] at posting
        refine tracked.moves discipline stackEq rfl rfl rfl ?_
        intro earlier current split between backs counts
        refine ⟨earlier, current ++ [(next.req, writesTaken config link.term next replies)],
          tracked.lastOnly.append (by simp), ?_, between, ?_, ?_⟩
        · rw [split, postedEvents, postedEvents, List.map_append, List.append_assoc]
          rfl
        · intro entry present
          rcases List.mem_append.mp present with old | new
          · exact backs entry old
          · rw [List.mem_singleton.mp new]
            exact working.back
        · simp only [Activation.Counts, List.length_append, List.length_singleton,
            List.getLast?_concat, Option.map_some, Option.some.injEq] at counts ⊢
          refine ⟨by rw [Nat.cast_add, counts]; rfl, ?_⟩
          rw [taken, posting.2]
          exact status_eq_hOk_iff answered.first
  | closed stackEq =>
      simp only [sendEvents, stackEq, List.append_nil]
      rcases discipline.owned stackEq rfl with ⟨_, rfl, _⟩
      exact tracked.leaves discipline stackEq rfl rfl (by simp)
        fun _ counts backs => ⟨backs, counts⟩
  | skipped stackEq check =>
      simp only [sendEvents, stackEq, List.append_nil]
      exact tracked.afterEdge discipline (Or.inl rfl) stackEq rfl rfl rfl rfl
  | @passed rest packet rmtToken stackEq check =>
      simp only [sendEvents, stackEq, List.append_nil]
      cases packet with
      | none =>
          refine tracked.stays (fun _ back => back) rfl rfl ?_
          intro other next present
          rcases mem_update present with ⟨rfl, here⟩ | ⟨_, old⟩
          · rw [stackEq]
            rcases List.mem_cons.mp here with rfl | below
            · exact Or.inr rfl
            · exact Or.inl (List.mem_cons_of_mem _ below)
          · exact Or.inl old
      | some packet =>
          exact tracked.goes discipline stackEq rfl rfl rfl (fun _ back => back)
            fun _ counts => counts
  | read stackEq answered =>
      simp only [sendEvents, stackEq, List.append_nil]
      exact tracked.afterEdge discipline (Or.inr ⟨_, rfl⟩) stackEq rfl rfl rfl rfl
  | again stackEq more =>
      simp only [sendEvents, stackEq, List.append_nil]
      rcases discipline.owned stackEq rfl with ⟨_, _, ⟨index, working, ledger⟩, _⟩
      have few := working.atPacket.count_lt
      have further := working.atPacket.more
      refine tracked.goes discipline stackEq rfl rfl rfl (fun _ back => back) ?_
      intro current counts
      have next : (link.term.mSndIdx + 1).toInt = index + 1 :=
        toInt_add_one working.atPacket.idx (by simp only [int16Max] at few; omega)
      have idx := working.atPacket.idx
      simp only [Activation.Counts, Link.setStack, next, ← idx]
      exact counts.1
  | @finished rest next hr stackEq done =>
      simp only [sendEvents, stackEq, List.append_nil]
      rcases discipline.owned stackEq rfl with ⟨_, _, ⟨index, working, ledger⟩, _⟩
      have idx := working.atPacket.idx
      have last : index + 1 = count packetSize next.req.buf.bytes := by
        have := working.atPacket.more
        have := working.atPacket.size_gt_iff.not
        omega
      refine tracked.goes discipline stackEq rfl rfl rfl (fun _ back => back) ?_
      rintro current ⟨length, taken⟩
      refine ⟨?_, taken⟩
      rw [idx] at length
      omega
  | @notified rest req hr stackEq =>
      simp only [sendEvents, stackEq]
      rcases discipline.owned stackEq rfl with ⟨_, _, ⟨isBack, _⟩, _⟩
      refine tracked.moves discipline stackEq rfl rfl rfl ?_
      rintro earlier current split between backs ⟨length, taken⟩
      refine ⟨events ++ [.notified req hr], [], ?_, by simp [postedEvents], ?_, by simp, rfl⟩
      · apply tracked.lastOnly.append
        intro req' status same
        cases same
        refine ⟨earlier, current.map Prod.snd, ?_, between,
          by rw [List.length_map]; exact length, ?_⟩
        · rw [split, postedEvents, List.map_map]
          congr 1
          apply List.map_congr_left
          intro entry present
          have same := (backs entry present).symm.trans isBack
          cases same
          rfl
        · rw [List.getLast?_map]
          exact taken
      · intro event last
        simp only [List.getLast?_concat, Option.mem_def, Option.some.injEq] at last
        exact ⟨req, hr, last.symm⟩
  | returned stackEq =>
      simp only [sendEvents, stackEq, List.append_nil]
      exact tracked.goes discipline stackEq rfl rfl rfl (fun _ back => back) fun _ counts => counts
  | emptied stackEq back same empty =>
      simp only [sendEvents, stackEq, List.append_nil]
      rcases discipline.owned stackEq rfl with ⟨_, rfl, ⟨_, zero, _⟩, _⟩
      refine tracked.leaves discipline stackEq rfl rfl (by simp) ?_
      rintro current rfl backs
      refine ⟨by simp, ?_⟩
      simp [Link.setStack, zero]
  | popped stackEq back same remaining =>
      simp only [sendEvents, stackEq]
      rcases discipline.owned stackEq rfl with ⟨_, _, ⟨_, zero, _⟩, _⟩
      refine tracked.moves discipline stackEq rfl rfl rfl ?_
      rintro earlier current split between backs rfl
      refine ⟨earlier, [], by rw [List.append_nil]; exact tracked.lastOnly,
        ?_, between, by simp, ?_⟩
      · rw [List.append_nil]
        exact split
      · simp [Activation.Counts, Link.setStack, zero]

theorem step (tracked : Tracked link events) (flow : Flow config link)
    (discipline : Discipline link) {action : LinkAction}
    (stepped : LinkStep config link action link') :
    Tracked link' (events ++ sendEvents config link action) := by
  -- outside `run` a step has no event, and only `enter` takes the flag
  have quiet : ∀ {link' : Link}, link'.term.sndQue = link.term.sndQue →
      link'.term.mSndIdx = link.term.mSndIdx → link'.term.sndRunning = link.term.sndRunning →
      link'.threads = link.threads → Tracked link' (events ++ []) := by
    intro link' sndQue mSndIdx running threads
    rw [List.append_nil]
    refine tracked.stays ?_ mSndIdx running ?_
    · rw [sndQue]
      exact fun _ back => back
    · intro other next present
      rw [threads] at present
      exact Or.inl present
  cases stepped with
  | run ran => exact tracked.run flow discipline ran
  | @called thread req free admitted =>
      simp only [sendEvents, List.append_nil]
      refine tracked.stays (fun _ back => back) rfl rfl ?_
      intro other next present
      rcases mem_update present with ⟨rfl, here⟩ | ⟨_, old⟩
      · rcases List.mem_cons.mp here with rfl | below
        · exact Or.inr rfl
        · exact Or.inl below
      · exact Or.inl old
  | @entered thread free idle queue =>
      simp only [sendEvents, List.append_nil]
      have threads : (({ link with term := { link.term with sndRunning := true } } :
          Link).setStack thread (.entering :: link.threads thread)).threads =
            Function.update link.threads thread [.entering] := by
        rw [Link.setStack, discipline.idle_of_callsFrom idle free]
      exact tracked.enters idle threads rfl rfl fun _ back => back
  | _ => exact quiet rfl rfl rfl rfl

end Tracked

section Covers

variable {config : LinkConfig} {link : Link} {events before after : List SendEvent} {req : SndReq}
  {status : StatusCode}

theorem tracked_invariant {allowed : Link → LinkAction → Prop}
    (reachable : (loggedLink config).Reachable (fun state => allowed state.1) (link, events)) :
    Tracked link events := by
  have whole : Flow config link ∧ Discipline link ∧ Tracked link events := by
    apply reachable.invariant fun state =>
      Flow config state.1 ∧ Discipline state.1 ∧ Tracked state.1 state.2
    · rintro ⟨link, events⟩ ⟨started, empty⟩
      simp only at empty
      subst empty
      exact ⟨.start started, .start started, .start started⟩
    · rintro ⟨link, events⟩ action ⟨link', events'⟩ ⟨flow, discipline, tracked⟩ _ stepped
      rcases Machine.logged_step.mp stepped with ⟨isStep, more⟩
      have cases := step_cases isStep
      simp only at more
      subst more
      exact ⟨flow.step discipline.emitReady cases, discipline.step flow cases,
        tracked.step flow discipline cases⟩
  exact whole.2.2

/-- In every run, a notification comes right after the packets of its message, and `H_ok` covers
the writes of all of them if and only if those of the last packet were not accepted or those of all
packets before it were. -/
theorem status_covers
    (reachable : (loggedLink config).Reachable (fun state => AnyAction state.1) (link, events))
    (notified : events = before ++ .notified req status :: after) :
    ∃ (earlier : List SendEvent) (results : List Bool),
      before = earlier ++ results.map (.posted req) ∧ BetweenMessages earlier ∧
        results.length = count packetSize req.buf.bytes ∧
        ((status = hOk → ∀ taken ∈ results, taken = true) ↔
          (results.getLast? ≠ some true ∨ ∀ taken ∈ results.dropLast, taken = true)) := by
  rcases (tracked_invariant reachable).lastOnly before req status after notified with
    ⟨earlier, results, split, between, length, last⟩
  refine ⟨earlier, results, split, between, length, ?_⟩
  rw [last]
  constructor
  · intro covers
    by_cases taken : results.getLast? = some true
    · exact Or.inr fun other present => covers taken other (List.mem_of_mem_dropLast present)
    · exact Or.inl taken
  · rintro (refused | front) taken other present
    · exact absurd taken refused
    · rw [← List.dropLast_append_getLast? true taken] at present
      rcases List.mem_append.mp present with before | last
      · exact front other before
      · exact List.mem_singleton.mp last

/-- A ring of 64 KiB. -/
def wideRing : LinkConfig where
  sendBuf := ⟨0x10000, 65536⟩
  rcvData := 0x20000
  exponent := 16
  small := by decide
  power := rfl
  aligned := by decide

/-- The write of the first packet of a message of two is canceled, that of the second is taken, and
the message is notified with `H_ok`. -/
theorem first_packet_lost {req : SndReq} (size : req.buf.size = 32784)
    (address : 16 ∣ req.buf.data) :
    ∃ link, (loggedLink wideRing).Reachable (fun state => AnyAction state.1)
      (link, [.posted req false, .posted req true, .notified req hOk]) := by
  have admitted : sendAdmits req.buf = true := by
    rw [sendAdmits, size]
    decide
  have packets : count packetSize req.buf.bytes = 2 := by
    have length : req.buf.bytes.length = 32784 := size
    rw [count, length]
    decide
  let link := wideRing.loopingLink req
  have reachable := logged_loopingLink wideRing admitted
  have looping : link.threads 0 = [.looping] := setStack_self _ _ _
  have found : ∃ index, Stands wideRing link.term index :=
    looping_stands reachable.unlogged looping
  rcases found with ⟨index, stands⟩
  have first : index = 0 := by
    have idx : (0 : Int16).toInt = (index : ℤ) := stands.idx
    simpa using idx.symm
  subst first
  have size0 : (⟨req, 0⟩ : Parcel).size = 32800 := by
    rw [Parcel.size_eq, size]
    simp [packetSize, msgEndSize]
  have size1 : (⟨req, 1⟩ : Parcel).size = 48 := by
    rw [Parcel.size_eq, size]
    simp [packetSize, msgEndSize]
  have last0 : (⟨req, 0⟩ : Parcel).last = false := by
    simp only [Parcel.last, packets]
    rfl
  have last1 : (⟨req, 1⟩ : Parcel).last = true := by
    simp only [Parcel.last, packets]
    rfl
  have aligned0 : (⟨req, 0⟩ : Parcel).aligned = true := (Parcel.aligned_iff _).mpr address
  have aligned1 : (⟨req, 1⟩ : Parcel).aligned = true := (Parcel.aligned_iff _).mpr address
  -- the first packet
  have available0 : link.term.available = 65536 := by
    change ((UInt64.ofNat 65536) - 0).toNat = 65536
    decide
  have edge0 : link.term.sndEnd.writeEdge = 0 := rfl
  have space0 : (⟨req, 0⟩ : Parcel).size ≤ link.term.available := by
    rw [size0, available0]
    decide
  have refused0 : writesRefused (splitAt wideRing.ring link.term.sndEnd.writeEdge.toNat 0
      (⟨req, 0⟩ : Parcel).size) { firstHalf := ndCanceled } = false := by
    rw [size0, edge0]
    decide
  have opened0 : link.term.rmtMemToken ≠ 0 := by
    change (1 : UInt32) ≠ 0
    decide
  have back0 : link.term.sndQue.getLast? = some req := rfl
  have planned0 : planRead link.term.rmtTagToken link.term.pendingRead ndPending = some 1 := rfl
  rcases packet_runs looping stands back0 space0 aligned0 opened0 refused0 planned0 with
    ⟨link1, state1, returned1, turned1, runs1, leaves1⟩
  have goesOn : returned1 = false := by
    have ends := turned1.ends
    rw [last0] at ends
    simpa using ends
  subst goesOn
  have called1 : state1.called = [] := by
    rw [turned1.called, last0]
    rfl
  have queue1 : link1.term.sndQue.getLast? = some req := by
    rw [leaves1.term, turned1.term, last0]
    rfl
  have tokens1 : link1.term.rmtMemToken = 1 ∧ link1.term.rmtTagToken = 1 ∧
      link1.term.pendingRead = 1 := by
    rw [leaves1.term, turned1.term]
    exact ⟨rfl, rfl, rfl⟩
  rcases turned1.stands stands back0 space0 with ⟨next, stands1, _, available1, _⟩
  rw [← leaves1.term] at stands1 available1
  have second : next = 1 := by
    have idx : link1.term.mSndIdx = 1 := by
      rw [leaves1.term, turned1.term, last0]
      rfl
    have := stands1.idx
    rw [idx] at this
    simpa using this.symm
  subst second
  have looping1 : link1.threads 0 = [.looping] := by
    rw [leaves1.threads, Function.update_self]
    rfl
  -- the second packet
  have space1 : (⟨req, 1⟩ : Parcel).size ≤ link1.term.available := by
    have before : ({ term := link.term, mem := link.mem } : Sending).term.available = 65536 :=
      available0
    rw [available1, before, size0, size1]
    decide
  have planned1 : planRead link1.term.rmtTagToken link1.term.pendingRead ndPending = some 2 := by
    rw [tokens1.2.1, tokens1.2.2]
    rfl
  have opened1 : link1.term.rmtMemToken ≠ 0 := by
    rw [tokens1.1]
    decide
  have refused1 : writesRefused (splitAt wideRing.ring link1.term.sndEnd.writeEdge.toNat 0
      (⟨req, 1⟩ : Parcel).size) {} = false := by
    have taken : accepted ndPending = true := rfl
    simp [writesRefused, taken]
  rcases packet_runs looping1 stands1 queue1 space1 aligned1 opened1 refused1 planned1 with
    ⟨link2, state2, returned2, turned2, runs2, leaves2⟩
  have called2 : state2.called = [(req, hOk)] := by
    rw [turned2.called, last1]
    rfl
  refine ⟨link2, reachable.trans ?_⟩
  have runs := runs1.trans runs2 []
  rw [called1, called2] at runs
  exact runs

def twoPackets : SndReq := ⟨0, ⟨0, List.replicate 32784 0⟩, 0⟩

theorem twoPackets_size : twoPackets.buf.size = 32784 := List.length_replicate

/-- The log of a message of two packets. -/
theorem status_covers_two_packets :
    ∃ (earlier : List SendEvent) (results : List Bool),
      [SendEvent.posted twoPackets false, .posted twoPackets true] =
          earlier ++ results.map (.posted twoPackets) ∧ BetweenMessages earlier ∧
        results.length = count packetSize twoPackets.buf.bytes ∧
        ((hOk = hOk → ∀ taken ∈ results, taken = true) ↔
          (results.getLast? ≠ some true ∨ ∀ taken ∈ results.dropLast, taken = true)) := by
  rcases first_packet_lost twoPackets_size (by decide) with ⟨link, reachable⟩
  exact status_covers reachable rfl

/-- With a canceled first packet and an accepted last one, the callback gets `H_ok`. -/
theorem status_ignores_first_packet :
    ¬∀ (config : LinkConfig) (link : Link) (before after : List SendEvent) (req : SndReq)
        (earlier : List SendEvent) (results : List Bool),
      (loggedLink config).Reachable (fun state => AnyAction state.1)
          (link, before ++ .notified req hOk :: after) →
        before = earlier ++ results.map (.posted req) → BetweenMessages earlier →
          ∀ taken ∈ results, taken = true := by
  intro always
  rcases first_packet_lost twoPackets_size (by decide) with ⟨link, reachable⟩
  have taken := always wideRing link [.posted twoPackets false, .posted twoPackets true] []
    twoPackets [] [false, true] reachable rfl (by simp [BetweenMessages]) false (by simp)
  cases taken

end Covers

end Hermes
