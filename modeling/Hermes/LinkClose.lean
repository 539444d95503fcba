import Hermes.Base.Advance
import Hermes.LibraryStep
import Hermes.QueuePair

/-!
# A connection after its end

Closing a connection clears the two tokens of the peer, and `ProcessSendQ` and
`ReadRmtEdge` look at them once each.  `Quiets` says what no step of a closed
connection undoes: no frame is posted, no thread gets past the check before an edge
read, and only the request whose frame was posted last can still be notified.
`closed_connection_quiet` has this for whole runs, and that all other requests stay
in the queue.
-/

namespace Hermes

/-- The tokens of the peer are cleared. -/
def Link.Closed (link : Link) : Prop :=
  link.term.rmtMemToken = 0 ∧ link.term.rmtTagToken = 0

/-- The frames posted so far. -/
def Link.posted (link : Link) : List Emission := link.emissions.filter (·.posted)

/-- The request of the packet posted last, until it is notified. -/
def Activation.concludes? : Activation → Option SndReq
  | checkingEdge (some (next, _)) | readingEdge _ (some (next, _)) | advancing next _ =>
      some next.req
  | notifying req _ => some req
  | _ => none

def concluding : List Activation → Option SndReq
  | [] => none
  | activation :: _ => activation.concludes?

/-- A thread may go on to notify the request. -/
def Link.Concludes (link : Link) (req : SndReq) : Prop :=
  ∃ thread, concluding (link.threads thread) = some req

/-- What the steps of a closed connection leave as it is. -/
structure Link.Quiets (link link' : Link) : Prop where
  inserted : link.inserted <+: link'.inserted
  posted : link'.posted = link.posted
  notified : (link'.called = link.called ∧ ∀ req, link'.Concludes req → link.Concludes req) ∨
    ∃ entry, link'.called = link.called ++ [entry] ∧ link.Concludes entry.1 ∧
      ∀ req, ¬link'.Concludes req
  readers : link'.readers ⊆ link.readers
  reads : link.readers.Finite →
    link'.outReads + link'.readers.ncard ≤ link.outReads + link.readers.ncard

instance : Std.Refl Link.Quiets where
  refl _ := ⟨List.prefix_rfl, rfl, .inl ⟨rfl, fun _ => id⟩, subset_rfl, fun _ => le_rfl⟩

instance : IsTrans Link Link.Quiets where
  trans first second third before after := by
    refine ⟨before.inserted.trans after.inserted, after.posted.trans before.posted, ?_,
      after.readers.trans before.readers, ?_⟩
    · rcases after.notified with ⟨same, still⟩ | ⟨entry, grows, concludes, none⟩
      · rcases before.notified with ⟨same', still'⟩ | ⟨entry, grows, concludes, none⟩
        · exact .inl ⟨same.trans same', fun req later => still' req (still req later)⟩
        · refine .inr ⟨entry, same.trans grows, concludes, ?_⟩
          exact fun req later => none req (still req later)
      · rcases before.notified with ⟨same', still'⟩ | ⟨_, _, _, none'⟩
        · exact .inr ⟨entry, same' ▸ grows, still' _ concludes, none⟩
        · exact absurd concludes (none' _)
    · intro finite
      exact (after.reads (finite.subset before.readers)).trans (before.reads finite)

section Steps

variable {config : LinkConfig} {link link' : Link} {thread : ℕ} {activation : Activation}
  {rest stack : List Activation}

@[simp]
theorem concluding_cons (activation : Activation) (rest : List Activation) :
    concluding (activation :: rest) = activation.concludes? := rfl

theorem StackShape.below_concluding (shape : StackShape (activation :: rest)) :
    concluding rest = none := by
  cases shape with
  | single => rfl
  | nested req served => rfl

@[simp]
theorem concludes_checkingEdge (packet : Option (NextPacket × HRESULT)) :
    (Activation.checkingEdge packet).concludes? = packet.map fun pair => pair.1.req := by
  cases packet <;> rfl

@[simp]
theorem concludes_readingEdge (rmtToken : UInt32) (packet : Option (NextPacket × HRESULT)) :
    (Activation.readingEdge rmtToken packet).concludes? = packet.map fun pair => pair.1.req := by
  cases packet <;> rfl

theorem afterEdge_concluding (shape : StackShape (activation :: rest))
    (packet : Option (NextPacket × HRESULT)) :
    concluding (afterEdge packet ++ rest) = packet.map fun pair => pair.1.req := by
  cases packet with
  | none => exact shape.below_concluding
  | some packet => rfl

/-- Nothing new is concluded when the thread that moves concludes nothing new. -/
theorem concludes_update (threads : link'.threads = Function.update link.threads thread stack)
    (still : ∀ req, concluding stack = some req → concluding (link.threads thread) = some req)
    {req : SndReq} (concludes : link'.Concludes req) : link.Concludes req := by
  rcases concludes with ⟨other, concludes⟩
  rw [threads] at concludes
  by_cases same : other = thread
  · subst same
    rw [Function.update_self] at concludes
    exact ⟨other, still req concludes⟩
  · rw [Function.update_of_ne same] at concludes
    exact ⟨other, concludes⟩

theorem Activation.owns_of_concludes {req : SndReq} (concludes : activation.concludes? = some req) :
    activation.owns = true := by
  cases activation with
  | checkingEdge packet | readingEdge _ packet =>
      cases packet with
      | none => cases concludes
      | some packet => rfl
  | advancing | notifying => rfl
  | _ => cases concludes

/-- Who concludes a request is the owner of the flag. -/
theorem Link.Concludes.owner {req : SndReq} (concludes : link.Concludes req) :
    ∃ thread activation rest, link.threads thread = activation :: rest ∧
      activation.concludes? = some req ∧ activation.owns = true := by
  rcases concludes with ⟨thread, concludes⟩
  cases stackEq : link.threads thread with
  | nil =>
      rw [stackEq] at concludes
      cases concludes
  | cons activation rest =>
      rw [stackEq] at concludes
      exact ⟨thread, activation, rest, stackEq, concludes, Activation.owns_of_concludes concludes⟩

/-- A thread that reads no edge gets another stack, and nothing is notified. -/
theorem quiets_of_stack (threads : link'.threads = Function.update link.threads thread stack)
    (inserted : link.inserted <+: link'.inserted) (posted : link'.posted = link.posted)
    (called : link'.called = link.called) (outReads : link'.outReads = link.outReads)
    (still : ∀ req, concluding stack = some req → concluding (link.threads thread) = some req)
    (before : readsEdge (link.threads thread) = false) (after : readsEdge stack = false) :
    link.Quiets link' := by
  have readers : link'.readers = link.readers := readers_update threads before after
  refine ⟨inserted, posted, .inl ⟨called, fun req => concludes_update threads still⟩,
    readers.subset, fun _ => ?_⟩
  rw [readers, outReads]

theorem quiets_of_move (stackEq : link.threads thread = activation :: rest)
    (threads : link'.threads = Function.update link.threads thread stack)
    (inserted : link.inserted <+: link'.inserted) (posted : link'.posted = link.posted)
    (called : link'.called = link.called) (outReads : link'.outReads = link.outReads)
    (still : ∀ req, concluding stack = some req → activation.concludes? = some req)
    (before : readsEdge (activation :: rest) = false) (after : readsEdge stack = false) :
    link.Quiets link' := by
  apply quiets_of_stack threads inserted posted called outReads
  · intro req concludes
    rw [stackEq]
    exact still req concludes
  · rw [stackEq]
    exact before
  · exact after

/-- A thread of a closed connection goes on. -/
theorem RunStep.quiets {replies : SendReplies} (discipline : Discipline link)
    (closed : link.Closed) (ran : RunStep config link thread replies link') :
    link'.Closed ∧ link.Quiets link' := by
  have shape := discipline.shape thread
  cases ran with
  | queued stackEq running =>
      rw [stackEq] at shape
      refine ⟨closed, quiets_of_move stackEq rfl ⟨_, rfl⟩ rfl rfl rfl ?_ rfl shape.below_readsEdge⟩
      simp [shape.below_concluding]
  | entered stackEq idle =>
      refine ⟨closed, quiets_of_move stackEq rfl ⟨_, rfl⟩ rfl rfl rfl ?_ rfl rfl⟩
      simp [Activation.concludes?]
  | checked stackEq | noSpace stackEq | space stackEq | left stackEq | again stackEq
  | returned stackEq | popped stackEq =>
      refine ⟨closed, quiets_of_move stackEq rfl List.prefix_rfl rfl rfl rfl ?_ rfl rfl⟩
      simp [Activation.concludes?]
  | closed stackEq | emptied stackEq =>
      rw [stackEq] at shape
      refine ⟨closed, quiets_of_move stackEq rfl List.prefix_rfl rfl rfl rfl ?_ rfl
        shape.below_readsEdge⟩
      simp [shape.below_concluding]
  | dropped stackEq emitted =>
      cases Terminal.emitPacket_term emitted
      refine ⟨closed, quiets_of_move stackEq rfl List.prefix_rfl ?_ rfl rfl ?_ rfl rfl⟩
      · simp [Link.posted, Link.setStack, Link.emitted, Link.recordFrame]
      · simp [Activation.concludes?]
  | posted stackEq emitted =>
      have closing := (Terminal.emitPacket_posting emitted).mpr closed.1
      cases closing
  | skipped stackEq check =>
      rw [stackEq] at shape
      refine ⟨closed, quiets_of_move stackEq rfl List.prefix_rfl rfl rfl rfl ?_ rfl
        (afterEdge_readsEdge shape _)⟩
      simp [afterEdge_concluding shape]
  | passed stackEq check =>
      simp [Terminal.checkRmtEdge, closed.2] at check
  | read stackEq answered =>
      rename_i rest packet rmtToken
      rw [stackEq] at shape
      have present : thread ∈ link.readers := by simp [Link.readers, stackEq, readsEdge]
      have removed : (({ link with
          term := { link.term with pendingRead := link.term.pendingRead + 1 }
          outReads := link.outReads + if accepted replies.read then 1 else 0 } : Link).setStack
            thread (afterEdge packet ++ rest)).readers = link.readers \ {thread} :=
        readers_read rfl (afterEdge_readsEdge shape packet)
      refine ⟨closed, List.prefix_rfl, rfl, .inl ⟨rfl, fun req => concludes_update rfl ?_⟩, ?_, ?_⟩
      · simp [afterEdge_concluding shape, stackEq]
      · rw [removed]
        exact Set.sdiff_subset
      · intro finite
        have one := Set.ncard_sdiff_singleton_add_one present finite
        rw [removed]
        simp only [Link.setStack]
        split <;> omega
  | finished stackEq done =>
      exact ⟨closed, quiets_of_move stackEq rfl List.prefix_rfl rfl rfl rfl (fun _ => id) rfl rfl⟩
  | notified stackEq =>
      rename_i rest req hr
      rcases discipline.owned stackEq rfl with ⟨_, _, _, others⟩
      have readers : (({ link with called := link.called ++ [(req, hr)] } : Link).setStack thread
          (.inCallback req :: rest)).readers = link.readers := by
        apply readers_update rfl
        · rw [stackEq]
          rfl
        · rfl
      refine ⟨closed, List.prefix_rfl, rfl, .inr ⟨(req, hr), rfl, ?_, ?_⟩, readers.subset, ?_⟩
      · refine ⟨thread, ?_⟩
        rw [stackEq]
        rfl
      · intro other concludes
        rcases concludes.owner with ⟨holder, activation, below, stack, concludes, owns⟩
        by_cases same : holder = thread
        · subst same
          rw [setStack_self] at stack
          cases stack
          cases concludes
        · rw [setStack_other _ same] at stack
          have none := others holder same
          have mine : owner (link.threads holder) = some activation := by
            rw [show link.threads holder = activation :: below from stack]
            exact owner_cons owns below
          simp [none] at mine
      · intro _
        rw [readers]
        rfl

/-- Whatever happens on a closed connection. -/
theorem LinkStep.quiets {action : LinkAction} (discipline : Discipline link)
    (closed : link.Closed) (stepped : LinkStep config link action link') :
    link'.Closed ∧ link.Quiets link' := by
  cases stepped with
  | run ran => exact ran.quiets discipline closed
  | called free admitted =>
      rename_i thread req
      refine ⟨closed, quiets_of_stack rfl List.prefix_rfl rfl rfl rfl ?_ ?_ rfl⟩
      · simp [Activation.concludes?]
      · cases stackEq : link.threads thread with
        | nil => rfl
        | cons activation rest =>
            rw [stackEq] at free
            cases activation <;> first | rfl | simp [callsFrom] at free
  | entered free idle queue =>
      rename_i thread
      have nothing := discipline.idle_of_callsFrom idle free
      refine ⟨closed, quiets_of_stack rfl List.prefix_rfl rfl rfl rfl ?_ ?_ rfl⟩
      · simp [Activation.concludes?]
      · rw [nothing]
        rfl
  | completedRead outstanding =>
      refine ⟨closed, List.prefix_rfl, rfl, .inl ⟨rfl, fun _ => id⟩, subset_rfl, fun _ => ?_⟩
      exact Nat.add_le_add_right (Nat.sub_le _ _) _
  | closed =>
      exact ⟨⟨rfl, rfl⟩, List.prefix_rfl, rfl, .inl ⟨rfl, fun _ => id⟩, subset_rfl, fun _ => le_rfl⟩
  | _ =>
      exact ⟨closed, List.prefix_rfl, rfl, .inl ⟨rfl, fun _ => id⟩, subset_rfl, fun _ => le_rfl⟩

end Steps

section Runs

variable {config : LinkConfig} {link later : Link}

/-- What the owner of the flag has notified before it pops. -/
theorem Activation.Serves.ledger {activation : Activation} (serves : activation.Serves link) :
    ∃ done notified, Ledger link done notified ∧ notified.length ≤ 1 ∧
      ∀ req, activation.concludes? = some req → notified = [] := by
  cases activation with
  | entering | looping | full | closing =>
      rcases serves with ⟨⟨_, _, ledger, _⟩, _⟩
      exact ⟨_, _, ledger, by simp, fun _ _ => rfl⟩
  | emitting next =>
      rcases serves with ⟨_, _, ledger, _⟩
      exact ⟨_, _, ledger, by simp, fun _ _ => rfl⟩
  | checkingEdge packet | readingEdge _ packet =>
      cases packet with
      | none => exact serves.elim
      | some packet =>
          rcases serves with ⟨_, _, ledger⟩
          exact ⟨_, _, ledger, by simp, fun _ _ => rfl⟩
  | advancing next hr =>
      rcases serves with ⟨_, _, ledger⟩
      exact ⟨_, _, ledger, by simp, fun _ _ => rfl⟩
  | notifying req _ => exact ⟨_, _, serves.2.2, by simp, fun _ _ => rfl⟩
  | inCallback req | popping req =>
      refine ⟨_, _, serves.2.2, by simp, ?_⟩
      simp [Activation.concludes?]
  | sending _ => exact serves.elim

theorem Ledger.called_length {done : ℕ} {notified : List SndReq}
    (ledger : Ledger link done notified) :
    link.called.length = link.popped.length + notified.length := by
  simpa using congrArg List.length ledger.called

/-- At most the request in progress has been notified and is still in the queue. -/
theorem Discipline.called_length (discipline : Discipline link) :
    link.called.length ≤ link.popped.length + 1 := by
  cases running : link.term.sndRunning with
  | false =>
      rcases discipline.outside running with ⟨_, _, _, ledger, _⟩
      rw [ledger.called_length]
      simp
  | true =>
      rcases discipline.inside running with ⟨_, _, _, _, serves⟩
      rcases serves.ledger with ⟨_, _, ledger, one, _⟩
      rw [ledger.called_length]
      omega

/-- While it can still be notified, no request in the queue has been. -/
theorem Discipline.called_of_concludes (discipline : Discipline link) {req : SndReq}
    (concludes : link.Concludes req) : link.called.length = link.popped.length := by
  rcases concludes.owner with ⟨_, _, _, stackEq, concludes, owns⟩
  rcases discipline.owned stackEq owns with ⟨_, _, serves, _⟩
  rcases serves.ledger with ⟨_, _, ledger, _, none⟩
  rw [ledger.called_length, none req concludes]
  simp

/-- Only finitely many threads are between the check of the read counter and its increment. -/
theorem readers_finite (reachable : (linkMachine config).Reachable AnyAction link) :
    link.readers.Finite := by
  refine reachable.invariant (fun link => link.readers.Finite) ?_ ?_
  · rintro _ ⟨terminal, mem, rmt, _, rfl⟩
    simp [Link.readers, readsEdge]
  · intro link action next finite _ stepped
    cases moved : action.thread? with
    | none =>
        apply finite.subset
        intro thread reads
        have other : action.thread? ≠ some thread := by simp [moved]
        have same := (step_cases stepped).threads_other other
        simpa [Link.readers, same] using reads
    | some moving =>
        apply (finite.insert moving).subset
        intro thread reads
        by_cases here : thread = moving
        · exact .inl here
        · have other : action.thread? ≠ some thread := by
            rw [moved]
            simpa using Ne.symm here
          have same := (step_cases stepped).threads_other other
          right
          simpa [Link.readers, same] using reads

/-- A run of a closed connection. -/
theorem quiets_of_run (reachable : (linkMachine config).Reachable AnyAction link)
    (closed : link.Closed) (run : (linkMachine config).Run AnyAction link later) :
    later.Closed ∧ link.Quiets later := by
  let invariant : Link → Prop := fun state =>
    (linkMachine config).Reachable AnyAction state ∧ state.Closed
  have steps : ∀ {state action next}, invariant state → AnyAction state action →
      (linkMachine config).step state action = .ok next → next.Closed ∧ state.Quiets next := by
    rintro state action next ⟨reached, closed⟩ _ stepped
    exact (step_cases stepped).quiets (link_invariant reached).2 closed
  have kept : ∀ {state action next}, invariant state → AnyAction state action →
      (linkMachine config).step state action = .ok next → invariant next := by
    intro state action next holds admitted stepped
    exact ⟨holds.1.tail admitted stepped, (steps holds admitted stepped).1⟩
  have quiets : link.Quiets later := by
    refine run.advances invariant kept ?_ ⟨reachable, closed⟩
    intro state action next holds admitted stepped
    exact (steps holds admitted stepped).2
  exact ⟨(run.preserves kept ⟨reachable, closed⟩).2, quiets⟩

/-- No more than the request in progress is popped. -/
theorem Link.Quiets.popped_length (quiets : link.Quiets later) (discipline : Discipline link)
    (discipline' : Discipline later) : later.popped.length ≤ link.popped.length + 1 := by
  have before : later.popped.length ≤ later.called.length := by
    simpa using discipline'.inOrder.calledBefore.length_le
  rcases quiets.notified with ⟨same, _⟩ | ⟨entry, grows, concludes, _⟩
  · have bound := discipline.called_length
    rw [same] at before
    omega
  · have none := discipline.called_of_concludes concludes
    rw [grows, List.length_append, List.length_singleton] at before
    omega

/-- The requests that are not at the back of the queue stay in it. -/
theorem Link.Quiets.keeps_queue (quiets : link.Quiets later) (discipline : Discipline link)
    (discipline' : Discipline later) {req : SndReq} (queued : req ∈ link.term.sndQue.dropLast) :
    req ∈ later.term.sndQue := by
  rcases quiets.inserted with ⟨more, inserted⟩
  have left : later.term.sndQue.reverse = later.inserted.drop later.popped.length := by
    rw [discipline'.inOrder.queue, List.drop_left]
  have here : req ∈ later.inserted.drop (link.popped.length + 1) := by
    rw [← inserted, discipline.inOrder.queue, List.append_assoc, List.drop_append,
      Nat.add_sub_cancel_left, List.drop_one, List.mem_append]
    right
    cases queue : link.term.sndQue.reverse with
    | nil => simp [List.reverse_eq_nil_iff.mp queue] at queued
    | cons last rest =>
        have others : link.term.sndQue.dropLast = rest.reverse := by
          rw [← List.reverse_reverse link.term.sndQue, queue]
          simp
        rw [others, List.mem_reverse] at queued
        simp [queued]
  have there : req ∈ later.term.sndQue.reverse := by
    rw [left]
    exact List.drop_subset_drop_left _ (quiets.popped_length discipline discipline') here
  exact List.mem_reverse.mp there

/-- Once a connection is closed, whatever its threads, its peer and the provider do: no frame is
posted; the one request that can still be notified is the one whose packet was posted last, and
every request that is not at the back of the queue stays in it; and no more edge reads are posted
than threads had passed the check before. -/
theorem closed_connection_quiet (reachable : (linkMachine config).Reachable AnyAction link)
    (closed : link.Closed) (run : (linkMachine config).Run AnyAction link later) :
    later.Closed ∧ later.posted = link.posted ∧
      (later.called = link.called ∨
        ∃ entry, later.called = link.called ++ [entry] ∧ link.Concludes entry.1) ∧
      (∀ req ∈ link.term.sndQue.dropLast, req ∈ later.term.sndQue) ∧
      later.outReads ≤ link.outReads + link.readers.ncard := by
  rcases quiets_of_run reachable closed run with ⟨still, quiets⟩
  have discipline := (link_invariant reachable).2
  have discipline' := (link_invariant (reachable.trans run)).2
  refine ⟨still, quiets.posted, ?_, fun req => quiets.keeps_queue discipline discipline', ?_⟩
  · rcases quiets.notified with ⟨same, _⟩ | ⟨entry, grows, concludes, _⟩
    · exact .inl same
    · exact .inr ⟨entry, grows, concludes⟩
  · have reads := quiets.reads (readers_finite reachable)
    omega

/-- A second message without bytes. -/
def secondMessage : SndReq := ⟨1, ⟨0, []⟩, 0⟩

/-- A connection closed while a thread is in `ProcessSendQ` and another has queued a request. -/
def closedLink : Link :=
  let called := (smallRing.loopingLink emptyMessage).setStack 1 [.sending secondMessage]
  let queued := { called with
    term := { called.term with sndQue := [secondMessage, emptyMessage] }
    inserted := [emptyMessage, secondMessage] }.setStack 1 []
  { queued with term := { queued.term with rmtMemToken := 0, rmtTagToken := 0 } }

theorem reachable_closedLink : (linkMachine smallRing).Reachable AnyAction closedLink := by
  have looping : (linkMachine smallRing).Reachable AnyAction (smallRing.loopingLink emptyMessage) :=
    smallRing.reachable_loopingLink (by decide)
  have call : (linkMachine smallRing).step (smallRing.loopingLink emptyMessage)
      (.call 1 secondMessage) =
        .ok ((smallRing.loopingLink emptyMessage).setStack 1 [.sending secondMessage]) := by
    rfl
  have queue : (linkMachine smallRing).step
      ((smallRing.loopingLink emptyMessage).setStack 1 [.sending secondMessage]) (.run 1 {}) =
        .ok ({ (smallRing.loopingLink emptyMessage).setStack 1 [.sending secondMessage] with
          term := { (smallRing.loopingLink emptyMessage).term with
            sndQue := [secondMessage, emptyMessage] }
          inserted := [emptyMessage, secondMessage] }.setStack 1 []) := by
    rfl
  have close : (linkMachine smallRing).step
      ({ (smallRing.loopingLink emptyMessage).setStack 1 [.sending secondMessage] with
          term := { (smallRing.loopingLink emptyMessage).term with
            sndQue := [secondMessage, emptyMessage] }
          inserted := [emptyMessage, secondMessage] }.setStack 1 []) .close = .ok closedLink := by
    rfl
  exact ((looping.tail trivial call).tail trivial queue).tail trivial close

/-- The thread finds space and goes on; the request of the other thread stays. -/
theorem closed_connection_quiet_second :
    ∃ later, (linkMachine smallRing).Run AnyAction closedLink later ∧ later.called = [] ∧
      secondMessage ∈ later.term.sndQue := by
  let packet : NextPacket := ⟨emptyMessage, ⟨0, []⟩, 32⟩
  have found : closedLink.term.nextPacket = .ok (some packet) := by decide +kernel
  have find : (linkMachine smallRing).step closedLink (.run 0 {}) =
      .ok (closedLink.setStack 0 [.emitting packet]) := by
    have top : closedLink.threads 0 = [.looping] := rfl
    simp only [linkMachine, Link.step, Link.runThread, top, found, runCode, Except.mapError, bind,
      Except.bind]
    rfl
  have run : (linkMachine smallRing).Run AnyAction closedLink _ := .single trivial find
  have quiet := closed_connection_quiet reachable_closedLink ⟨rfl, rfl⟩ run
  exact ⟨_, run, rfl, quiet.2.2.2.1 secondMessage (by decide)⟩

end Runs

end Hermes
