import Hermes.LinkStream
import Mathlib.Algebra.Order.BigOperators.Group.List
import Mathlib.Data.Set.Card

/-!
# Requests outstanding on the queue pair

Flow control counts bytes, the initiator queue counts requests.  The writes
outstanding belong to frames beyond the edge the peer has published, and these lie
in one ring size; the reads outstanding are bounded by the read counter, up to the
threads that pass its check before they increment it.  So the queue stays within its
depth as long as no window of one ring size holds too many frames.  A ring of 8 KiB
has space for more than 256 frames of empty messages, and the bound fails there.
-/

namespace Hermes

open Memory Packets

/-- The sizes of the frames of messages, in order. -/
def frameSizes (messages : List (List UInt8)) : List ℕ :=
  (canonical messages).map fun packet => packet.body.length + 2 * msgEndSize

/-- The writes a frame takes: two when the end of the ring splits it. -/
def writesOf (ring edge size : ℕ) : ℕ := if ring < edge % ring + size then 2 else 1

/-- The writes consecutive frames take. -/
def writesFor (ring : ℕ) : ℕ → List ℕ → ℕ
  | _, [] => 0
  | edge, size :: sizes => writesOf ring edge size + writesFor ring (edge + size) sizes

/-- Consecutive frames that fit the ring together take at most `limit` writes. -/
def BurstsFit (ring limit : ℕ) (messages : List (List UInt8)) : Prop :=
  ∀ before window after, frameSizes messages = before ++ window ++ after →
    window.sum ≤ ring → writesFor ring before.sum window ≤ limit

/-- The thread is between the check of the read counter and its increment. -/
def readsEdge : List Activation → Bool
  | .readingEdge _ _ :: _ => true
  | _ => false

/-- The threads between the check of the read counter and its increment. -/
def Link.readers (link : Link) : Set ℕ := {thread | readsEdge (link.threads thread) = true}

/-- Edge reads land what the peer has published, and at most `racers` threads pass the check of
the read counter before they increment it. -/
def Promised (config : LinkConfig) (racers : ℕ) (link : Link) : LinkAction → Prop
  | .run thread _ => ∀ packet rest, link.threads thread = .checkingEdge packet :: rest →
      link.readers.ncard < racers
  | .land edge => edge ≤ config.ring + link.published
  | _ => True

namespace Emission

def writes (config : LinkConfig) (emission : Emission) : ℕ :=
  writesOf config.ring emission.edge emission.size

end Emission

/-- The end edges of the writes posted for frames beyond the published edge. -/
def Link.unpublishedWrites (config : LinkConfig) (link : Link) : List ℕ :=
  (link.emissions.filter fun emission =>
    emission.posted ∧ link.published < emission.last).flatMap fun emission =>
      List.replicate (emission.writes config) emission.last

/-- What bounds the reads outstanding. -/
structure ReadsBounded (racers : ℕ) (link : Link) : Prop where
  finite : link.readers.Finite
  pendingRead : link.term.pendingRead + link.readers.ncard ≤ racers + 1
  outReads : link.outReads ≤ link.term.pendingRead

/-- What bounds the writes outstanding: they belong to frames beyond the published edge, which is
the boundary of a frame, and only a closing connection puts frames down without posting them. -/
structure WritesBounded (config : LinkConfig) (link : Link) : Prop where
  landed : link.landed ≤ config.ring + link.published
  outWrites : link.outWrites.Sublist (link.unpublishedWrites config)
  boundary : ∃ gone rest, link.emissions = gone ++ rest ∧
    Chained Emission.edge Emission.size 0 gone link.published ∧
    Chained Emission.edge Emission.size link.published rest link.written
  postedFirst : ∃ posted dropped, link.emissions = posted ++ dropped ∧
    (∀ emission ∈ posted, emission.posted = true) ∧
    (∀ emission ∈ dropped, emission.posted = false) ∧
    (link.term.rmtMemToken ≠ 0 → dropped = [])

section Readers

variable {link link' : Link} {thread : ℕ} {activation : Activation} {rest stack : List Activation}

/-- Below the activation a thread executes there is no edge read. -/
theorem StackShape.below_readsEdge (shape : StackShape (activation :: rest)) :
    readsEdge rest = false := by
  cases shape with
  | single => rfl
  | nested req served => rfl

theorem readers_update (threads : link'.threads = Function.update link.threads thread stack)
    (before : readsEdge (link.threads thread) = false) (after : readsEdge stack = false) :
    link'.readers = link.readers := by
  ext other
  simp only [Link.readers, Set.mem_ofPred_eq, threads]
  by_cases same : other = thread
  · subst same
    rw [Function.update_self, before, after]
  · rw [Function.update_of_ne same]

/-- Passing the check adds the thread. -/
theorem readers_passed (threads : link'.threads = Function.update link.threads thread stack)
    (after : readsEdge stack = true) : link'.readers = insert thread link.readers := by
  ext other
  simp only [Link.readers, Set.mem_ofPred_eq, Set.mem_insert_iff, threads]
  by_cases same : other = thread
  · subst same
    simp [after]
  · simp [same]

/-- Incrementing the counter removes the thread. -/
theorem readers_read (threads : link'.threads = Function.update link.threads thread stack)
    (after : readsEdge stack = false) : link'.readers = link.readers \ {thread} := by
  ext other
  simp only [Link.readers, Set.mem_ofPred_eq, Set.mem_sdiff, Set.mem_singleton_iff, threads]
  by_cases same : other = thread
  · subst same
    simp [after]
  · simp [same]

theorem afterEdge_readsEdge (shape : StackShape (activation :: rest))
    (packet : Option (NextPacket × HRESULT)) : readsEdge (afterEdge packet ++ rest) = false := by
  cases packet with
  | none => exact shape.below_readsEdge
  | some packet => rfl

end Readers

section Reads

variable {config : LinkConfig} {link link' : Link} {racers : ℕ}

theorem ReadsBounded.frame (bounded : ReadsBounded racers link)
    (readers : link'.readers = link.readers)
    (pendingRead : link'.term.pendingRead = link.term.pendingRead)
    (outReads : link'.outReads = link.outReads) : ReadsBounded racers link' := by
  refine ⟨?_, ?_, ?_⟩
  · rw [readers]
    exact bounded.finite
  · rw [readers, pendingRead]
    exact bounded.pendingRead
  · rw [pendingRead, outReads]
    exact bounded.outReads

/-- A thread's step keeps the bound on the reads when not too many threads race. -/
theorem ReadsBounded.run (bounded : ReadsBounded racers link) (discipline : Discipline link)
    (flow : Flow config link) {thread : ℕ} {replies : SendReplies}
    (few : ∀ packet rest, link.threads thread = .checkingEdge packet :: rest →
      link.readers.ncard < racers)
    (ran : RunStep config link thread replies link') : ReadsBounded racers link' := by
  have shape := discipline.shape thread
  have quiet : ∀ {base : Link} {activation : Activation} {rest stack : List Activation},
      link.threads thread = activation :: rest → base.threads = link.threads →
      readsEdge (activation :: rest) = false → readsEdge stack = false →
      (base.setStack thread stack).readers = link.readers := by
    intro base activation rest stack stackEq threads before after
    apply readers_update
    · rw [Link.setStack, threads]
    · rw [stackEq]
      exact before
    · exact after
  cases ran with
  | passed stackEq check =>
      rename_i rest packet rmtToken
      have added : (link.setStack thread (.readingEdge rmtToken packet :: rest)).readers =
          insert thread link.readers := readers_passed rfl rfl
      have fresh : thread ∉ link.readers := by
        intro present
        simp [Link.readers, stackEq, readsEdge] at present
      have room : link.term.pendingRead < maxPendingRead := by
        by_contra full
        simp only [Terminal.checkRmtEdge, ge_iff_le, Nat.le_of_not_lt full, if_true] at check
        split at check <;> cases check
      have racing := few _ _ stackEq
      refine ⟨?_, ?_, bounded.outReads⟩
      · rw [added]
        exact bounded.finite.insert thread
      · rw [added, Set.ncard_insert_of_notMem fresh bounded.finite]
        simp only [Link.setStack, maxPendingRead] at *
        omega
  | read stackEq answered =>
      rename_i rest packet rmtToken
      rw [stackEq] at shape
      have present : thread ∈ link.readers := by simp [Link.readers, stackEq, readsEdge]
      have removed : (({ link with
          term := { link.term with pendingRead := link.term.pendingRead + 1 }
          outReads := link.outReads + if accepted replies.read then 1 else 0 } : Link).setStack
            thread (afterEdge packet ++ rest)).readers = link.readers \ {thread} :=
        readers_read rfl (afterEdge_readsEdge shape packet)
      have one := Set.ncard_sdiff_singleton_add_one present bounded.finite
      have before := bounded.pendingRead
      have reads := bounded.outReads
      refine ⟨?_, ?_, ?_⟩
      · rw [removed]
        exact bounded.finite.sdiff
      · rw [removed]
        simp only [Link.setStack]
        omega
      · simp only [Link.setStack]
        split <;> omega
  | queued stackEq | closed stackEq | emptied stackEq =>
      rw [stackEq] at shape
      exact bounded.frame (quiet stackEq rfl rfl shape.below_readsEdge) rfl rfl
  | skipped stackEq =>
      rw [stackEq] at shape
      exact bounded.frame (quiet stackEq rfl rfl (afterEdge_readsEdge shape _)) rfl rfl
  | dropped stackEq emitted =>
      rcases discipline.emitReady stackEq with ⟨message, index, ready⟩
      have term := (ready.emits flow emitted false).term
      subst term
      exact bounded.frame (quiet stackEq rfl rfl rfl) rfl rfl
  | posted stackEq emitted =>
      rcases discipline.emitReady stackEq with ⟨message, index, ready⟩
      have term := (ready.emits flow emitted true).term
      subst term
      exact bounded.frame (quiet stackEq rfl rfl rfl) rfl rfl
  | entered stackEq | checked stackEq | noSpace stackEq | space stackEq | left stackEq
  | again stackEq | finished stackEq | notified stackEq | returned stackEq | popped stackEq =>
      exact bounded.frame (quiet stackEq rfl rfl rfl) rfl rfl

/-- Every step keeps the bound on the reads. -/
theorem ReadsBounded.step (bounded : ReadsBounded racers link) (discipline : Discipline link)
    (flow : Flow config link) {action : LinkAction} (promised : Promised config racers link action)
    (stepped : LinkStep config link action link') : ReadsBounded racers link' := by
  cases stepped with
  | run ran => exact bounded.run discipline flow promised ran
  | called free admitted =>
      rename_i thread req
      refine bounded.frame (readers_update rfl ?_ rfl) rfl rfl
      cases stackEq : link.threads thread with
      | nil => rfl
      | cons activation rest =>
          rw [stackEq] at free
          cases activation <;> first | rfl | simp [callsFrom] at free
  | entered free idle queue =>
      rename_i thread
      have nothing := discipline.idle_of_callsFrom idle free
      refine bounded.frame (readers_update rfl ?_ rfl) rfl rfl
      rw [nothing]
      rfl
  | completedRead outstanding =>
      have reads := bounded.outReads
      have before := bounded.pendingRead
      refine ⟨bounded.finite, ?_, ?_⟩
      · have same : ({ link with
            outReads := link.outReads - 1
            term := { link.term with pendingRead := link.term.pendingRead - 1 } } :
              Link).readers = link.readers := rfl
        rw [same]
        simp only
        omega
      · simp only
        omega
  | _ => exact bounded.frame rfl rfl rfl

end Reads

section Writes

variable {config : LinkConfig} {link link' : Link} {racers : ℕ}

theorem WritesBounded.frame (bounded : WritesBounded config link)
    (landed : link'.landed = link.landed) (published : link'.published = link.published)
    (written : link'.written = link.written) (emissions : link'.emissions = link.emissions)
    (outWrites : link'.outWrites = link.outWrites)
    (rmtMemToken : link'.term.rmtMemToken = link.term.rmtMemToken) :
    WritesBounded config link' := by
  refine ⟨?_, ?_, ?_, ?_⟩
  · rw [landed, published]
    exact bounded.landed
  · rw [outWrites, Link.unpublishedWrites, emissions, published]
    exact bounded.outWrites
  · rw [emissions, published, written]
    exact bounded.boundary
  · rw [emissions, rmtMemToken]
    exact bounded.postedFirst

/-- The writes accepted for a frame are at most the writes the frame takes. -/
theorem length_acceptedWrites_le {emission : Emission} (wellFormed : emission.WellFormed config)
    (replies : SendReplies) :
    (acceptedWrites config.rcvData config.ring emission.edge emission.record replies).length ≤
      emission.writes config := by
  have length := wellFormed.length
  have whole : (splitWrites config.rcvData config.ring emission.edge emission.record).length =
      emission.writes config := by
    rw [splitWrites, Emission.writes, writesOf, length]
    split <;> rfl
  rw [acceptedWrites, ← whole]
  split
  · exact le_rfl
  · rw [List.length_dropLast]
    omega

/-- The history with one more frame at the writing edge. -/
theorem boundary_concat (bounded : WritesBounded config link) {emission : Emission}
    (edge : emission.edge = link.written) :
    ∃ gone rest, link.emissions ++ [emission] = gone ++ rest ∧
      Chained Emission.edge Emission.size 0 gone link.published ∧
      Chained Emission.edge Emission.size link.published rest (link.written + emission.size) := by
  rcases bounded.boundary with ⟨gone, rest, split, goneChain, restChain⟩
  refine ⟨gone, rest ++ [emission], ?_, goneChain, restChain.concat edge⟩
  rw [split, List.append_assoc]

/-- One more frame in the history, with the writes posted for it. -/
theorem WritesBounded.concat (bounded : WritesBounded config link) {emission : Emission}
    {new : List ℕ} (emissions : link'.emissions = link.emissions ++ [emission])
    (published : link'.published = link.published)
    (outWrites : link'.outWrites = link.outWrites ++ new)
    (own : new.Sublist (if emission.posted = true ∧ link.published < emission.last then
      List.replicate (emission.writes config) emission.last else [])) :
    link'.outWrites.Sublist (link'.unpublishedWrites config) := by
  have counted : link'.unpublishedWrites config = link.unpublishedWrites config ++
      if emission.posted = true ∧ link.published < emission.last then
        List.replicate (emission.writes config) emission.last
      else [] := by
    rw [Link.unpublishedWrites, published, emissions, List.filter_append, List.flatMap_append]
    congr 1
    by_cases counts : emission.posted = true ∧ link.published < emission.last
    · simp [counts]
    · rw [if_neg counts, List.filter_cons_of_neg (by simpa using counts)]
      rfl
  rw [counted, outWrites]
  exact bounded.outWrites.append own

/-- Only a closing connection puts down a frame it does not post. -/
theorem WritesBounded.postedFirst_dropped (bounded : WritesBounded config link)
    {emission : Emission} (emissions : link'.emissions = link.emissions ++ [emission])
    (unposted : emission.posted = false) (closed : link'.term.rmtMemToken = 0) :
    ∃ posted dropped, link'.emissions = posted ++ dropped ∧
      (∀ emission ∈ posted, emission.posted = true) ∧
      (∀ emission ∈ dropped, emission.posted = false) ∧
      (link'.term.rmtMemToken ≠ 0 → dropped = []) := by
  rcases bounded.postedFirst with ⟨posted, dropped, split, isPosted, isDropped, _⟩
  refine ⟨posted, dropped ++ [emission], ?_, isPosted, ?_, fun opened => absurd closed opened⟩
  · rw [emissions, split, List.append_assoc]
  · intro other present
    rcases List.mem_append.mp present with before | new
    · exact isDropped other before
    · rw [List.mem_singleton.mp new]
      exact unposted

theorem WritesBounded.postedFirst_posted (bounded : WritesBounded config link)
    {emission : Emission} (emissions : link'.emissions = link.emissions ++ [emission])
    (isNew : emission.posted = true) (opened : link.term.rmtMemToken ≠ 0) :
    ∃ posted dropped, link'.emissions = posted ++ dropped ∧
      (∀ emission ∈ posted, emission.posted = true) ∧
      (∀ emission ∈ dropped, emission.posted = false) ∧
      (link'.term.rmtMemToken ≠ 0 → dropped = []) := by
  rcases bounded.postedFirst with ⟨posted, dropped, split, isPosted, _, whole⟩
  rw [whole opened, List.append_nil] at split
  refine ⟨posted ++ [emission], [], ?_, ?_, by simp, fun _ => rfl⟩
  · rw [emissions, split, List.append_nil]
  · intro other present
    rcases List.mem_append.mp present with before | new
    · exact isPosted other before
    · rw [List.mem_singleton.mp new]
      exact isNew

/-- A thread's step keeps the bound on the writes. -/
theorem WritesBounded.run (bounded : WritesBounded config link) (discipline : Discipline link)
    (flow : Flow config link) {thread : ℕ} {replies : SendReplies}
    (ran : RunStep config link thread replies link') : WritesBounded config link' := by
  have publishedLe := flow.published_le
  have consumedLe := flow.consumed_le
  cases ran with
  | dropped stackEq emitted =>
      rcases discipline.emitReady stackEq with ⟨message, index, ready⟩
      have emits := ready.emits flow emitted false
      have term := emits.term
      subst term
      refine ⟨bounded.landed, ?_, ?_, ?_⟩
      · exact bounded.concat rfl rfl (List.append_nil _).symm (List.nil_sublist _)
      · have boundary := boundary_concat bounded emits.edge
        rw [emits.size] at boundary
        exact boundary
      · rcases emits.outcome with ⟨closed, _⟩ | ⟨_, _, impossible⟩
        · exact bounded.postedFirst_dropped rfl rfl closed
        · cases impossible
  | posted stackEq emitted =>
      rename_i rest next mem writes hr term
      rcases discipline.emitReady stackEq with ⟨message, index, ready⟩
      have emits := ready.emits flow emitted true
      have term := emits.term
      subst term
      have low := emits.wellFormed.low
      rcases emits.outcome with ⟨_, impossible⟩ | ⟨opened, _, posting⟩
      · cases impossible
      rcases Posting.posted.inj posting with ⟨writesEq, _⟩
      refine ⟨bounded.landed, ?_, ?_, ?_⟩
      · have few := length_acceptedWrites_le emits.wellFormed replies
        rw [emits.edge] at few
        have size := emits.size
        refine bounded.concat rfl rfl rfl ?_
        rw [if_pos, List.map_const', writesEq, writeRequests, List.length_map]
        · exact (List.replicate_sublist_replicate _).mpr few
        · refine ⟨rfl, ?_⟩
          simp only [msgEndSize] at low
          have last : link.published < link.written + next.pktSize := by omega
          exact last
      · have boundary := boundary_concat bounded emits.edge
        rw [emits.size] at boundary
        exact boundary
      · exact bounded.postedFirst_posted rfl rfl opened
  | _ => exact bounded.frame rfl rfl rfl rfl rfl rfl

/-- The writes beyond a later edge are those that completing the others leaves. -/
theorem filter_replicate (emissions : List Emission) {low high : ℕ} (ordered : low ≤ high) :
    ((emissions.filter fun emission => emission.posted ∧ low < emission.last).flatMap
      fun emission => List.replicate (emission.writes config) emission.last).filter
        (fun last => high < last) =
    (emissions.filter fun emission => emission.posted ∧ high < emission.last).flatMap
      fun emission => List.replicate (emission.writes config) emission.last := by
  induction emissions with
  | nil => rfl
  | cons emission emissions ih =>
      by_cases counts : emission.posted = true ∧ low < emission.last
      · by_cases later : high < emission.last
        · rw [List.filter_cons_of_pos (by simpa using counts),
            List.filter_cons_of_pos (by simpa using ⟨counts.1, later⟩), List.flatMap_cons,
            List.flatMap_cons, List.filter_append, ih]
          congr 1
          exact List.filter_eq_self.mpr fun last present => by
            rw [List.eq_of_mem_replicate present]
            simpa using later
        · have dropped : (List.replicate (emission.writes config) emission.last).filter
              (fun last => high < last) = [] := by
            rw [List.filter_eq_nil_iff]
            intro last present
            rw [List.eq_of_mem_replicate present]
            simpa using later
          rw [List.filter_cons_of_pos (by simpa using counts),
            List.filter_cons_of_neg (by simpa using fun _ => Nat.le_of_not_lt later),
            List.flatMap_cons, List.filter_append, ih, dropped, List.nil_append]
      · have notLater : ¬(emission.posted = true ∧ high < emission.last) := fun later =>
          counts ⟨later.1, by omega⟩
        rw [List.filter_cons_of_neg (by simpa using counts),
          List.filter_cons_of_neg (by simpa using notLater), ih]

/-- Every step keeps the bound on the writes. -/
theorem WritesBounded.step (bounded : WritesBounded config link) (discipline : Discipline link)
    (flow : Flow config link) {action : LinkAction} (promised : Promised config racers link action)
    (stepped : LinkStep config link action link') : WritesBounded config link' := by
  have publishedLe := flow.published_le
  cases stepped with
  | run ran => exact bounded.run discipline flow ran
  | published =>
      rcases flow.history with ⟨old, resident, fresh, history⟩
      refine ⟨?_, ?_, ?_, bounded.postedFirst⟩
      · exact bounded.landed.trans (Nat.add_le_add_left publishedLe _)
      · have filtered := bounded.outWrites.filter fun last => link.consumed < last
        rw [Link.unpublishedWrites, filter_replicate link.emissions publishedLe] at filtered
        exact filtered
      · refine ⟨old, resident ++ fresh, ?_, history.oldChain, ?_⟩
        · rw [← List.append_assoc]
          exact history.emissions
        · exact history.residentChain.append history.freshChain
  | landed forward bound =>
      exact ⟨promised, bounded.outWrites, bounded.boundary, bounded.postedFirst⟩
  | completedWrite =>
      refine ⟨bounded.landed, ?_, bounded.boundary, bounded.postedFirst⟩
      exact (List.eraseIdx_sublist _ _).trans bounded.outWrites
  | closed =>
      refine ⟨bounded.landed, bounded.outWrites, bounded.boundary, ?_⟩
      rcases bounded.postedFirst with ⟨posted, dropped, split, isPosted, isDropped, _⟩
      exact ⟨posted, dropped, split, isPosted, isDropped, fun opened => absurd rfl opened⟩
  | _ => exact bounded.frame rfl rfl rfl rfl rfl rfl

end Writes

section Outstanding

variable {config : LinkConfig} {link : Link} {racers limit : ℕ}

/-- Consecutive frames take the writes their sizes tell. -/
theorem writesFor_eq {frames : List Emission} {low high : ℕ}
    (chain : Chained Emission.edge Emission.size low frames high) :
    writesFor config.ring low (frames.map Emission.size) =
      (frames.map (Emission.writes config)).sum := by
  induction frames generalizing low with
  | nil => rfl
  | cons emission frames ih =>
      have first : emission.edge = low := chain.1
      rw [List.map_cons, writesFor, ih chain.2, List.map_cons, List.sum_cons, Emission.writes,
        first]

theorem sum_sizes {frames : List Emission} {low high : ℕ}
    (chain : Chained Emission.edge Emission.size low frames high) :
    low + (frames.map Emission.size).sum = high := by
  induction frames generalizing low with
  | nil => exact chain
  | cons emission frames ih =>
      have rest := ih chain.2
      rw [List.map_cons, List.sum_cons]
      omega

/-- What bounds the requests holds of every reachable state. -/
theorem bounded_invariant
    (reachable : (linkMachine config).Reachable (Promised config racers) link) :
    ReadsBounded racers link ∧ WritesBounded config link := by
  have both : (Flow config link ∧ Discipline link) ∧ ReadsBounded racers link ∧
      WritesBounded config link := by
    refine reachable.invariant (fun link => (Flow config link ∧ Discipline link) ∧
      ReadsBounded racers link ∧ WritesBounded config link) ?_ ?_
    · intro link started
      have reached : (linkMachine config).Reachable AnyAction link := .of_start started
      refine ⟨link_invariant reached, ?_⟩
      rcases started with ⟨terminal, mem, rmt, prepared, rfl⟩
      have noReaders : Link.readers
          { term := terminal, mem := mem, rmt := rmt, landed := config.ring } = ∅ := by
        ext thread
        simp [Link.readers, readsEdge]
      constructor
      · refine ⟨?_, ?_, ?_⟩
        · rw [noReaders]
          exact Set.finite_empty
        · rw [noReaders, Set.ncard_empty]
          simp only [prepared.pendingRead]
          omega
        · exact Nat.zero_le _
      · exact ⟨le_rfl, List.Sublist.refl _, ⟨[], [], rfl, rfl, rfl⟩, [], [], rfl, by simp, by simp,
          fun _ => rfl⟩
    · rintro link action link' ⟨⟨flow, discipline⟩, reads, writes⟩ promised stepped
      have cases := step_cases stepped
      exact ⟨⟨flow.step discipline.emitReady cases, discipline.step flow cases⟩,
        reads.step discipline flow promised cases, writes.step discipline flow promised cases⟩
  exact both.2

/-- A frame the peer has consumed has been posted. -/
theorem Flow.consumed_posted (flow : Flow config link) {emission : Emission}
    (present : emission ∈ link.emissions) (gone : emission.last ≤ link.consumed) :
    emission.posted = true := by
  rcases flow.history with ⟨old, resident, fresh, history⟩
  have low := (history.wellFormed emission present).low
  have further := flow.consumed_le
  simp only [msgEndSize] at low
  simp only [Emission.last] at gone
  rw [history.emissions] at present
  rcases List.mem_append.mp present with before | inFresh
  · exact history.posted emission before
  · have := (history.freshChain.mem_bounds inFresh).1
    omega

/-- The unpublished writes are those of the posted frames beyond the published edge. -/
theorem length_unpublishedWrites {gone window dropped : List Emission}
    (split : link.emissions = gone ++ (window ++ dropped))
    (goneLast : ∀ emission ∈ gone, emission.last ≤ link.published)
    (isPosted : ∀ emission ∈ window, emission.posted = true)
    (windowLast : ∀ emission ∈ window, link.published < emission.last)
    (isDropped : ∀ emission ∈ dropped, emission.posted = false) :
    (link.unpublishedWrites config).length = (window.map (Emission.writes config)).sum := by
  have before : gone.filter (fun emission =>
      emission.posted ∧ link.published < emission.last) = [] := by
    rw [List.filter_eq_nil_iff]
    intro emission present
    have := goneLast emission present
    simpa using fun _ => this
  have inside : window.filter (fun emission =>
      emission.posted ∧ link.published < emission.last) = window := by
    rw [List.filter_eq_self]
    intro emission present
    simpa using ⟨isPosted emission present, windowLast emission present⟩
  have after : dropped.filter (fun emission =>
      emission.posted ∧ link.published < emission.last) = [] := by
    rw [List.filter_eq_nil_iff]
    intro emission present
    simp [isDropped emission present]
  rw [Link.unpublishedWrites, split, List.filter_append, List.filter_append, before, inside, after,
    List.nil_append, List.append_nil, List.length_flatMap]
  simp

/-- The frames of the unpublished writes are consecutive and fit the ring together. -/
theorem WritesBounded.window (bounded : WritesBounded config link) (flow : Flow config link) :
    ∃ gone window high, gone ++ window = link.emissions.filter (·.posted) ∧
      Chained Emission.edge Emission.size 0 gone link.published ∧
      Chained Emission.edge Emission.size link.published window high ∧
      high ≤ config.ring + link.published ∧
      (link.unpublishedWrites config).length = (window.map (Emission.writes config)).sum := by
  rcases bounded.boundary with ⟨gone, rest, split, goneChain, restChain⟩
  rcases bounded.postedFirst with ⟨posted, dropped, cut, isPosted, isDropped, _⟩
  have writtenLe := flow.written_le
  have landedLe := bounded.landed
  have publishedLe := flow.published_le
  have goneLast : ∀ emission ∈ gone, emission.last ≤ link.published :=
    fun emission present => (goneChain.mem_bounds present).2
  have gonePosted : ∀ emission ∈ gone, emission.posted = true := by
    intro emission present
    apply flow.consumed_posted
    · rw [split]
      exact List.mem_append_left rest present
    · exact (goneLast emission present).trans publishedLe
  -- the posted frames reach at least as far as the consumed ones
  have further : ∃ window, posted = gone ++ window ∧ rest = window ++ dropped := by
    rcases List.append_eq_append_iff.mp (split.symm.trans cut) with
      ⟨window, postedEq, restEq⟩ | ⟨extra, goneEq, droppedEq⟩
    · exact ⟨window, postedEq, restEq⟩
    · have nothing : extra = [] := by
        apply List.eq_nil_iff_forall_not_mem.mpr
        intro emission present
        have inGone := gonePosted emission (by rw [goneEq]; exact List.mem_append_right _ present)
        have inDropped := isDropped emission
          (by rw [droppedEq]; exact List.mem_append_left _ present)
        rw [inGone] at inDropped
        cases inDropped
      subst nothing
      exact ⟨[], by rw [goneEq, List.append_nil, List.append_nil], droppedEq.symm⟩
  rcases further with ⟨window, rfl, rfl⟩
  rcases restChain.split with ⟨high, chain, droppedChain⟩
  have highLe := droppedChain.le
  refine ⟨gone, window, high, ?_, goneChain, chain, by omega, ?_⟩
  · rw [cut, List.filter_append, List.filter_eq_self.mpr isPosted,
      List.filter_eq_nil_iff.mpr (fun emission present => by simp [isDropped emission present]),
      List.append_nil]
  · apply length_unpublishedWrites split goneLast
    · exact fun emission present => isPosted emission (List.mem_append_right _ present)
    · intro emission present
      rcases flow.history with ⟨old, resident, fresh, history⟩
      have inside : emission ∈ link.emissions := by
        rw [split]
        exact List.mem_append_right _ (List.mem_append_left _ present)
      have positive := history.positive emission inside
      have beyond := (chain.mem_bounds present).1
      rw [Emission.last]
      omega
    · exact isDropped

/-- The size of a frame is that of its packet. -/
theorem Emission.WellFormed.size_packet {emission : Emission}
    (wellFormed : emission.WellFormed config) :
    emission.packet.body.length + 2 * msgEndSize = emission.size := by
  rcases wellFormed.framed with ⟨header, body, record, length, size⟩
  rw [emission.packet_eq record size, size]
  rfl

/-- The frames posted have the sizes the messages tell. -/
theorem frameSizes_eq (flow : Flow config link) (discipline : Discipline link)
    {posted : List Emission} (isPosted : posted = link.emissions.filter (·.posted)) :
    ∃ later, frameSizes link.messages = posted.map Emission.size ++ later := by
  have sent := discipline.inOrder.processed
  have messages : link.inserted.flatMap SndReq.packets = canonical link.messages := by
    rw [canonical, Link.messages, List.flatMap_map]
    rfl
  rw [Link.postedPackets, ← isPosted, messages] at sent
  rcases sent with ⟨later, sent⟩
  refine ⟨later.map fun packet => packet.body.length + 2 * msgEndSize, ?_⟩
  rw [frameSizes, ← sent, List.map_append, List.map_map]
  congr 1
  apply List.map_congr_left
  intro emission present
  rcases flow.history with ⟨old, resident, fresh, history⟩
  have inside : emission ∈ link.emissions := by
    rw [isPosted] at present
    exact List.mem_of_mem_filter present
  exact (history.wellFormed emission inside).size_packet

/-- As long as no run of frames that fits the ring takes too many writes, the requests
outstanding stay within the initiator depth. -/
theorem outstanding_bounded
    (reachable : (linkMachine config).Reachable (Promised config racers) link)
    (fit : BurstsFit config.ring limit link.messages)
    (depth : limit + racers + 1 ≤ maxOverlappedEntries) :
    link.outWrites.length + link.outReads ≤ maxOverlappedEntries := by
  rcases bounded_invariant reachable with ⟨reads, writes⟩
  rcases link_invariant reachable with ⟨flow, discipline⟩
  rcases writes.window flow with ⟨gone, window, high, posted, goneChain, chain, fits, counted⟩
  rcases frameSizes_eq flow discipline posted with ⟨later, sizes⟩
  have before := sum_sizes goneChain
  have inside := sum_sizes chain
  rw [List.map_append] at sizes
  have few := fit _ _ _ sizes (by omega)
  rw [Nat.zero_add] at before
  rw [before, writesFor_eq chain, ← counted] at few
  have outWrites := writes.outWrites.length_le
  have outReads := reads.outReads
  have pending := reads.pendingRead
  omega

/-- Frames take one write each, and one more for each time they pass the end of the ring. -/
theorem writesFor_le {ring : ℕ} (positive : 0 < ring) (edge : ℕ) (sizes : List ℕ) :
    writesFor ring edge sizes + edge / ring ≤ sizes.length + (edge + sizes.sum) / ring := by
  induction sizes generalizing edge with
  | nil => simp [writesFor]
  | cons size sizes ih =>
      have rest := ih (edge + size)
      rw [List.sum_cons, ← Nat.add_assoc, writesFor, List.length_cons, writesOf]
      split
      case isTrue wraps =>
        have passed : edge / ring + 1 ≤ (edge + size) / ring := by
          rw [Nat.le_div_iff_mul_le positive, Nat.succ_mul]
          have parts := Nat.div_add_mod' edge ring
          omega
        omega
      case isFalse =>
        have kept : edge / ring ≤ (edge + size) / ring := Nat.div_le_div_right (by omega)
        omega

/-- Every frame takes at least the two headers, so a ring bounds the frames it shows. -/
theorem burstsFit {ring : ℕ} (positive : 0 < ring) (messages : List (List UInt8)) :
    BurstsFit ring (ring / emptyFrame + 1) messages := by
  intro before window after split short
  have low : ∀ size ∈ window, emptyFrame ≤ size := by
    intro size present
    have inside : size ∈ frameSizes messages := by
      rw [split]
      exact List.mem_append_left _ (List.mem_append_right _ present)
    rcases List.mem_map.mp inside with ⟨packet, _, rfl⟩
    exact Nat.le_add_left _ _
  have count : window.length * emptyFrame ≤ window.sum := by
    have sum := List.card_nsmul_le_sum window emptyFrame low
    simpa using sum
  have writes := writesFor_le positive before.sum window
  have passed : (before.sum + window.sum) / ring ≤ before.sum / ring + 1 := by
    rw [← Nat.add_div_right _ positive]
    exact Nat.div_le_div_right (by omega)
  have frames : window.length ≤ ring / emptyFrame := by
    rw [Nat.le_div_iff_mul_le (by decide)]
    omega
  omega

/-- With a ring of the smallest size the requests stay within the depth for all messages. -/
theorem outstanding_bounded_of_ring (smallest : config.ring ≤ 4096)
    (reachable : (linkMachine config).Reachable (Promised config 1) link) :
    link.outWrites.length + link.outReads ≤ maxOverlappedEntries := by
  apply outstanding_bounded reachable (burstsFit config.ring_pos link.messages)
  have frames : config.ring / emptyFrame ≤ 4096 / emptyFrame := Nat.div_le_div_right smallest
  simp only [emptyFrame, msgEndSize, maxOverlappedEntries] at *
  omega

/-- Along runs that send empty messages no two threads race for the read counter. -/
theorem SendsEmpty.promised {action : LinkAction} (sends : SendsEmpty link action) :
    Promised config 1 link action := by
  cases action with
  | run thread replies =>
      rcases sends with ⟨rfl, others, _⟩
      intro packet rest stackEq
      have noReaders : link.readers = ∅ := by
        ext other
        by_cases same : other = 0
        · simp [Link.readers, same, stackEq, readsEdge]
        · simp [Link.readers, others other same, readsEdge]
      rw [noReaders, Set.ncard_empty]
      exact Nat.one_pos
  | land edge => exact sends.elim
  | _ => trivial

/-- Three empty messages on the smallest ring. -/
theorem outstanding_bounded_three_frames :
    ∃ link : Link, link.written = 96 ∧
      link.outWrites.length + link.outReads ≤ maxOverlappedEntries := by
  rcases bursts smallRing 3 (by decide) with ⟨link, reachable, burst⟩
  have promised : (linkMachine smallRing).Reachable (Promised smallRing 1) link :=
    reachable.mono SendsEmpty.promised
  exact ⟨link, burst.written,
    outstanding_bounded promised (burstsFit smallRing.ring_pos link.messages) (by decide)⟩

/-- A ring of twice the smallest size the factory admits. -/
def doubleRing : LinkConfig where
  sendBuf := ⟨0x10000, 8192⟩
  rcvData := 0x20000
  exponent := 13
  small := by decide
  power := rfl
  aligned := by decide

/-- 255 empty messages fit a ring of 8 KiB, and their writes and the edge reads are more than the
initiator queue takes. -/
theorem outstanding_unbounded_empty_messages :
    ∃ link, (linkMachine doubleRing).Reachable (Promised doubleRing 1) link ∧
      (∀ req ∈ link.inserted, req = emptyReq) ∧
      maxOverlappedEntries < link.outWrites.length + link.outReads := by
  rcases bursts doubleRing 255 (by decide) with ⟨link, reachable, burst⟩
  have writes := burst.outWrites
  have reads := burst.outReads
  refine ⟨link, reachable.mono SendsEmpty.promised, burst.inserted, ?_⟩
  simp only [maxOverlappedEntries, maxPendingRead] at *
  omega

end Outstanding

end Hermes
