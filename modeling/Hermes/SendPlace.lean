import Hermes.SendLoop

/-!
# Where a frame falls

Two calls of `ProcessSendQ` that differ only in the edges, with the same space, plan the
same packets: `plan` reads the place of a frame only through `split`.  When the provider
takes all writes, the outcome is the same.  When it answers every write with
`ND_CANCELED`, a frame the end of the ring splits aborts the process and another one does
not: the code checks the answer to the second half without the exception the first half
has.  `outcome_same_iff` says when this makes a difference.
-/

namespace Hermes

open Memory Packets

/-- How a provider treats the writes of a connection. -/
inductive Treatment where
  | accepting
  | canceling
  deriving DecidableEq, Repr

/-- Every write gets the same kind of answer. -/
def Treatment.Treats : Treatment → (ℕ → SendReplies) → Prop
  | accepting, replies => ∀ turn,
      accepted (replies turn).firstHalf = true ∧ accepted (replies turn).secondHalf = true
  | canceling, replies => ∀ turn,
      (replies turn).firstHalf = ndCanceled ∧ (replies turn).secondHalf = ndCanceled

/-- Packet and type of a frame in the local ring. -/
def frameSeen (config : LinkConfig) (memory : Memory UInt8) (frame : UInt64 × ℕ) :
    Packet UInt8 × MsgType :=
  let record := memory.ringRead config.sendBuf.data config.ring frame.1.toNat frame.2
  let header := MsgEnd.ofList (record.take msgEndSize)
  (packetOf header ((record.drop msgEndSize).take (frame.2 - 2 * msgEndSize)), header.type)

/-- Edges of the frames, counted from the first one. -/
def Sending.places (state : Sending) (start : UInt64) : List (UInt64 × ℕ) :=
  state.frames.map fun frame => (frame.1 - start, frame.2)

/-- Two calls end in the same way, but for the place of their frames. -/
def SameOutcome (config : LinkConfig) (left right : Terminal) :
    Except Abort (Sending × Bool) → Except Abort (Sending × Bool) → Prop
  | .error _, .error _ => True
  | .ok (left', leftReturned), .ok (right', rightReturned) =>
      leftReturned = rightReturned ∧
        left'.places left.sndEnd.writeEdge = right'.places right.sndEnd.writeEdge ∧
        left'.frames.map (frameSeen config left'.mem) =
          right'.frames.map (frameSeen config right'.mem) ∧
        left'.called = right'.called ∧
        left'.term.sndEnd.writeEdge - left.sndEnd.writeEdge =
          right'.term.sndEnd.writeEdge - right.sndEnd.writeEdge ∧
        { left'.term with sndEnd := ⟨0, 0⟩ } = { right'.term with sndEnd := ⟨0, 0⟩ }
  | _, _ => False

/-- Some packet that has space is split by the end of the ring. -/
def wraps (split : ℕ → ℕ → Bool) : List Parcel → (offset space : ℕ) → Bool
  | [], _, _ => false
  | parcel :: rest, offset, space =>
      if space < parcel.size then false
      else split offset parcel.size ||
        wraps split rest (offset + parcel.size) (space - parcel.size)

/-- A call aborts wherever its frames fall: a buffer that is reached is not aligned, or an edge
read is refused. -/
def doomed (tagToken : UInt32) (replies : ℕ → SendReplies) :
    List Parcel → (number reads space : ℕ) → Bool
  | [], _, _, _ => false
  | parcel :: rest, number, reads, space =>
      match planRead tagToken reads (replies number).read with
      | none => true
      | some reads' =>
          if space < parcel.size then false
          else !parcel.aligned ||
            doomed tagToken replies rest (number + 1) reads' (space - parcel.size)

section Plan

variable {treatment : Treatment} {tokens : Tokens} {replies other : ℕ → SendReplies}
  {split : ℕ → ℕ → Bool}

theorem Treatment.Treats.writeStatus_eq (treats : treatment.Treats replies)
    (alike : treatment.Treats other) (turn : ℕ) :
    writeStatus (replies turn) = writeStatus (other turn) := by
  have accepting : ∀ {reply : SendReplies}, accepted reply.firstHalf = true →
      writeStatus reply = ndSuccess := by
    intro reply taken
    rcases (accepted_iff _).mp taken with success | pending
    · simp [writeStatus, success, ndSuccess, ndPending]
    · simp [writeStatus, pending]
  cases treatment with
  | accepting => rw [accepting (treats turn).1, accepting (alike turn).1]
  | canceling => simp only [writeStatus, (treats turn).1, (alike turn).1]

theorem Treatment.Treats.writesRefused_eq (treats : treatment.Treats replies) (turn : ℕ)
    (wrapped : Bool) :
    writesRefused wrapped (replies turn) = (decide (treatment = .canceling) && wrapped) := by
  cases treatment with
  | accepting => simp [writesRefused, (treats turn).1, (treats turn).2]
  | canceling =>
      have canceled : accepted ndCanceled = false := by decide
      simp [writesRefused, (treats turn).1, (treats turn).2, canceled]

/-- On an open connection, a plan is that of a ring without an end, unless a frame is split and the
writes are canceled. -/
theorem plan_eq (treats : treatment.Treats replies) (alike : treatment.Treats other)
    (reads : ∀ turn, (replies turn).read = (other turn).read) (opened : tokens.mem ≠ 0) :
    ∀ {parcels : List Parcel} {number pending offset space : ℕ},
      plan tokens replies split parcels number pending offset space =
        if treatment = .canceling ∧ wraps split parcels offset space = true then none
        else plan tokens other (fun _ _ => false) parcels number pending offset space := by
  intro parcels
  induction parcels with
  | nil => simp [plan, wraps]
  | cons parcel rest ih =>
      intro number pending offset space
      by_cases noSpace : space < parcel.size
      · simp [plan, wraps, noSpace, reads]
      · have sameReads := reads number
        have refused := treats.writesRefused_eq number (split offset parcel.size)
        have taken := alike.writesRefused_eq number false
        simp only [plan, wraps, noSpace, if_false, opened, refused, taken, Bool.and_false,
          Bool.false_eq_true, treats.writeStatus_eq alike number, sameReads, ih]
        cases parcel.aligned with
        | false => simp
        | true =>
            by_cases canceled : treatment = .canceling
            · cases split offset parcel.size with
              | true => simp [canceled]
              | false =>
                  cases planRead tokens.tag pending (other number).read <;>
                    cases wraps split rest (offset + parcel.size) (space - parcel.size) <;>
                      simp [canceled]
            · simp [canceled]

/-- On an open connection without an end of the ring, a plan fails when the call is doomed. -/
theorem plan_none_iff (treats : treatment.Treats replies) (opened : tokens.mem ≠ 0) :
    ∀ {parcels : List Parcel} {number pending offset space : ℕ},
      plan tokens replies (fun _ _ => false) parcels number pending offset space = none ↔
        doomed tokens.tag replies parcels number pending space = true := by
  intro parcels
  induction parcels with
  | nil => simp [plan, doomed]
  | cons parcel rest ih =>
      intro number pending offset space
      have taken := treats.writesRefused_eq number false
      by_cases noSpace : space < parcel.size
      · cases read : planRead tokens.tag pending (replies number).read <;>
          simp [plan, doomed, noSpace, read]
      · cases aligned : parcel.aligned with
        | false =>
            cases read : planRead tokens.tag pending (replies number).read <;>
              simp [plan, doomed, noSpace, aligned, read]
        | true =>
            cases read : planRead tokens.tag pending (replies number).read with
            | none => simp [plan, doomed, noSpace, aligned, read, opened, taken]
            | some reads =>
                have later : plan tokens replies (fun _ _ => false) rest (number + 1) reads
                    (offset + parcel.size) (space - parcel.size) = none ↔ _ := ih
                cases planned : plan tokens replies (fun _ _ => false) rest (number + 1) reads
                    (offset + parcel.size) (space - parcel.size) with
                | none =>
                    have dooms := later.mp planned
                    simp [plan, doomed, noSpace, aligned, read, opened, taken, planned, dooms]
                | some report =>
                    have spared : doomed tokens.tag replies rest (number + 1) reads
                        (space - parcel.size) = false := by
                      simpa [planned] using later
                    simp [plan, doomed, noSpace, aligned, read, opened, taken, planned, spared]

/-- On a closing connection the place of the frames does not matter. -/
theorem plan_closing {other' : ℕ → ℕ → Bool} (closed : tokens.mem = 0)
    (reads : ∀ turn, (replies turn).read = (other turn).read) {parcels : List Parcel}
    {number pending offset space : ℕ} :
    plan tokens replies split parcels number pending offset space =
      plan tokens other other' parcels number pending offset space := by
  cases parcels with
  | nil => rfl
  | cons parcel rest => simp only [plan, closed, if_true, reads]

end Plan

section Outcome

variable {config : LinkConfig}

/-- A frame read back from the ring. -/
theorem ShowsParcel.frameSeen_eq {memory : Memory UInt8} {edge : UInt64} {parcel : Parcel}
    (shown : ShowsParcel config memory edge.toNat parcel) :
    frameSeen config memory (edge, parcel.size) =
      (parcel.packet, if parcel.packet.seq = 0 then .single else .multi) := by
  rcases shown with ⟨header, shows, isPacket, single⟩
  have length : (frameRecord header parcel.packet.body).length = parcel.size := by
    simp only [frameRecord, List.length_append, MsgEnd.length_bytes, Parcel.size]
    omega
  have body : parcel.packet.body.length = parcel.size - 2 * msgEndSize := by
    simp only [Parcel.size]
    omega
  have record := shows_iff_ringRead.mp shows
  rw [length] at record
  have front : (frameRecord header parcel.packet.body).take msgEndSize = header.bytes := by
    rw [frameRecord, List.append_assoc, ← header.length_bytes, List.take_left]
  have middle : ((frameRecord header parcel.packet.body).drop msgEndSize).take
      (parcel.size - 2 * msgEndSize) = parcel.packet.body := by
    rw [← body, frameRecord, List.append_assoc, ← header.length_bytes, List.drop_left,
      List.take_left]
  have type : header.type = if parcel.packet.seq = 0 then .single else .multi := by
    have seq : parcel.packet.seq = header.seq.toInt := by rw [← isPacket]; rfl
    have zero : header.seq = 0 ↔ parcel.packet.seq = 0 := by
      rw [seq, ← Int16.toInt_inj, Int16.toInt_zero]
    rw [zero] at single
    split
    case isTrue first => exact single.mpr first
    case isFalse later =>
      cases kind : header.type with
      | single => exact absurd (single.mp kind) later
      | multi => rfl
  simp only [frameSeen, record, front, middle, MsgEnd.ofList_bytes, isPacket, type]

/-- Edges counted from a start depend on the distance to it only. -/
theorem framesAt_places (parcels : List Parcel) :
    ∀ {start edge otherStart other : UInt64}, edge - start = other - otherStart →
      (framesAt edge parcels).map (fun frame => (frame.1 - start, frame.2)) =
        (framesAt other parcels).map fun frame => (frame.1 - otherStart, frame.2) := by
  induction parcels with
  | nil => simp [framesAt]
  | cons parcel rest ih =>
      intro start edge otherStart other same
      have next : edge + UInt64.ofNat parcel.size - start =
          other + UInt64.ofNat parcel.size - otherStart := by
        grind
      simp only [framesAt, List.map_cons, same, ih next]

theorem map_frameSeen {memory : Memory UInt8} {frames : List (UInt64 × ℕ)} {parcels : List Parcel}
    (edge : UInt64) (same : frames = framesAt edge parcels)
    (shown : List.Forall₂ (fun frame parcel => ShowsParcel config memory frame.1.toNat parcel)
      frames parcels) :
    frames.map (frameSeen config memory) = parcels.map fun parcel =>
      (parcel.packet, if parcel.packet.seq = 0 then .single else .multi) := by
  induction parcels generalizing edge frames with
  | nil =>
      rw [same]
      rfl
  | cons parcel rest ih =>
      subst same
      rcases List.forall₂_cons.mp shown with ⟨first, later⟩
      simp only [framesAt, List.map_cons, first.frameSeen_eq, ih _ rfl later]

/-- A terminal with other edges. -/
def Terminal.withEdges (terminal : Terminal) (sndEnd : CirTag) : Terminal :=
  { terminal with sndEnd }

/-- Two calls with the same report have the same outcome. -/
theorem Reports.sameOutcome {terminal : Terminal} {sndEnd : CirTag} {memory other : Memory UInt8}
    {report : Report} {left right : Sending}
    (reports : Reports config { term := terminal, mem := memory } report left)
    (reports' : Reports config { term := terminal.withEdges sndEnd, mem := other } report right) :
    SameOutcome config terminal (terminal.withEdges sndEnd) (.ok (left, true))
      (.ok (right, true)) := by
  have framesLeft : left.frames = framesAt terminal.sndEnd.writeEdge report.sent := reports.frames
  have framesRight : right.frames = framesAt sndEnd.writeEdge report.sent := reports'.frames
  have shownLeft := reports.shown
  have shownRight := reports'.shown
  refine ⟨rfl, ?_, ?_, ?_, ?_, ?_⟩
  · simp only [Sending.places, framesLeft, framesRight]
    apply framesAt_places
    simp only [Terminal.withEdges, UInt64.sub_self]
  · rw [map_frameSeen _ framesLeft (framesLeft ▸ shownLeft),
      map_frameSeen _ framesRight (framesRight ▸ shownRight)]
  · rw [reports.called, reports'.called]
  · rw [reports.term, reports'.term]
    simp only [Terminal.withEdges]
    grind
  · rw [reports.term, reports'.term]
    simp [Terminal.withEdges]

/-- When two calls that differ only in the edges plan the same, or one of them fails, their outcome
is the same exactly when both fail or none. -/
theorem sameOutcome_iff {terminal : Terminal} {sndEnd : CirTag} {memory other : Memory UInt8}
    {left right : Option Report} {leftEnd rightEnd : Except Abort (Sending × Bool)}
    (does : match left with
      | none => ∃ reason, leftEnd = .error reason
      | some report => ∃ state', leftEnd = .ok (state', true) ∧
          Reports config { term := terminal, mem := memory } report state')
    (does' : match right with
      | none => ∃ reason, rightEnd = .error reason
      | some report => ∃ state', rightEnd = .ok (state', true) ∧
          Reports config { term := terminal.withEdges sndEnd, mem := other } report state')
    (agree : left = none ∨ right = none ∨ left = right) :
    SameOutcome config terminal (terminal.withEdges sndEnd) leftEnd rightEnd ↔
      (left = none ↔ right = none) := by
  cases left with
  | none =>
      rcases does with ⟨reason, rfl⟩
      cases right with
      | none =>
          rcases does' with ⟨reason', rfl⟩
          simp [SameOutcome]
      | some report =>
          rcases does' with ⟨state', rfl, _⟩
          simp [SameOutcome]
  | some report =>
      rcases does with ⟨state', rfl, reports⟩
      cases right with
      | none =>
          rcases does' with ⟨reason, rfl⟩
          simp [SameOutcome]
      | some report' =>
          rcases does' with ⟨state'', rfl, reports'⟩
          have same : report = report' := by simpa using agree
          subst same
          simp only [reduceCtorEq]
          exact iff_of_true (reports.sameOutcome reports') trivial

/-- What decides whether two calls end in the same way that differ only in the edges. -/
def Alike (config : LinkConfig) (terminal : Terminal) (sndEnd : CirTag) (treatment : Treatment)
    (replies : ℕ → SendReplies) : Prop :=
  treatment = .accepting ∨ terminal.rmtMemToken = 0 ∨
    doomed terminal.rmtTagToken replies terminal.waiting 0 terminal.pendingRead
      terminal.available = true ∨
    wraps (splitAt config.ring terminal.sndEnd.writeEdge.toNat) terminal.waiting 0
        terminal.available =
      wraps (splitAt config.ring sndEnd.writeEdge.toNat) terminal.waiting 0 terminal.available

theorem Stands.sameOutcome_iff {terminal : Terminal} {sndEnd : CirTag} {treatment : Treatment}
    {replies other : ℕ → SendReplies} {index : ℕ} {memory memory' : Memory UInt8}
    (stands : Stands config terminal index) (queue : terminal.sndQue ≠ [])
    (running : terminal.sndRunning = true) (aligned : msgEndSize ∣ sndEnd.writeEdge.toNat)
    (space : sndEnd.trailingEdge - sndEnd.writeEdge =
      terminal.sndEnd.trailingEdge - terminal.sndEnd.writeEdge)
    (treats : treatment.Treats replies) (alike : treatment.Treats other)
    (reads : ∀ turn, (replies turn).read = (other turn).read) :
    SameOutcome config terminal (terminal.withEdges sndEnd)
        (Sending.processSendQ config.sendBuf replies { term := terminal, mem := memory })
        (Sending.processSendQ config.sendBuf other
          { term := terminal.withEdges sndEnd, mem := memory' }) ↔
      Alike config terminal sndEnd treatment replies := by
  have standsRight : Stands config (terminal.withEdges sndEnd) index :=
    { stands with
      edgeAligned := aligned
      space := by
        rw [Terminal.available, Terminal.withEdges, space]
        exact stands.space }
  have waiting := stands.waiting_eq
  have sameSpace : (terminal.withEdges sndEnd).available = terminal.available := by
    rw [Terminal.available, Terminal.withEdges, space]
    rfl
  have does := processSendQ_does { term := terminal, mem := memory } replies stands queue running
  have does' := processSendQ_does { term := terminal.withEdges sndEnd, mem := memory' } other
    standsRight queue running
  have plansLeft : terminal.plan config replies index = plan terminal.tokens replies
      (splitAt config.ring terminal.sndEnd.writeEdge.toNat) terminal.waiting 0
        terminal.pendingRead 0 terminal.available := by
    rw [waiting]
    rfl
  have plansRight : (terminal.withEdges sndEnd).plan config other index = plan terminal.tokens other
      (splitAt config.ring sndEnd.writeEdge.toNat) terminal.waiting 0 terminal.pendingRead 0
        terminal.available := by
    rw [waiting, ← sameSpace]
    rfl
  rw [plansLeft] at does
  rw [plansRight] at does'
  by_cases closed : terminal.rmtMemToken = 0
  · have same : plan terminal.tokens replies (splitAt config.ring terminal.sndEnd.writeEdge.toNat)
        terminal.waiting 0 terminal.pendingRead 0 terminal.available = plan terminal.tokens other
          (splitAt config.ring sndEnd.writeEdge.toNat) terminal.waiting 0 terminal.pendingRead 0
            terminal.available := plan_closing closed reads
    rw [Hermes.sameOutcome_iff does does' (Or.inr (Or.inr same)), same]
    simp [Alike, closed]
  · have opened : terminal.tokens.mem ≠ 0 := closed
    have leftPlan : plan terminal.tokens replies
        (splitAt config.ring terminal.sndEnd.writeEdge.toNat) terminal.waiting 0
          terminal.pendingRead 0 terminal.available = _ :=
      plan_eq treats treats (fun _ => rfl) opened
    have rightPlan : plan terminal.tokens other (splitAt config.ring sndEnd.writeEdge.toNat)
        terminal.waiting 0 terminal.pendingRead 0 terminal.available = _ :=
      plan_eq alike treats (fun turn => (reads turn).symm) opened
    rw [leftPlan] at does
    rw [rightPlan] at does'
    have dooms : plan terminal.tokens replies (fun _ _ => false) terminal.waiting 0
        terminal.pendingRead 0 terminal.available = none ↔
          doomed terminal.rmtTagToken replies terminal.waiting 0 terminal.pendingRead
            terminal.available = true := plan_none_iff treats opened
    rw [Hermes.sameOutcome_iff does does' ?_, Alike, ← dooms]
    · cases treatment with
      | accepting => simp
      | canceling =>
          cases wraps (splitAt config.ring terminal.sndEnd.writeEdge.toNat) terminal.waiting 0
              terminal.available <;>
            cases wraps (splitAt config.ring sndEnd.writeEdge.toNat) terminal.waiting 0
                terminal.available <;>
              simp [closed]
    · split
      case isTrue => exact Or.inl rfl
      case isFalse =>
        split
        case isTrue => exact Or.inr (Or.inl rfl)
        case isFalse => exact Or.inr (Or.inr rfl)

/-- Two calls that differ only in the edges, with the same space, have the same outcome if and only
if the provider takes the writes, or the connection is closing, or the calls abort in any case, or
a packet is split by the end of the ring in both or in none. -/
theorem outcome_same_iff {link : Link} {thread : ℕ} {rest : List Activation} {sndEnd : CirTag}
    {treatment : Treatment} {replies other : ℕ → SendReplies}
    (reachable : (linkMachine config).Reachable AnyAction link)
    (entering : link.threads thread = .entering :: rest)
    (aligned : msgEndSize ∣ sndEnd.writeEdge.toNat)
    (space : sndEnd.trailingEdge - sndEnd.writeEdge =
      link.term.sndEnd.trailingEdge - link.term.sndEnd.writeEdge)
    (treats : treatment.Treats replies) (alike : treatment.Treats other)
    (reads : ∀ turn, (replies turn).read = (other turn).read) (memory : Memory UInt8) :
    SameOutcome config link.term (link.term.withEdges sndEnd)
        (Sending.processSendQ config.sendBuf replies { term := link.term, mem := link.mem })
        (Sending.processSendQ config.sendBuf other
          { term := link.term.withEdges sndEnd, mem := memory }) ↔
      Alike config link.term sndEnd treatment replies := by
  rcases entering_stands reachable entering with ⟨⟨index, stands⟩, queue, running⟩
  exact stands.sameOutcome_iff queue running aligned space treats alike reads

/-- Answers to the calls of a connection that is torn down. -/
def canceledReplies (_ : ℕ) : SendReplies := ⟨ndCanceled, ndCanceled, ndCanceled⟩

/-- An empty message 16 bytes before the end of the ring, and one at its beginning. -/
theorem outcome_same_iff_last_block :
    SameOutcome smallRing (smallRing.queuedLink emptyMessage).term
        ((smallRing.queuedLink emptyMessage).term.withEdges ⟨8176, 4080⟩)
        (Sending.processSendQ smallRing.sendBuf canceledReplies
          ⟨(smallRing.queuedLink emptyMessage).term, fun _ => 0, [], [], []⟩)
        (Sending.processSendQ smallRing.sendBuf canceledReplies
          ⟨(smallRing.queuedLink emptyMessage).term.withEdges ⟨8176, 4080⟩, fun _ => 0, [], [],
            []⟩) ↔
      Alike smallRing (smallRing.queuedLink emptyMessage).term ⟨8176, 4080⟩ .canceling
        canceledReplies := by
  have entering : (smallRing.queuedLink emptyMessage).threads 0 = [.entering] := rfl
  have treats : Treatment.canceling.Treats canceledReplies := fun _ => ⟨rfl, rfl⟩
  exact outcome_same_iff (smallRing.reachable_queuedLink (by decide)) entering (by decide)
    (by decide) treats treats (fun _ => rfl) fun _ => 0

/-- On a connection that is torn down, the call with the frame at the end of the ring aborts and
the other one does not. -/
theorem wrapped_frame_aborts :
    ¬∀ (config : LinkConfig) (link : Link) (thread : ℕ) (rest : List Activation) (sndEnd : CirTag)
        (treatment : Treatment) (replies : ℕ → SendReplies) (memory : Memory UInt8),
      (linkMachine config).Reachable AnyAction link →
      link.threads thread = .entering :: rest → msgEndSize ∣ sndEnd.writeEdge.toNat →
      sndEnd.trailingEdge - sndEnd.writeEdge =
        link.term.sndEnd.trailingEdge - link.term.sndEnd.writeEdge →
      treatment.Treats replies →
      SameOutcome config link.term (link.term.withEdges sndEnd)
        (Sending.processSendQ config.sendBuf replies { term := link.term, mem := link.mem })
        (Sending.processSendQ config.sendBuf replies
          { term := link.term.withEdges sndEnd, mem := memory }) := by
  intro always
  have reachable :
      (linkMachine smallRing).Reachable AnyAction (smallRing.queuedLink emptyMessage) :=
    smallRing.reachable_queuedLink (by decide)
  have entering : (smallRing.queuedLink emptyMessage).threads 0 = [.entering] := rfl
  have aligned : msgEndSize ∣ (4080 : UInt64).toNat := by decide
  have space : (8176 : UInt64) - 4080 =
      (smallRing.queuedLink emptyMessage).term.sndEnd.trailingEdge -
        (smallRing.queuedLink emptyMessage).term.sndEnd.writeEdge := by decide
  have treats : Treatment.canceling.Treats canceledReplies := fun _ => ⟨rfl, rfl⟩
  have differs : ¬Alike smallRing (smallRing.queuedLink emptyMessage).term ⟨8176, 4080⟩ .canceling
      canceledReplies := by
    rintro (accepting | closing | doomed | wrapped)
    · cases accepting
    · revert closing
      decide
    · revert doomed
      decide +kernel
    · revert wrapped
      decide +kernel
  generalize smallRing.queuedLink emptyMessage = link at reachable entering space differs
  rcases entering_stands reachable entering with ⟨⟨index, stands⟩, queue, running⟩
  have same := always smallRing link 0 [] ⟨8176, 4080⟩ .canceling canceledReplies (fun _ => 0)
    reachable entering aligned space treats
  exact differs
    ((stands.sameOutcome_iff queue running aligned space treats treats fun _ => rfl).mp same)

end Outcome

end Hermes
