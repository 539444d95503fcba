import Hermes.SendLoop
import Hermes.Layout

/-!
# A drained ring and the packets that fit it

When the peer has consumed all that was written, the whole ring is free, and this is as
much space as there ever is.  A packet takes 32 bytes more than its payload, so a message
goes out exactly when its largest packet fits the ring.  The factory admits rings of 4096
bytes, and nothing compares them with `PACKET_SIZE`: `long_message_blocks` is a message
that `Send` queues and that never leaves.
-/

namespace Hermes

open Memory Packets

/-- The provider takes the writes and answers the edge read. -/
def Answers (replies : SendReplies) : Prop :=
  accepted replies.firstHalf = true ∧ accepted replies.secondHalf = true ∧
    (accepted replies.read = true ∨ replies.read = ndCanceled)

/-- The peer has consumed everything written. -/
def Drained (config : LinkConfig) (terminal : Terminal) : Prop :=
  terminal.sndEnd.trailingEdge = terminal.sndEnd.writeEdge + UInt64.ofNat config.ring

/-- On a drained ring a loop turn sends one more packet of the request at the back. -/
def SendsWhenDrained (config : LinkConfig) (req : SndReq) : Prop :=
  ∀ (link : Link) (thread : ℕ) (rest : List Activation) (replies : SendReplies),
    (linkMachine config).Reachable AnyAction link → link.threads thread = .looping :: rest →
    link.term.sndQue.getLast? = some req → Drained config link.term →
    link.term.rmtMemToken ≠ 0 → Answers replies →
      ∃ state' returned,
        Sending.turn config.sendBuf { term := link.term, mem := link.mem } replies =
          .ok (state', returned) ∧
        ∃ parcel : Parcel, parcel.req = req ∧
          state'.frames = [(link.term.sndEnd.writeEdge, parcel.size)] ∧
          ShowsParcel config state'.mem link.term.sndEnd.writeEdge.toNat parcel

/-- The largest packet of a request fits the ring, and its buffer is aligned. -/
def FitsRing (config : LinkConfig) (req : SndReq) : Prop :=
  min req.buf.size packetSize + 2 * msgEndSize ≤ config.ring ∧ msgAlign ∣ req.buf.data

/-- The peer has drained the ring, and another thread takes the flag. -/
def Sending.reenter (config : LinkConfig) (state : Sending) : Sending :=
  { state with term := { state.term with
      sndEnd := { state.term.sndEnd with
        trailingEdge := state.term.sndEnd.writeEdge + UInt64.ofNat config.ring }
      sndRunning := true } }

/-- `ProcessSendQ` is entered again and again, each time on a drained ring. -/
def Sending.entries (config : LinkConfig) (replies : ℕ → ℕ → SendReplies) :
    ℕ → Sending → Except Abort Sending
  | 0, state => .ok state
  | more + 1, state =>
      if state.term.sndQue = [] then .ok state
      else do
        let (state, _) ← Sending.processSendQ config.sendBuf (replies more) (state.reenter config)
        entries config replies more state

/-- The requests whose last packet is among the packets. -/
def finished (parcels : List Parcel) : List SndReq := (parcels.filter Parcel.last).map Parcel.req

section Plan

variable {tokens : Tokens} {replies : ℕ → SendReplies} {split : ℕ → ℕ → Bool}

theorem Answers.planRead {reply : SendReplies} (answers : Answers reply)
    (tag : UInt32) (reads : ℕ) :
    ∃ reads', planRead tag reads reply.read = some reads' := by
  simp only [Hermes.planRead]
  split
  · exact ⟨reads, rfl⟩
  · rw [if_pos answers.2.2]
    exact ⟨reads + 1, rfl⟩

theorem Answers.writesRefused {reply : SendReplies} (answers : Answers reply) (wrapped : Bool) :
    writesRefused wrapped reply = false := by
  simp [Hermes.writesRefused, answers.1, answers.2.1]

/-- What a plan sends and what it leaves, on an open connection. -/
theorem plan_sends (opened : tokens.mem ≠ 0) :
    ∀ {parcels : List Parcel} {number reads offset space : ℕ} {report : Report},
      plan tokens replies split parcels number reads offset space = some report →
        parcels = report.sent ++ report.left ∧
          ∀ parcel ∈ report.sent, parcel.aligned = true ∧ parcel.size ≤ space := by
  intro parcels
  induction parcels with
  | nil =>
      intro number reads offset space report planned
      cases planned
      simp
  | cons parcel rest ih =>
      intro number reads offset space report planned
      simp only [plan, opened, if_false] at planned
      split at planned
      case isTrue =>
        simp only [Option.bind_eq_bind, Option.bind_eq_some_iff, pure, Option.some.injEq] at planned
        rcases planned with ⟨_, _, rfl⟩
        simp
      case isFalse fits =>
        split at planned
        case isTrue => cases planned
        case isFalse aligned =>
          split at planned
          case isTrue => cases planned
          case isFalse =>
            simp only [Option.bind_eq_bind, Option.bind_eq_some_iff, pure, Option.some.injEq]
              at planned
            rcases planned with ⟨_, _, report, later, rfl⟩
            rcases ih later with ⟨whole, sent⟩
            refine ⟨by simp [whole], ?_⟩
            intro other present
            rcases List.mem_cons.mp present with rfl | present
            · exact ⟨by simpa using aligned, Nat.le_of_not_lt fits⟩
            · rcases sent other present with ⟨otherAligned, otherFits⟩
              exact ⟨otherAligned, by omega⟩

/-- On an open connection with an answering provider a plan succeeds, sends the first packet when
there is space for it, and notifies the messages whose last packet it sends. -/
theorem plan_succeeds (opened : tokens.mem ≠ 0) (answers : ∀ turn, Answers (replies turn)) :
    ∀ {parcels : List Parcel} {number reads offset space : ℕ},
      (∀ parcel ∈ parcels, parcel.aligned = true) →
        ∃ report, plan tokens replies split parcels number reads offset space = some report ∧
          (∀ parcel ∈ parcels.head?, parcel.size ≤ space → report.sent ≠ []) ∧
          report.called.map Prod.fst = finished report.sent := by
  intro parcels
  induction parcels with
  | nil =>
      intro number reads offset space aligned
      exact ⟨{ reads }, rfl, by simp, rfl⟩
  | cons parcel rest ih =>
      intro number reads offset space aligned
      have first : parcel.aligned = true := aligned parcel List.mem_cons_self
      rcases (answers number).planRead tokens.tag reads with ⟨reads', read⟩
      by_cases noSpace : space < parcel.size
      · refine ⟨{ reads := reads', left := parcel :: rest }, ?_, ?_, rfl⟩
        · simp [plan, noSpace, read]
        · intro other head fits
          cases head
          omega
      · have later : ∃ report, plan tokens replies split rest (number + 1) reads'
            (offset + parcel.size) (space - parcel.size) = some report ∧ _ :=
          ih fun other present => aligned other (List.mem_cons_of_mem _ present)
        rcases later with ⟨report, planned, _, called⟩
        let whole : Report := { report with
          sent := parcel :: report.sent
          called := (if parcel.last then [(parcel.req, writeStatus (replies number))] else []) ++
            report.called }
        refine ⟨whole, ?_, ?_, ?_⟩
        · simp only [plan, noSpace, if_false, first, opened, (answers number).writesRefused, read,
            planned, Bool.not_true, Bool.false_eq_true, Option.bind_eq_bind, Option.bind_some, pure]
          rfl
        · intro _ _ _
          exact List.cons_ne_nil _ _
        · cases last : parcel.last <;> simp [whole, finished, last, called]

end Plan

section Entries

variable {config : LinkConfig} {index : ℕ} {state : Sending}

theorem finished_append (left right : List Parcel) :
    finished (left ++ right) = finished left ++ finished right := by
  simp [finished]

/-- The rest of a request finishes it. -/
theorem SndReq.finished_drop {req : SndReq} (more : index < count packetSize req.buf.bytes) :
    finished (req.parcels.drop index) = [req] := by
  rcases Nat.exists_eq_succ_of_ne_zero (Nat.ne_zero_of_lt more) with ⟨before, total⟩
  have parcels : req.parcels = (List.range before).map (fun index => ⟨req, index⟩) ++
      [⟨req, before⟩] := by
    rw [SndReq.parcels, total, List.range_succ, List.map_append]
    rfl
  have inside : index ≤ ((List.range before).map fun index => (⟨req, index⟩ : Parcel)).length := by
    simp only [List.length_map, List.length_range]
    omega
  have early :
      finished (((List.range before).map fun index => (⟨req, index⟩ : Parcel)).drop index) =
      [] := by
    rw [finished, List.map_eq_nil_iff, List.filter_eq_nil_iff]
    intro parcel present
    rcases List.mem_map.mp (List.mem_of_mem_drop present) with ⟨position, range, rfl⟩
    have := List.mem_range.mp range
    simp only [Parcel.last, total, decide_eq_true_iff]
    omega
  have last : finished [(⟨req, before⟩ : Parcel)] = [req] := by
    simp [finished, Parcel.last, total]
  rw [parcels, List.drop_append_of_le_length inside, finished_append, early, last, List.nil_append]

/-- The packets that wait finish all requests of the queue. -/
theorem Stands.finished_parcels {terminal : Terminal} (stands : Stands config terminal index) :
    finished (terminal.parcels index) = terminal.sndQue.reverse := by
  have whole : ∀ queue : List SndReq, finished (queue.flatMap SndReq.parcels) = queue := by
    intro queue
    induction queue with
    | nil => rfl
    | cons req rest ih =>
        have first := req.finished_drop (count_pos packetSize req.buf.bytes)
        rw [List.drop_zero] at first
        rw [List.flatMap_cons, finished_append, first, ih]
        rfl
  cases back : terminal.sndQue.getLast? with
  | none =>
      have empty := List.getLast?_eq_none_iff.mp back
      rw [stands.idle empty, Terminal.parcels, List.drop_zero, whole]
  | some req =>
      have more := stands.more req back
      rw [Terminal.parcels_of_back back (Nat.le_of_lt more), finished_append,
        req.finished_drop more, whole]
      conv_rhs => rw [← List.dropLast_append_getLast? req back]
      simp

theorem LinkConfig.toNat_ring (config : LinkConfig) :
    (UInt64.ofNat config.ring).toNat = config.ring := by
  have small := config.small
  rw [UInt64.toNat_ofNat', LinkConfig.ring, config.power]
  exact Nat.mod_eq_of_lt (Nat.pow_lt_pow_right (by decide) (by omega))

theorem Drained.available {terminal : Terminal} (drained : Drained config terminal) :
    terminal.available = config.ring := by
  have cancel : terminal.sndEnd.trailingEdge - terminal.sndEnd.writeEdge =
      UInt64.ofNat config.ring := by
    rw [Drained] at drained
    grind
  rw [Terminal.available, cancel, config.toNat_ring]

theorem Stands.reenter (stands : Stands config state.term index) :
    Stands config (state.reenter config).term index := by
  have drained : Drained config (state.reenter config).term := rfl
  exact { stands with space := le_of_eq drained.available }

theorem Stands.queue_of_parcels {terminal : Terminal} (waiting : terminal.parcels index ≠ []) :
    terminal.sndQue ≠ [] := by
  intro empty
  apply waiting
  simp [Terminal.parcels, empty]

/-- One entry on a drained ring. -/
theorem Stands.entry (replies : ℕ → SendReplies) (stands : Stands config state.term index)
    (queue : state.term.sndQue ≠ []) :
    match (state.reenter config).term.plan config replies index with
    | none => ∃ reason,
        Sending.processSendQ config.sendBuf replies (state.reenter config) = .error reason
    | some report => ∃ state',
        Sending.processSendQ config.sendBuf replies (state.reenter config) = .ok (state', true) ∧
          Reports config (state.reenter config) report state' :=
  processSendQ_does (state.reenter config) replies stands.reenter queue rfl

/-- A packet that does not fit the ring, or whose buffer is not aligned, stays. -/
theorem Stands.stuck {replies : ℕ → ℕ → SendReplies} {parcel : Parcel}
    (bad : ¬(parcel.size ≤ config.ring ∧ parcel.aligned = true)) {entries : ℕ} :
    ∀ {state last : Sending} {index : ℕ}, Stands config state.term index →
      state.term.rmtMemToken ≠ 0 → parcel ∈ state.term.parcels index →
      Sending.entries config replies entries state = .ok last → last.term.sndQue ≠ [] := by
  induction entries with
  | zero =>
      intro state last index stands opened waits entered
      cases entered
      exact Stands.queue_of_parcels (List.ne_nil_of_mem waits)
  | succ entries ih =>
      intro state last index stands opened waits entered
      have queue := Stands.queue_of_parcels (List.ne_nil_of_mem waits)
      have does := stands.entry (replies entries) queue
      rw [Sending.entries, if_neg queue] at entered
      cases planned : (state.reenter config).term.plan config (replies entries) index with
      | none =>
          simp only [planned] at does
          rcases does with ⟨reason, aborts⟩
          simp only [aborts, bind, Except.bind] at entered
          cases entered
      | some report =>
          simp only [planned] at does
          rcases does with ⟨state', returns, reports⟩
          simp only [returns, bind, Except.bind] at entered
          rcases reports.left with ⟨next, standsNext, left⟩
          have open' : state'.term.rmtMemToken ≠ 0 := by
            rw [reports.term]
            exact opened
          rcases plan_sends opened planned with ⟨whole, sent⟩
          have space : (state.reenter config).term.available ≤ config.ring := stands.reenter.space
          have stays : parcel ∈ state'.term.parcels next := by
            have split : parcel ∈ report.sent ∨ parcel ∈ report.left := by
              rw [← List.mem_append, ← whole]
              exact waits
            rw [left]
            rcases split with isSent | isLeft
            · rcases sent parcel isSent with ⟨aligned, fits⟩
              exact absurd ⟨le_trans fits space, aligned⟩ bad
            · exact isLeft
          exact ih standsNext open' stays entered

/-- An entry on a drained ring that every packet fits. -/
theorem Stands.entry_succeeds {replies : ℕ → SendReplies} (stands : Stands config state.term index)
    (answers : ∀ turn, Answers (replies turn)) (opened : state.term.rmtMemToken ≠ 0)
    (queue : state.term.sndQue ≠ [])
    (fit : ∀ parcel ∈ state.term.parcels index, parcel.size ≤ config.ring ∧
      parcel.aligned = true) :
    ∃ report state',
      Sending.processSendQ config.sendBuf replies (state.reenter config) = .ok (state', true) ∧
        Reports config (state.reenter config) report state' ∧ report.sent ≠ [] ∧
        report.called.map Prod.fst = finished report.sent ∧
        state.term.parcels index = report.sent ++ report.left := by
  have drained : Drained config (state.reenter config).term := rfl
  have aligned : ∀ parcel ∈ state.term.parcels index, parcel.aligned = true :=
    fun parcel waits => (fit parcel waits).2
  have plans : ∃ report, (state.reenter config).term.plan config replies index = some report ∧
      (∀ parcel ∈ (state.term.parcels index).head?,
        parcel.size ≤ (state.reenter config).term.available → report.sent ≠ []) ∧
      report.called.map Prod.fst = finished report.sent := plan_succeeds opened answers aligned
  rcases plans with ⟨report, planned, sends, called⟩
  have does := stands.entry replies queue
  simp only [planned] at does
  rcases does with ⟨state', returns, reports⟩
  refine ⟨report, state', returns, reports, ?_, called, (plan_sends opened planned).1⟩
  rcases List.exists_cons_of_ne_nil (stands.parcels_ne_nil queue) with ⟨first, rest, waiting⟩
  apply sends first
  · rw [waiting]
    rfl
  · rw [drained.available]
    exact (fit first (waiting ▸ List.mem_cons_self)).1

/-- When all packets fit the ring, each entry sends one, and all messages are notified. -/
theorem Stands.empties {replies : ℕ → ℕ → SendReplies}
    (answers : ∀ entry turn, Answers (replies entry turn)) {entries : ℕ} :
    ∀ {state : Sending} {index : ℕ}, Stands config state.term index →
      state.term.rmtMemToken ≠ 0 →
      (∀ parcel ∈ state.term.parcels index, parcel.size ≤ config.ring ∧ parcel.aligned = true) →
      (state.term.parcels index).length ≤ entries →
      ∃ last, Sending.entries config replies entries state = .ok last ∧ last.term.sndQue = [] ∧
        last.called.map Prod.fst = state.called.map Prod.fst ++ state.term.sndQue.reverse := by
  induction entries with
  | zero =>
      intro state index stands opened fit enough
      have empty : state.term.sndQue = [] := by
        by_contra queue
        exact stands.parcels_ne_nil queue (List.eq_nil_of_length_eq_zero (by omega))
      exact ⟨state, rfl, empty, by simp [empty]⟩
  | succ entries ih =>
      intro state index stands opened fit enough
      by_cases empty : state.term.sndQue = []
      · exact ⟨state, by rw [Sending.entries, if_pos empty], empty, by simp [empty]⟩
      · rcases stands.entry_succeeds (answers entries) opened empty fit with
          ⟨report, state', returns, reports, sends, called, whole⟩
        rcases reports.left with ⟨next, standsNext, left⟩
        have open' : state'.term.rmtMemToken ≠ 0 := by
          rw [reports.term]
          exact opened
        have fitNext : ∀ parcel ∈ state'.term.parcels next, parcel.size ≤ config.ring ∧
            parcel.aligned = true := by
          intro parcel waits
          apply fit parcel
          rw [whole]
          exact List.mem_append_right _ (left ▸ waits)
        have fewer : (state'.term.parcels next).length ≤ entries := by
          have := congrArg List.length whole
          have := List.length_pos_iff.mpr sends
          rw [List.length_append] at *
          rw [left]
          omega
        rcases ih standsNext open' fitNext fewer with ⟨last, entered, emptied, all⟩
        refine ⟨last, ?_, emptied, ?_⟩
        · simp only [Sending.entries, if_neg empty, returns, bind, Except.bind]
          exact entered
        · have queue : state.term.sndQue.reverse = finished report.sent ++
              state'.term.sndQue.reverse := by
            rw [← stands.finished_parcels, whole, finished_append, ← left,
              standsNext.finished_parcels]
          rw [all, reports.called, List.map_append, called, queue, List.append_assoc]
          rfl

end Entries

section Largest

variable {config : LinkConfig} {req : SndReq}

/-- The packets of a request fit the ring when the first one does. -/
theorem FitsRing.parcel (fits : FitsRing config req) (index : ℕ) :
    (⟨req, index⟩ : Parcel).size ≤ config.ring ∧ (⟨req, index⟩ : Parcel).aligned = true := by
  rcases fits with ⟨fits, aligned⟩
  refine ⟨?_, (Parcel.aligned_iff _).mpr aligned⟩
  rw [Parcel.size_eq]
  have : min packetSize (req.buf.size - index * packetSize) ≤ min req.buf.size packetSize := by
    omega
  exact le_trans (Nat.add_le_add_right this _) fits

/-- A message is sent from a drained ring, whatever happened before, exactly when it fits. -/
theorem sendsWhenDrained_iff (config : LinkConfig) (admitted : sendAdmits req.buf = true) :
    SendsWhenDrained config req ↔ FitsRing config req := by
  constructor
  · intro sends
    let link := config.loopingLink req
    have reachable : (linkMachine config).Reachable AnyAction link :=
      config.reachable_loopingLink admitted
    have looping : link.threads 0 = [.looping] := setStack_self _ _ _
    have back : link.term.sndQue.getLast? = some req := rfl
    have drained : Drained config link.term := by
      simp [Drained, link, LinkConfig.loopingLink, Link.setStack, LinkConfig.queuedLink,
        LinkConfig.freshTerminal]
    have opened : link.term.rmtMemToken ≠ 0 := by
      change (1 : UInt32) ≠ 0
      decide
    have answers : Answers {} := ⟨rfl, rfl, Or.inl rfl⟩
    rcases sends link 0 [] {} reachable looping back drained opened answers with
      ⟨state', returned, turn, parcel, _, frames, _⟩
    rcases looping_stands reachable looping with ⟨index, stands⟩
    let state : Sending := { term := link.term, mem := link.mem }
    have standsState : Stands config state.term index := stands
    have zero : index = 0 := by
      have idx : (0 : Int16).toInt = (index : ℤ) := stands.idx
      simpa using idx.symm
    subst zero
    have size : (⟨req, 0⟩ : Parcel).size = min req.buf.size packetSize + 2 * msgEndSize := by
      rw [Parcel.size_eq, Nat.zero_mul, Nat.sub_zero, Nat.min_comm]
    have available : state.term.available = config.ring := drained.available
    have space : (⟨req, 0⟩ : Parcel).size ≤ state.term.available := by
      by_contra noSpace
      rcases answers.planRead state.term.rmtTagToken state.term.pendingRead with ⟨reads, planned⟩
      have full := standsState.turn_full {} back (Nat.lt_of_not_le noSpace)
      simp only [planned] at full
      rcases full with ⟨state'', leaves, _, _, frames', _⟩
      rw [leaves] at turn
      cases turn
      rw [frames'] at frames
      cases frames
    refine ⟨?_, ?_⟩
    · rw [← size, ← available]
      exact space
    · by_contra misaligned
      have unaligned : (⟨req, 0⟩ : Parcel).aligned = false := by
        rw [← Bool.not_eq_true, Parcel.aligned_iff]
        exact misaligned
      rcases standsState.turn_fails {} back space (Or.inl unaligned) with ⟨reason, aborts⟩
      rw [aborts] at turn
      cases turn
  · intro fits link thread rest replies reachable looping back drained opened answers
    rcases looping_stands reachable looping with ⟨index, stands⟩
    let state : Sending := { term := link.term, mem := link.mem }
    have standsState : Stands config state.term index := stands
    rcases fits.parcel index with ⟨small, aligned⟩
    have space : (⟨req, index⟩ : Parcel).size ≤ state.term.available := by
      rw [← drained.available] at small
      exact small
    rcases answers.planRead link.term.rmtTagToken link.term.pendingRead with ⟨reads, planned⟩
    have posts : ∃ state' returned, state.turn config.sendBuf replies = .ok (state', returned) ∧
        Turned config state ⟨req, index⟩ reads replies state' returned :=
      standsState.turn_posted back space aligned opened (answers.writesRefused _) planned
    rcases posts with ⟨state', returned, turn, turned⟩
    exact ⟨state', returned, turn, ⟨req, index⟩, rfl, turned.frames, turned.shown⟩

/-- A message is sent from a drained ring exactly when its largest packet fits the ring and its
buffer is aligned; and entering `ProcessSendQ` on a drained ring often enough sends all that waits
exactly when every packet does so, with no more entries than packets. -/
theorem drained_progress (config : LinkConfig) :
    (∀ req, sendAdmits req.buf = true → (SendsWhenDrained config req ↔ FitsRing config req)) ∧
    ∀ (link : Link) (thread : ℕ) (rest : List Activation) (replies : ℕ → ℕ → SendReplies),
      (linkMachine config).Reachable AnyAction link → link.threads thread = .entering :: rest →
      link.term.rmtMemToken ≠ 0 → (∀ entry turn, Answers (replies entry turn)) →
        ((∃ entries last,
            Sending.entries config replies entries { term := link.term, mem := link.mem } =
              .ok last ∧ last.term.sndQue = []) ↔
          ∀ parcel ∈ link.term.waiting, parcel.size ≤ config.ring ∧ parcel.aligned = true) ∧
        ((∀ parcel ∈ link.term.waiting, parcel.size ≤ config.ring ∧ parcel.aligned = true) →
          ∃ last, Sending.entries config replies link.term.waiting.length
              { term := link.term, mem := link.mem } = .ok last ∧ last.term.sndQue = [] ∧
            last.called.map Prod.fst = link.term.sndQue.reverse) := by
  refine ⟨fun req admitted => sendsWhenDrained_iff config admitted, ?_⟩
  intro link thread rest replies reachable entering opened answers
  rcases entering_stands reachable entering with ⟨⟨index, stands⟩, _⟩
  let state : Sending := { term := link.term, mem := link.mem }
  have standsState : Stands config state.term index := stands
  rw [stands.waiting_eq]
  have empties : _ → ∃ last, Sending.entries config replies (link.term.parcels index).length state =
      .ok last ∧ last.term.sndQue = [] ∧
        last.called.map Prod.fst = [] ++ link.term.sndQue.reverse :=
    fun fit => standsState.empties answers opened fit le_rfl
  refine ⟨⟨?_, ?_⟩, empties⟩
  · rintro ⟨entries, last, entered, empty⟩ parcel waits
    by_contra bad
    exact standsState.stuck bad opened waits entered empty
  · intro fit
    rcases empties fit with ⟨last, entered, empty, _⟩
    exact ⟨_, last, entered, empty⟩

/-- A message of 64 bytes leaves in one entry. -/
theorem drained_progress_filled_message :
    ∃ last, Sending.entries smallRing (fun _ _ => {}) 1
        ⟨(smallRing.queuedLink (filledReq 64 0x42)).term, fun _ => 0, [], [], []⟩ = .ok last ∧
      last.term.sndQue = [] ∧ last.called.map Prod.fst = [filledReq 64 0x42] := by
  have entering : (smallRing.queuedLink (filledReq 64 0x42)).threads 0 = [.entering] := rfl
  have opened : (smallRing.queuedLink (filledReq 64 0x42)).term.rmtMemToken ≠ 0 := by decide
  have fit : ∀ parcel ∈ (smallRing.queuedLink (filledReq 64 0x42)).term.waiting,
      parcel.size ≤ smallRing.ring ∧ parcel.aligned = true := by decide +kernel
  exact ((drained_progress smallRing).2 _ 0 [] (fun _ _ => {})
    (smallRing.reachable_queuedLink (by decide)) entering opened
    fun _ _ => ⟨rfl, rfl, Or.inl rfl⟩).2 fit

/-- A message of 4080 bytes. -/
def longMessage : SndReq := ⟨0, ⟨0, List.replicate 4080 0⟩, 0⟩

/-- With a buffer of 8192 bytes for each connection, which the factory admits, the frame of a
message of 4080 bytes is longer than the ring. -/
theorem long_message_blocks :
    ¬∀ (setup : Setup) (host : Host (boundedQueue ℕ)),
      hermesFixedRIOFactory (boundedQueue ℕ) setup = .ok host →
        ∀ config : LinkConfig, config.ring = setup.conBufSize / 2 →
          ∀ req, sendAdmits req.buf = true → SendsWhenDrained config req := by
  intro always
  rcases Host.factory_succeeds (boundedQueue ℕ) (sampleSetup_platform 8192 1) (by decide)
    (by decide) (by decide) with ⟨host, made⟩
  have length : longMessage.buf.size = 4080 := List.length_replicate
  have admitted : sendAdmits longMessage.buf = true := by
    rw [sendAdmits, length]
    decide
  have sends := always _ host made smallRing rfl longMessage admitted
  have fits := ((sendsWhenDrained_iff smallRing admitted).mp sends).1
  rw [length] at fits
  revert fits
  decide

end Largest

end Hermes
