import Hermes.HostRegion
import Mathlib.Data.Finset.Prod
import Mathlib.Order.Interval.Finset.Nat

/-!
# How many operations can be outstanding

While terminals are only reused when their registrations have completed, and no
connection is closed, three outstanding operations are the most a terminal needs: one
that goes on with the attempt to connect or waits for the disconnect, one that
registers the tag region, and one that registers the buffer region or waits for
transfers.
-/

namespace Hermes

variable {queue : CircularQue ℕ} {config : HostConfig} {mode : Mode} {listeners : List ℕ}
  {hand : Hand} {host : Host queue}

/-- What an outstanding operation takes of its terminal's share. -/
def AsyncJob.share (hand : Hand) (sockTbl : ℕ → HSocket) : AsyncJob → ℕ × ℕ
  | onConn id _ | onConnAck id | onAccepted id => (0, (sockTbl id).term)
  | onDisconNotified conId => (0, conId)
  | verbCompletion conId => if hand.term = some conId then (3, 0) else (1, conId)
  | onMemRegistered conId _ => (1, conId)
  | onTagRegistered conId _ => (2, conId)

namespace HostOk

/-- An attempt that goes on is the attempt for a terminal. -/
theorem attemptTerm (ok : HostOk config mode listeners hand host) {id : ℕ}
    (settled : hand.Settled config id)
    (attempting : (host.sockTbl id).state.attempting = true) :
    config.TermId (host.sockTbl id).term :=
  (SocketOk.attempts (ok.slots.sockets id settled) attempting).term

/-- Whose share an operation takes is determined by what there is one of. -/
theorem share_key (ok : HostOk config mode listeners hand host) (noClosers : mode.closers = false)
    (strict : mode.strict = true) {ov ov' : ℕ} {job job' : AsyncJob}
    (outstanding : host.Pends ov job) (outstanding' : host.Pends ov' job')
    (same : job.share hand host.sockTbl = job'.share hand host.sockTbl) :
    ∃ key, mode.key job = some key ∧ mode.key job' = some key := by
  have tight := Mode.loose_of_closers noClosers
  have attempts : ∀ {id id'}, mode.key job = some (.attempt id) →
      mode.key job' = some (.attempt id') → (host.sockTbl id).term = (host.sockTbl id').term →
        ∃ key, mode.key job = some key ∧ mode.key job' = some key := by
    intro id id' key key' sameTerm
    rcases (ok.jobs.ready outstanding).attempting key with ⟨settled, attempting⟩
    rcases (ok.jobs.ready outstanding').attempting key' with ⟨settled', _⟩
    have valid := (ok.attemptTerm settled attempting).ne
    have sameId := ok.slots.ownedOnce id id' settled settled' valid sameTerm
    exact ⟨_, key, sameId ▸ key'⟩
  have ended : ∀ {job id conId ov ov'}, host.Pends ov job → mode.key job = some (.attempt id) →
      host.Pends ov' (.onDisconNotified conId) → (host.sockTbl id).term ≠ conId := by
    intro job id conId ov ov' attempt key discon sameTerm
    rcases (ok.jobs.ready attempt).attempting key with ⟨settled, attempting⟩
    have calm := ((ok.jobs.ready discon).2 tight).2 id settled sameTerm
    rw [attempting] at calm
    cases calm
  have registered : ∀ {conId region ov ov'}, hand.term ≠ some conId →
      host.Pends ov (.verbCompletion conId) →
        ¬host.Pends ov' (.onMemRegistered conId region) := by
    intro conId region ov ov' notInHand verb mem
    rcases ok.jobs.ready verb with ⟨inRange, begun⟩
    exact ok.regions.started inRange notInHand (begun noClosers)
      ((ok.jobs.ready mem).2 strict)
  cases job
  case onConn id listen | onConnAck id | onAccepted id =>
    cases job'
    case onConn id' listen' | onConnAck id' | onAccepted id' =>
      exact attempts (by simp [Mode.key, tight]) (by simp [Mode.key, tight])
        (congrArg Prod.snd same)
    case onDisconNotified conId' =>
      exact absurd (congrArg Prod.snd same)
        (ended outstanding (by simp [Mode.key, tight]) outstanding')
    case verbCompletion conId' =>
      simp only [AsyncJob.share] at same
      split at same <;> cases congrArg Prod.fst same
    all_goals cases congrArg Prod.fst same
  case onDisconNotified conId =>
    cases job'
    case onConn id' listen' | onConnAck id' | onAccepted id' =>
      exact absurd (congrArg Prod.snd same).symm
        (ended outstanding' (by simp [Mode.key, tight]) outstanding)
    case onDisconNotified conId' =>
      have sameId : conId = conId' := congrArg Prod.snd same
      exact ⟨.discon conId, by simp [Mode.key, tight], by simp [Mode.key, tight, sameId]⟩
    case verbCompletion conId' =>
      simp only [AsyncJob.share] at same
      split at same <;> cases congrArg Prod.fst same
    all_goals cases congrArg Prod.fst same
  case onTagRegistered conId region =>
    cases job'
    case onTagRegistered conId' region' =>
      have sameId : conId = conId' := congrArg Prod.snd same
      exact ⟨.tag conId, by simp [Mode.key, strict], by simp [Mode.key, strict, sameId]⟩
    case verbCompletion conId' =>
      simp only [AsyncJob.share] at same
      split at same <;> cases congrArg Prod.fst same
    all_goals cases congrArg Prod.fst same
  case onMemRegistered conId region =>
    cases job'
    case onMemRegistered conId' region' =>
      have sameId : conId = conId' := congrArg Prod.snd same
      exact ⟨.mem conId, by simp [Mode.key, strict], by simp [Mode.key, strict, sameId]⟩
    case verbCompletion conId' =>
      simp only [AsyncJob.share] at same
      split at same
      case isTrue => cases congrArg Prod.fst same
      case isFalse notInHand =>
        have sameId : conId = conId' := congrArg Prod.snd same
        rw [sameId] at outstanding
        exact absurd outstanding (registered notInHand outstanding')
    all_goals cases congrArg Prod.fst same
  case verbCompletion conId =>
    cases job'
    case verbCompletion conId' =>
      have sameId : conId = conId' := by
        simp only [AsyncJob.share] at same
        split at same
        case isTrue inHand =>
          split at same
          case isTrue inHand' => exact Option.some.inj (inHand.symm.trans inHand')
          case isFalse => cases congrArg Prod.fst same
        case isFalse =>
          split at same
          case isTrue => cases congrArg Prod.fst same
          case isFalse => exact congrArg Prod.snd same
      exact ⟨.verb conId, by simp [Mode.key, noClosers], by simp [Mode.key, noClosers, sameId]⟩
    case onMemRegistered conId' region' =>
      simp only [AsyncJob.share] at same
      split at same
      case isTrue => cases congrArg Prod.fst same
      case isFalse notInHand =>
        have sameId : conId = conId' := congrArg Prod.snd same
        rw [sameId] at outstanding notInHand
        exact absurd outstanding' (registered notInHand outstanding)
    all_goals
      simp only [AsyncJob.share] at same
      split at same <;> cases congrArg Prod.fst same

/-- Every operation takes one of three shares of its terminal. -/
theorem share_mem (ok : HostOk config mode listeners hand host) (noClosers : mode.closers = false)
    {ov : ℕ} {job : AsyncJob} (outstanding : host.Pends ov job) :
    job.share hand host.sockTbl ∈
      insert (3, 0) (Finset.range 3 ×ˢ Finset.Icc 1 config.maxConnection) := by
  have tight := Mode.loose_of_closers noClosers
  have ready := ok.jobs.ready outstanding
  have inside : ∀ {kind conId}, kind < 3 → config.TermId conId → ((kind, conId) : ℕ × ℕ) ∈
      insert (3, 0) (Finset.range 3 ×ˢ Finset.Icc 1 config.maxConnection) := by
    intro kind conId low inRange
    apply Finset.mem_insert_of_mem
    exact Finset.mem_product.mpr ⟨Finset.mem_range.mpr low, Finset.mem_Icc.mpr inRange⟩
  cases job
  case onConn id listen | onConnAck id | onAccepted id =>
    rcases ready.attempting (show mode.key _ = some (.attempt id) by simp [Mode.key, tight])
      with ⟨settled, attempting⟩
    exact inside (by decide) (ok.attemptTerm settled attempting)
  case verbCompletion conId =>
    simp only [AsyncJob.share]
    split
    · exact Finset.mem_insert_self _ _
    · exact inside (by decide) ready.1
  all_goals exact inside (by decide) ready.1

theorem pending_length (ok : HostOk config mode listeners hand host)
    (noClosers : mode.closers = false) (strict : mode.strict = true) :
    host.pending.length ≤ 3 * config.maxConnection + 1 := by
  have nodup := ok.overlaps.pendingNodup
  have runs : ∀ ov ∈ host.pending, ∃ job, host.Pends ov job := by
    intro ov member
    have taken := ok.overlaps.taken ov (List.mem_append_right _ member)
    rcases Option.ne_none_iff_exists'.mp taken with ⟨job, next⟩
    exact ⟨job.1, member, congrArg (Option.map Prod.fst) next⟩
  let share : ℕ → ℕ × ℕ := fun ov =>
    ((host.overlaps ov).job?.map (AsyncJob.share hand host.sockTbl)).getD (0, 0)
  have shareOf : ∀ {ov job}, host.Pends ov job → share ov = job.share hand host.sockTbl := by
    intro ov job outstanding
    change ((host.overlaps ov).job?.map _).getD _ = _
    rw [outstanding.2]
    rfl
  have bound : host.pending.toFinset.card ≤
      (insert (3, 0) (Finset.range 3 ×ˢ Finset.Icc 1 config.maxConnection)).card := by
    apply Finset.card_le_card_of_injOn share
    · intro ov member
      rcases runs ov (List.mem_toFinset.mp member) with ⟨job, outstanding⟩
      rw [shareOf outstanding]
      exact ok.share_mem noClosers outstanding
    · intro ov member ov' member' same
      rcases runs ov (List.mem_toFinset.mp member) with ⟨job, outstanding⟩
      rcases runs ov' (List.mem_toFinset.mp member') with ⟨job', outstanding'⟩
      rw [shareOf outstanding, shareOf outstanding'] at same
      rcases ok.share_key noClosers strict outstanding outstanding' same with ⟨key, first, second⟩
      exact ok.jobs.once outstanding outstanding' first second
  rw [List.toFinset_card_of_nodup nodup] at bound
  apply bound.trans
  apply (Finset.card_insert_le _ _).trans
  rw [Finset.card_product, Finset.card_range, Nat.card_Icc]
  omega

end HostOk

end Hermes
