import Hermes.HostInvariant
import Mathlib.Data.List.Induction

/-!
# The rules of overlapped objects and arenas

`ArenaLedger.next` is the discipline the library's events should keep: an overlapped object is
taken only when it is free, its job runs once, and it is given back after that; the arena
of an accept or a connect is live from its beginning on until it is retired, and whatever
is allocated on it, a job or other data, is only used while it is live; and no arena is
retired twice.  `replay` follows a history and fails where the discipline is broken.
-/

namespace Hermes

/-- An overlapped object is free, waits to run its job, or has run it. -/
inductive Phase where
  | idle
  | held (job : AsyncJob) (arena : ℕ)
  | done
  deriving DecidableEq, Repr

/-- What a history has done: the phase of every overlapped object, the live arenas of accepts and
connects, and all arenas that have been retired. -/
structure ArenaLedger where
  phase : ℕ → Phase := fun _ => .idle
  live : List ℕ := []
  ended : List ℕ := []

/-- The job goes on with an accept or a connect. -/
def AsyncJob.chained (job : AsyncJob) : Bool := job.sock?.isSome

namespace ArenaEvent

/-- The event is about the overlapped object. -/
def about (ov : ℕ) : ArenaEvent → Bool
  | .took ov' _ _ => ov' = ov
  | .ran ov' => ov' = ov
  | .gave ov' => ov' = ov
  | _ => false

/-- After a history, the event uses what an accept or a connect has on its arena: the job of an
object taken for it, or other data. -/
def Uses (before : List ArenaEvent) (arena : ℕ) : ArenaEvent → Prop
  | .took _ job arena' => job.chained = true ∧ arena' = arena
  | .ran ov => ∃ job first rest, before = first ++ .took ov job arena :: rest ∧
      job.chained = true ∧ .ran ov ∉ rest
  | .used arena' => arena' = arena
  | _ => False

end ArenaEvent

namespace ArenaLedger

def next (ledger : ArenaLedger) : ArenaEvent → Option ArenaLedger
  | .began arena =>
      if arena ∈ ledger.live ∨ arena ∈ ledger.ended then none
      else some { ledger with live := arena :: ledger.live }
  | .took ov job arena =>
      if ledger.phase ov = .idle ∧ (job.chained = true → arena ∈ ledger.live) then
        some { ledger with phase := Function.update ledger.phase ov (.held job arena) }
      else none
  | .ran ov =>
      match ledger.phase ov with
      | .held job arena =>
          if job.chained = true → arena ∈ ledger.live then
            some { ledger with phase := Function.update ledger.phase ov .done }
          else none
      | _ => none
  | .gave ov =>
      if ledger.phase ov = .done then
        some { ledger with phase := Function.update ledger.phase ov .idle }
      else none
  | .used arena => if arena ∈ ledger.live then some ledger else none
  | .retired arena =>
      if arena ∈ ledger.ended then none
      else some { ledger with live := ledger.live.erase arena, ended := arena :: ledger.ended }

/-- The ledger of a history that keeps the discipline. -/
def replay (events : List ArenaEvent) : Option ArenaLedger := events.foldlM next {}

variable {ledger ledger' : ArenaLedger} {events : List ArenaEvent}
    {event : ArenaEvent} {arena ov : ℕ}
  {job : AsyncJob}

theorem replay_concat (replayed : replay events = some ledger) :
    replay (events ++ [event]) = ledger.next event := by
  simp only [replay, List.foldlM_append] at *
  rw [replayed]
  simp

/-- An invariant of the ledger. -/
theorem replay_induction {motive : List ArenaEvent → ArenaLedger → Prop} (start : motive [] {})
    (kept : ∀ {events ledger event ledger'}, motive events ledger →
      ledger.next event = some ledger' → motive (events ++ [event]) ledger')
    (replayed : replay events = some ledger) : motive events ledger := by
  induction events using List.reverseRecOn generalizing ledger with
  | nil =>
      cases replayed
      exact start
  | append_singleton events event ih =>
      simp only [replay, List.foldlM_append, List.foldlM_cons, List.foldlM_nil, bind_pure]
        at replayed
      rcases Option.bind_eq_some_iff.mp replayed with ⟨middle, before, stepped⟩
      exact kept (ih before) stepped

section Next

theorem next_took (idle : ledger.phase ov = .idle)
    (live : job.chained = true → arena ∈ ledger.live) :
    ledger.next (.took ov job arena) =
      some { ledger with phase := Function.update ledger.phase ov (.held job arena) } :=
  if_pos ⟨idle, live⟩

theorem next_ran (held : ledger.phase ov = .held job arena)
    (live : job.chained = true → arena ∈ ledger.live) :
    ledger.next (.ran ov) =
      some { ledger with phase := Function.update ledger.phase ov .done } := by
  simp only [next, held]
  exact if_pos live

theorem next_gave (done : ledger.phase ov = .done) :
    ledger.next (.gave ov) =
      some { ledger with phase := Function.update ledger.phase ov .idle } :=
  if_pos done

theorem next_used (live : arena ∈ ledger.live) : ledger.next (.used arena) = some ledger :=
  if_pos live

theorem next_began (fresh : arena ∉ ledger.live) (fresh' : arena ∉ ledger.ended) :
    ledger.next (.began arena) = some { ledger with live := arena :: ledger.live } :=
  if_neg (not_or.mpr ⟨fresh, fresh'⟩)

theorem next_retired (once : arena ∉ ledger.ended) :
    ledger.next (.retired arena) = some { ledger with
      live := ledger.live.erase arena, ended := arena :: ledger.ended } :=
  if_neg once

end Next

section Turns

theorem replay_split {before after : List ArenaEvent}
    (replayed : replay (before ++ event :: after) = some ledger) :
    ∃ middle middle', replay before = some middle ∧ middle.next event = some middle' ∧
      after.foldlM next middle' = some ledger := by
  simp only [replay, List.foldlM_append, List.foldlM_cons] at replayed
  rcases Option.bind_eq_some_iff.mp replayed with ⟨middle, first, rest⟩
  rcases Option.bind_eq_some_iff.mp rest with ⟨middle', stepped, last⟩
  exact ⟨middle, middle', first, stepped, last⟩

/-- An event changes the phase of the object it is about only, from the one it needs. -/
theorem next_phase (ov : ℕ) (stepped : ledger.next event = some ledger') :
    (event.about ov = false ∧ ledger'.phase ov = ledger.phase ov) ∨
    (∃ job arena, event = .took ov job arena ∧ ledger.phase ov = .idle ∧
      ledger'.phase ov = .held job arena) ∨
    (event = .ran ov ∧ (∃ job arena, ledger.phase ov = .held job arena ∧
      (job.chained = true → arena ∈ ledger.live)) ∧ ledger'.phase ov = .done) ∨
    (event = .gave ov ∧ ledger.phase ov = .done ∧ ledger'.phase ov = .idle) := by
  cases event
  case took ov' job arena =>
    simp only [next] at stepped
    split at stepped
    case isFalse => cases stepped
    case isTrue taken =>
      cases stepped
      by_cases same : ov' = ov
      · subst same
        exact .inr (.inl ⟨job, arena, rfl, taken.1, by simp⟩)
      · exact .inl ⟨by simp [ArenaEvent.about, same], by simp [Ne.symm same]⟩
  case ran ov' =>
    simp only [next] at stepped
    split at stepped
    case h_2 => cases stepped
    case h_1 job arena held =>
      split at stepped
      case isFalse => cases stepped
      case isTrue live =>
        cases stepped
        by_cases same : ov' = ov
        · subst same
          exact .inr (.inr (.inl ⟨rfl, ⟨job, arena, held, live⟩, by simp⟩))
        · exact .inl ⟨by simp [ArenaEvent.about, same], by simp [Ne.symm same]⟩
  case gave ov' =>
    simp only [next] at stepped
    split at stepped
    case isFalse => cases stepped
    case isTrue done =>
      cases stepped
      by_cases same : ov' = ov
      · subst same
        exact .inr (.inr (.inr ⟨rfl, done, by simp⟩))
      · exact .inl ⟨by simp [ArenaEvent.about, same], by simp [Ne.symm same]⟩
  all_goals
    simp only [next] at stepped
    split at stepped <;> cases stepped
    exact .inl ⟨rfl, rfl⟩

theorem held_of_took (stepped : ledger.next (.took ov job arena) = some ledger') :
    ledger'.phase ov = .held job arena := by
  rcases next_phase ov stepped with ⟨other, _⟩ | ⟨_, _, same, _, held⟩ | ⟨same, _⟩ | ⟨same, _⟩
  · simp [ArenaEvent.about] at other
  · cases same
    exact held
  · cases same
  · cases same

/-- An object that has run its job is given back before anything else happens to it. -/
theorem turn_of_done (done : ledger.phase ov = .done)
    (followed : events.foldlM next ledger = some ledger') :
    (events.filter (·.about ov) = [] ∧ ledger'.phase ov = .done) ∨
      ∃ rest, events.filter (·.about ov) = .gave ov :: rest := by
  induction events generalizing ledger with
  | nil =>
      cases followed
      exact .inl ⟨rfl, done⟩
  | cons event events ih =>
      rw [List.foldlM_cons] at followed
      rcases Option.bind_eq_some_iff.mp followed with ⟨middle, stepped, rest⟩
      rcases next_phase ov stepped with ⟨other, same⟩ | ⟨_, _, _, idle, _⟩ |
        ⟨_, ⟨_, _, held, _⟩, _⟩ | ⟨rfl, _⟩
      · rw [List.filter_cons_of_neg (by simp [other])]
        exact ih (same.trans done) rest
      · rw [done] at idle
        cases idle
      · rw [done] at held
        cases held
      · exact .inr ⟨_, List.filter_cons_of_pos (by simp [ArenaEvent.about])⟩

/-- An object that has been taken runs its job once and is then given back, before anything else
happens to it. -/
theorem turn_of_held (held : ledger.phase ov = .held job arena)
    (followed : events.foldlM next ledger = some ledger') :
    (events.filter (·.about ov) = [] ∧ ledger'.phase ov = .held job arena) ∨
      (events.filter (·.about ov) = [.ran ov] ∧ ledger'.phase ov = .done) ∨
      ∃ rest, events.filter (·.about ov) = .ran ov :: .gave ov :: rest := by
  induction events generalizing ledger with
  | nil =>
      cases followed
      exact .inl ⟨rfl, held⟩
  | cons event events ih =>
      rw [List.foldlM_cons] at followed
      rcases Option.bind_eq_some_iff.mp followed with ⟨middle, stepped, rest⟩
      rcases next_phase ov stepped with ⟨other, same⟩ | ⟨_, _, _, idle, _⟩ |
        ⟨rfl, _, done⟩ | ⟨_, done, _⟩
      · rw [List.filter_cons_of_neg (by simp [other])]
        exact ih (same.trans held) rest
      · rw [held] at idle
        cases idle
      · rw [List.filter_cons_of_pos (by simp [ArenaEvent.about])]
        rcases turn_of_done done rest with ⟨none, still⟩ | ⟨last, given⟩
        · exact .inr (.inl ⟨by rw [none], still⟩)
        · exact .inr (.inr ⟨last, by rw [given]⟩)
      · rw [held] at done
        cases done

end Turns

section Counts

/-- What a ledger tells of a history's arenas: they begin and are retired at most once, and the
live ones have begun and not been retired. -/
structure Counts (events : List ArenaEvent) (ledger : ArenaLedger) : Prop where
  nodup : ledger.live.Nodup
  began : ∀ arena, events.count (.began arena) ≤ 1
  retired : ∀ arena, events.count (.retired arena) = if arena ∈ ledger.ended then 1 else 0
  live : ∀ arena, arena ∈ ledger.live ↔
    .began arena ∈ events ∧ .retired arena ∉ events

theorem Counts.mem_ended (counts : Counts events ledger) :
    arena ∈ ledger.ended ↔ .retired arena ∈ events := by
  have positive : 0 < events.count (.retired arena) ↔ _ := List.count_pos_iff
  rw [← positive, counts.retired arena]
  split <;> simp [*]

/-- Events that change no arena. -/
theorem Counts.same (counts : Counts events ledger) (live : ledger'.live = ledger.live)
    (ended : ledger'.ended = ledger.ended) (noBegan : ∀ arena, event ≠ .began arena)
    (noRetired : ∀ arena, event ≠ .retired arena) : Counts (events ++ [event]) ledger' := by
  have count : ∀ arena, (events ++ [event]).count (.began arena) = events.count (.began arena) ∧
      (events ++ [event]).count (.retired arena) = events.count (.retired arena) := by
    intro arena
    simp [List.count_append, noBegan arena, noRetired arena]
  have began : ∀ arena, ArenaEvent.began arena ≠ event := fun arena => (noBegan arena).symm
  have retired : ∀ arena, ArenaEvent.retired arena ≠ event := fun arena => (noRetired arena).symm
  constructor
  case nodup => rw [live]; exact counts.nodup
  case began => intro arena; rw [(count arena).1]; exact counts.began arena
  case retired => intro arena; rw [(count arena).2, ended]; exact counts.retired arena
  case live =>
    intro arena
    rw [live, counts.live]
    simp [began arena, retired arena]

theorem Counts.next (counts : Counts events ledger) (stepped : ledger.next event = some ledger') :
    Counts (events ++ [event]) ledger' := by
  cases event
  case began arena =>
    simp only [ArenaLedger.next] at stepped
    split at stepped
    · cases stepped
    case isFalse fresh =>
      cases stepped
      rw [not_or, counts.live, counts.mem_ended] at fresh
      have notBegan : ArenaEvent.began arena ∉ events := fun begun => fresh.1 ⟨begun, fresh.2⟩
      constructor
      case nodup =>
        refine List.nodup_cons.mpr ⟨?_, counts.nodup⟩
        rw [counts.live]
        exact fresh.1
      case began =>
        intro other
        have before := counts.began other
        by_cases same : arena = other
        · subst same
          simp [List.count_append, List.count_eq_zero_of_not_mem notBegan]
        · simpa [List.count_append, List.count_singleton, same] using before
      case retired => intro other; simpa [List.count_append] using counts.retired other
      case live =>
        intro other
        rw [List.mem_cons, counts.live]
        by_cases same : other = arena
        · subst same
          simp [fresh.2]
        · simp [same]
  case retired arena =>
    simp only [ArenaLedger.next] at stepped
    split at stepped
    · cases stepped
    case isFalse once =>
      cases stepped
      constructor
      case nodup => exact counts.nodup.erase arena
      case began => intro other; simpa [List.count_append] using counts.began other
      case retired =>
        intro other
        have before := counts.retired other
        by_cases same : arena = other
        · subst same
          rw [if_neg once] at before
          simp [List.count_append, before]
        · simp [List.count_append, before, same, Ne.symm same]
      case live =>
        intro other
        rw [counts.nodup.mem_erase_iff, counts.live]
        by_cases same : other = arena
        · subst same
          simp
        · simp [same]
  case took =>
    simp only [ArenaLedger.next] at stepped
    split at stepped
    · cases stepped
      exact counts.same rfl rfl (by simp) (by simp)
    · cases stepped
  case ran =>
    simp only [ArenaLedger.next] at stepped
    split at stepped
    · split at stepped
      · cases stepped
        exact counts.same rfl rfl (by simp) (by simp)
      · cases stepped
    · cases stepped
  case gave =>
    simp only [ArenaLedger.next] at stepped
    split at stepped
    · cases stepped
      exact counts.same rfl rfl (by simp) (by simp)
    · cases stepped
  case used =>
    simp only [ArenaLedger.next] at stepped
    split at stepped
    · cases stepped
      exact counts.same rfl rfl (by simp) (by simp)
    · cases stepped

theorem counts_of_replay (replayed : replay events = some ledger) : Counts events ledger := by
  refine replay_induction ?_ Counts.next replayed
  constructor <;> simp

/-- What is used on an arena is used after its beginning and before it is retired. -/
theorem live_of_uses {before after : List ArenaEvent}
    (replayed : replay (before ++ event :: after) = some ledger) (uses : event.Uses before arena) :
    .began arena ∈ before ∧ .retired arena ∉ before := by
  rcases replay_split replayed with ⟨middle, middle', first, stepped, _⟩
  apply ((counts_of_replay first).live arena).mp
  cases event
  case took ov job arena' =>
    rcases uses with ⟨chained, rfl⟩
    simp only [next] at stepped
    split at stepped
    case isTrue taken => exact taken.2 chained
    case isFalse => cases stepped
  case used arena' =>
    cases uses
    simp only [next] at stepped
    split at stepped
    case isTrue live => exact live
    case isFalse => cases stepped
  case ran ov =>
    rcases uses with ⟨job, early, rest, rfl, chained, notRun⟩
    rcases replay_split first with ⟨start, taken, _, took, followed⟩
    have held := held_of_took took
    have none : ∀ {more}, rest.filter (·.about ov) ≠ .ran ov :: more := by
      intro more same
      have member : .ran ov ∈ rest.filter (·.about ov) := same ▸ List.mem_cons_self
      exact notRun (List.mem_filter.mp member).1
    rcases turn_of_held held followed with ⟨_, still⟩ | ⟨some, _⟩ | ⟨_, some⟩
    · simp only [next, still] at stepped
      split at stepped
      case isTrue live => exact live chained
      case isFalse => cases stepped
    · exact absurd some none
    · exact absurd some none
  all_goals cases uses

end Counts

end ArenaLedger

end Hermes
