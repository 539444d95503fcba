import Hermes.ArenaLedger
import Hermes.HostConnect

/-!
# Who owns what

`Linear` connects a state of the library to the ledger of its events: a free object is in
the pool, a taken one is with the provider or in hand, and every live arena is owned by
one outstanding operation or in hand.  The rules say what this becomes when an object is
taken, runs its job, is given to the provider or is given back, and when an arena begins
or is retired.
-/

namespace Hermes

variable {queue : CircularQue ℕ}

/-- The arena an operation that goes on with an accept or a connect owns. -/
def chainedArena : Option (AsyncJob × ℕ) → List ℕ
  | some (job, arena) => if job.chained then [arena] else []
  | none => []

/-- The arena the registration of the buffer region owns. -/
def registrationArena : Option (AsyncJob × ℕ) → List ℕ
  | some (.onMemRegistered _ _, arena) => [arena]
  | _ => []

namespace Host

/-- Arenas owned by the outstanding operations. -/
def chainedArenas (host : Host queue) : List ℕ :=
  host.pending.flatMap fun ov => chainedArena (host.overlaps ov).pNext

def registrationArenas (host : Host queue) : List ℕ :=
  host.pending.flatMap fun ov => registrationArena (host.overlaps ov).pNext

end Host

/-- The state agrees with the ledger of its events, up to what the running code has in hand: arenas
of registrations, arenas of accepts and connects, and objects with their phases. -/
structure LinearWith (ledger : ArenaLedger) (spare owned : List ℕ) (hand : List (ℕ × Phase))
    (host : Host queue) : Prop where
  replayed : ArenaLedger.replay host.events = some ledger
  capacity : queue.getCapacity host.overlapPool = kibi
  all : (queue.items host.overlapPool ++ (hand.map Prod.fst ++ host.pending)).Perm
    (List.range kibi)
  pool : ∀ ov ∈ queue.items host.overlapPool, ledger.phase ov = .idle ∧ host.overlaps ov = {}
  inHand : ∀ entry ∈ hand, ledger.phase entry.1 = entry.2 ∧
    (host.overlaps entry.1).pNext ≠ none ∧
      ∀ job arena, entry.2 = .held job arena → (host.overlaps entry.1).pNext = some (job, arena)
  pend : ∀ ov ∈ host.pending, ∃ job arena, (host.overlaps ov).pNext = some (job, arena) ∧
    ledger.phase ov = .held job arena
  outside : ∀ ov, kibi ≤ ov → ledger.phase ov = .idle
  owners : (owned ++ host.chainedArenas).Perm ledger.live
  spareOnce : (spare ++ host.registrationArenas).Nodup
  spared : ∀ arena ∈ spare ++ host.registrationArenas,
    arena < host.arenas ∧ arena ∉ ledger.live ∧ arena ∉ ledger.ended
  fresh : ∀ arena, arena ∈ ledger.live ∨ arena ∈ ledger.ended → arena < host.arenas

/-- The state agrees with its events. -/
def Host.Linear (spare owned : List ℕ) (hand : List (ℕ × Phase)) (host : Host queue) : Prop :=
  ∃ ledger, LinearWith ledger spare owned hand host

namespace LinearWith

variable {ledger : ArenaLedger} {spare owned : List ℕ} {hand : List (ℕ × Phase)} {host : Host queue}
  {ov : ℕ} {job : AsyncJob} {arena : ℕ}

theorem nodup (linear : LinearWith ledger spare owned hand host) :
    (queue.items host.overlapPool ++ (hand.map Prod.fst ++ host.pending)).Nodup :=
  linear.all.nodup_iff.mpr List.nodup_range

theorem pool_apart (linear : LinearWith ledger spare owned hand host)
    (member : ov ∈ queue.items host.overlapPool) :
    ov ∉ hand.map Prod.fst ∧ ov ∉ host.pending := by
  have disjoint := (List.nodup_append.mp linear.nodup).2.2
  constructor
  · intro inHand
    exact disjoint ov member ov (List.mem_append_left _ inHand) rfl
  · intro pending
    exact disjoint ov member ov (List.mem_append_right _ pending) rfl

theorem hand_apart (linear : LinearWith ledger spare owned hand host)
    (member : ov ∈ hand.map Prod.fst) :
    ov ∉ queue.items host.overlapPool ∧ ov ∉ host.pending := by
  have parts := List.nodup_append.mp linear.nodup
  have disjoint := (List.nodup_append.mp parts.2.1).2.2
  constructor
  · intro pooled
    exact parts.2.2 ov pooled ov (List.mem_append_left _ member) rfl
  · intro pending
    exact disjoint ov member ov pending rfl

/-- With nothing in hand, an object in use is with the provider and has not run its job. -/
theorem held_of_busy (linear : LinearWith ledger spare owned [] host)
    (busy : ledger.phase ov ≠ .idle) :
    ov ∈ host.pending ∧ ledger.phase ov ≠ .done := by
  have low : ov < kibi := by
    by_contra high
    exact busy (linear.outside ov (Nat.le_of_not_lt high))
  have member := linear.all.mem_iff.mpr (List.mem_range.mpr low)
  rw [List.map_nil, List.nil_append, List.mem_append] at member
  rcases member with pooled | pending
  · exact absurd (linear.pool ov pooled).1 busy
  · rcases linear.pend ov pending with ⟨job, arena, _, held⟩
    exact ⟨pending, by simp [held]⟩

/-- An arena in hand is live and has not been retired. -/
theorem live_of_owned (linear : LinearWith ledger spare owned hand host) (member : arena ∈ owned) :
    arena ∈ ledger.live ∧ arena ∉ ledger.ended := by
  have live : arena ∈ ledger.live := linear.owners.subset (List.mem_append_left _ member)
  have counts := ArenaLedger.counts_of_replay linear.replayed
  refine ⟨live, ?_⟩
  rw [counts.mem_ended]
  exact ((counts.live arena).mp live).2

/-- An object that is not with the provider owns nothing there. -/
theorem flatMap_update {Owned : Type} {pending : List ℕ} (overlaps : ℕ → HOverlap)
    (overlap : HOverlap) (outside : ov ∉ pending) (owns : Option (AsyncJob × ℕ) → List Owned) :
    (pending.flatMap fun other => owns (Function.update overlaps ov overlap other).pNext) =
      pending.flatMap fun other => owns (overlaps other).pNext := by
  apply List.flatMap_congr
  intro other member
  have different : other ≠ ov := fun same => outside (same ▸ member)
  rw [Function.update_of_ne different]

/-- A pooled object or one in hand is one of the pool's own, so its phase is no other object's. -/
theorem outside_update (linear : LinearWith ledger spare owned hand host) (phase : Phase)
    (inside : ov ∈ queue.items host.overlapPool ++ (hand.map Prod.fst ++ host.pending)) :
    ∀ other, kibi ≤ other → Function.update ledger.phase ov phase other = .idle := by
  intro other high
  have low : ov < kibi := List.mem_range.mp (linear.all.subset inside)
  rw [Function.update_of_ne (Nat.ne_of_gt (Nat.lt_of_lt_of_le low high))]
  exact linear.outside other high

/-- An object is taken from the pool. -/
theorem take (linear : LinearWith ledger spare owned hand host) {overlapPool : queue.Que}
    (taken : queue.get host.overlapPool = some (ov, overlapPool)) (pReceiver : Option ℕ)
    (live : job.chained = true → arena ∈ owned) :
    Host.Linear spare owned ((ov, .held job arena) :: hand) { host with
      overlapPool
      overlaps := Function.update host.overlaps ov ⟨pReceiver, some (job, arena)⟩
      events := host.events ++ [.took ov job arena] } := by
  rcases queue.items_of_get taken with ⟨items, capacity⟩
  have member : ov ∈ queue.items host.overlapPool := by simp [items]
  have apart := linear.pool_apart member
  have nodup := linear.nodup
  rw [items, List.cons_append, List.nodup_cons] at nodup
  have other : ∀ {ov'}, ov' ∈ queue.items overlapPool → ov' ≠ ov := by
    intro ov' rest same
    exact nodup.1 (List.mem_append_left _ (same ▸ rest))
  have stepped := ArenaLedger.next_took (linear.pool ov member).1
    fun chained => (linear.live_of_owned (live chained)).1
  refine ⟨_, ⟨(ArenaLedger.replay_concat linear.replayed).trans stepped,
    capacity.trans linear.capacity,
    ?_, ?_, ?_, ?_, ?_, ?_, ?_, ?_, linear.fresh⟩⟩
  · have moved := linear.all
    rw [items] at moved
    exact List.perm_middle.trans moved
  · intro ov' member'
    have different := other member'
    simp only [Function.update_of_ne different]
    apply linear.pool
    rw [items]
    exact List.mem_cons_of_mem _ member'
  · intro entry member'
    rcases List.mem_cons.mp member' with rfl | old
    · simp only [Function.update_self]
      refine ⟨trivial, by simp, ?_⟩
      rintro job' arena' same
      cases same
      rfl
    · have different : entry.1 ≠ ov := fun same => apart.1 (same ▸ List.mem_map_of_mem old)
      simp only [Function.update_of_ne different]
      exact linear.inHand entry old
  · intro ov' pending
    have different : ov' ≠ ov := fun same => apart.2 (same ▸ pending)
    simp only [Function.update_of_ne different]
    exact linear.pend ov' pending
  · exact linear.outside_update _ (List.mem_append_left _ member)
  · have same := flatMap_update host.overlaps ⟨pReceiver, some (job, arena)⟩ apart.2 chainedArena
    simp only [Host.chainedArenas, same]
    exact linear.owners
  · have same := flatMap_update host.overlaps ⟨pReceiver, some (job, arena)⟩ apart.2
      registrationArena
    simp only [Host.registrationArenas, same]
    exact linear.spareOnce
  · have same := flatMap_update host.overlaps ⟨pReceiver, some (job, arena)⟩ apart.2
      registrationArena
    simp only [Host.registrationArenas, same]
    exact linear.spared

/-- An object in hand runs its job. -/
theorem ran (linear : LinearWith ledger spare owned ((ov, .held job arena) :: hand) host)
    (live : job.chained = true → arena ∈ owned) :
    Host.Linear spare owned ((ov, .done) :: hand)
      { host with events := host.events ++ [.ran ov] } := by
  have top := linear.inHand _ List.mem_cons_self
  have apart := linear.hand_apart (List.mem_map_of_mem (List.mem_cons_self : (ov, _) ∈ _))
  have stepped := ArenaLedger.next_ran top.1 fun chained => (linear.live_of_owned (live chained)).1
  have nodup := (List.nodup_append.mp linear.nodup).2.1
  rw [List.map_cons, List.cons_append, List.nodup_cons] at nodup
  refine ⟨_, ⟨(ArenaLedger.replay_concat linear.replayed).trans stepped,
    linear.capacity, linear.all,
    ?_, ?_, ?_, ?_, linear.owners, linear.spareOnce, linear.spared, linear.fresh⟩⟩
  · intro ov' member
    have different : ov' ≠ ov := fun same => apart.1 (same ▸ member)
    simp only [Function.update_of_ne different]
    exact linear.pool ov' member
  · intro entry member
    rcases List.mem_cons.mp member with rfl | old
    · simp only [Function.update_self]
      exact ⟨trivial, top.2.1, by simp⟩
    · have rest : entry.1 ∈ hand.map Prod.fst := List.mem_map_of_mem old
      have different : entry.1 ≠ ov := fun same => nodup.1 (List.mem_append_left _ (same ▸ rest))
      simp only [Function.update_of_ne different]
      exact linear.inHand entry (List.mem_cons_of_mem _ old)
  · intro ov' pending
    have different : ov' ≠ ov := fun same => apart.2 (same ▸ pending)
    simp only [Function.update_of_ne different]
    exact linear.pend ov' pending
  · apply linear.outside_update
    exact List.mem_append_right _ (List.mem_append_left _ List.mem_cons_self)

/-- An object that has run its job has room in the pool, and is given back. -/
theorem give (linear : LinearWith ledger spare owned ((ov, .done) :: hand) host) :
    ∃ overlapPool, queue.add host.overlapPool ov = some overlapPool ∧
      Host.Linear spare owned hand { host with
        overlapPool
        overlaps := Function.update host.overlaps ov {}
        events := host.events ++ [.gave ov] } := by
  have total := linear.all.length_eq
  rw [List.length_append, List.length_append, List.length_map, List.length_cons,
    List.length_range] at total
  have room : (queue.items host.overlapPool).length < queue.getCapacity host.overlapPool := by
    rw [linear.capacity]
    omega
  rcases queue.add_room room ov with ⟨overlapPool, added, items, capacity⟩
  have top := linear.inHand _ List.mem_cons_self
  have apart := linear.hand_apart (List.mem_map_of_mem (List.mem_cons_self : (ov, _) ∈ _))
  have stepped := ArenaLedger.next_gave top.1
  have nodup := (List.nodup_append.mp linear.nodup).2.1
  rw [List.map_cons, List.cons_append, List.nodup_cons] at nodup
  refine ⟨overlapPool, added, _, ⟨(ArenaLedger.replay_concat linear.replayed).trans stepped,
    capacity.trans linear.capacity, ?_, ?_, ?_, ?_, ?_, ?_, ?_, ?_, linear.fresh⟩⟩
  · have same : (queue.items overlapPool ++ (hand.map Prod.fst ++ host.pending)).Perm
        (queue.items host.overlapPool ++ (ov :: (hand.map Prod.fst ++ host.pending))) := by
      rw [items, List.append_assoc, List.singleton_append]
    exact same.trans linear.all
  · intro ov' member
    rw [items, List.mem_append, List.mem_singleton] at member
    rcases member with old | rfl
    · have different : ov' ≠ ov := fun same => apart.1 (same ▸ old)
      simp only [Function.update_of_ne different]
      exact linear.pool ov' old
    · simp
  · intro entry member
    have rest : entry.1 ∈ hand.map Prod.fst := List.mem_map_of_mem member
    have different : entry.1 ≠ ov := fun same => nodup.1 (List.mem_append_left _ (same ▸ rest))
    simp only [Function.update_of_ne different]
    exact linear.inHand entry (List.mem_cons_of_mem _ member)
  · intro ov' pending
    have different : ov' ≠ ov := fun same => apart.2 (same ▸ pending)
    simp only [Function.update_of_ne different]
    exact linear.pend ov' pending
  · apply linear.outside_update
    exact List.mem_append_right _ (List.mem_append_left _ List.mem_cons_self)
  · simp only [Host.chainedArenas, flatMap_update host.overlaps {} apart.2 chainedArena]
    exact linear.owners
  · simp only [Host.registrationArenas, flatMap_update host.overlaps {} apart.2 registrationArena]
    exact linear.spareOnce
  · simp only [Host.registrationArenas, flatMap_update host.overlaps {} apart.2 registrationArena]
    exact linear.spared

/-- An object in hand is given to the provider, with the arena its job owns. -/
theorem lend (linear : LinearWith ledger (registrationArena (some (job, arena)) ++ spare)
      (chainedArena (some (job, arena)) ++ owned) ((ov, .held job arena) :: hand) host) :
    Host.Linear spare owned hand { host with pending := host.pending ++ [ov] } := by
  have top := linear.inHand _ List.mem_cons_self
  have next : (host.overlaps ov).pNext = some (job, arena) := top.2.2 _ _ rfl
  have arenas : ∀ {Owned : Type} (mine : List Owned) (owns : Option (AsyncJob × ℕ) → List Owned),
      (mine ++ (host.pending ++ [ov]).flatMap fun ov => owns (host.overlaps ov).pNext).Perm
        ((owns (some (job, arena)) ++ mine) ++
          host.pending.flatMap fun ov => owns (host.overlaps ov).pNext) := by
    intro Owned mine owns
    rw [List.flatMap_append, List.flatMap_singleton, next, ← List.append_assoc]
    refine List.perm_append_comm.trans ?_
    rw [List.append_assoc]
  refine ⟨ledger, ⟨linear.replayed, linear.capacity, ?_, linear.pool, ?_, ?_,
    linear.outside, ?_, ?_, ?_, linear.fresh⟩⟩
  · have moved : (hand.map Prod.fst ++ (host.pending ++ [ov])).Perm
        (ov :: hand.map Prod.fst ++ host.pending) := by
      rw [← List.append_assoc]
      exact List.perm_append_singleton ov _
    exact (moved.append_left _).trans linear.all
  · exact fun entry member => linear.inHand entry (List.mem_cons_of_mem _ member)
  · intro ov' member
    rcases List.mem_append.mp member with old | new
    · exact linear.pend ov' old
    · rw [List.mem_singleton.mp new]
      exact ⟨job, arena, next, top.1⟩
  · exact (arenas owned chainedArena).trans linear.owners
  · exact (arenas spare registrationArena).nodup_iff.mpr linear.spareOnce
  · intro other member
    exact linear.spared other ((arenas spare registrationArena).subset member)

/-- An operation of the provider ends: its object and what its job owns are in hand. -/
theorem claim (linear : LinearWith ledger spare owned hand host) (member : ov ∈ host.pending) :
    ∃ job arena, (host.overlaps ov).pNext = some (job, arena) ∧
      Host.Linear (registrationArena (some (job, arena)) ++ spare)
        (chainedArena (some (job, arena)) ++ owned) ((ov, .held job arena) :: hand)
        { host with pending := host.pending.erase ov } := by
  rcases linear.pend ov member with ⟨job, arena, next, phase⟩
  have split : host.pending.Perm (ov :: host.pending.erase ov) := List.perm_cons_erase member
  have arenas : ∀ {Owned : Type} (mine : List Owned) (owns : Option (AsyncJob × ℕ) → List Owned),
      ((owns (some (job, arena)) ++ mine) ++
        (host.pending.erase ov).flatMap fun ov => owns (host.overlaps ov).pNext).Perm
        (mine ++ host.pending.flatMap fun ov => owns (host.overlaps ov).pNext) := by
    intro Owned mine owns
    have whole := (split.flatMap_right fun ov => owns (host.overlaps ov).pNext).append_left mine
    rw [List.flatMap_cons, next, ← List.append_assoc] at whole
    exact (List.perm_append_comm.append_right _).trans whole.symm
  refine ⟨job, arena, next, ledger, ⟨linear.replayed, linear.capacity, ?_, linear.pool, ?_, ?_,
    linear.outside, ?_, ?_, ?_, linear.fresh⟩⟩
  · have moved : (ov :: hand.map Prod.fst ++ host.pending.erase ov).Perm
        (hand.map Prod.fst ++ host.pending) :=
      List.perm_middle.symm.trans (split.symm.append_left _)
    exact (moved.append_left _).trans linear.all
  · intro entry inHand
    rcases List.mem_cons.mp inHand with rfl | old
    · refine ⟨phase, by simp [next], ?_⟩
      rintro job' arena' same
      cases same
      exact next
    · exact linear.inHand entry old
  · exact fun ov' rest => linear.pend ov' (List.mem_of_mem_erase rest)
  · exact (arenas owned chainedArena).trans linear.owners
  · exact (arenas spare registrationArena).nodup_iff.mpr linear.spareOnce
  · intro other inHand
    exact linear.spared other ((arenas spare registrationArena).subset inHand)

/-- Data on an arena in hand is used. -/
theorem used (linear : LinearWith ledger spare owned hand host) (member : arena ∈ owned) :
    Host.Linear spare owned hand { host with events := host.events ++ [.used arena] } :=
  ⟨ledger, { linear with
    replayed := (ArenaLedger.replay_concat linear.replayed).trans
      (ArenaLedger.next_used (linear.live_of_owned member).1) }⟩

/-- An accept or a connect begins on a new arena. -/
theorem began (linear : LinearWith ledger spare owned hand host) :
    Host.Linear spare (host.arenas :: owned) hand { host with
      arenas := host.arenas + 1, events := host.events ++ [.began host.arenas] } := by
  have notLive : host.arenas ∉ ledger.live := fun live =>
    Nat.lt_irrefl _ (linear.fresh _ (.inl live))
  have notEnded : host.arenas ∉ ledger.ended := fun ended =>
    Nat.lt_irrefl _ (linear.fresh _ (.inr ended))
  refine ⟨_, { linear with
    replayed := (ArenaLedger.replay_concat linear.replayed).trans
      (ArenaLedger.next_began notLive notEnded)
    owners := linear.owners.cons _
    spared := ?_
    fresh := ?_ }⟩
  · intro arena member
    rcases linear.spared arena member with ⟨old, live, ended⟩
    refine ⟨Nat.lt_succ_of_lt old, ?_, ended⟩
    rw [List.mem_cons, not_or]
    exact ⟨Nat.ne_of_lt old, live⟩
  · intro arena member
    simp only [List.mem_cons, or_assoc] at member
    rcases member with rfl | old
    · exact Nat.lt_succ_self _
    · exact Nat.lt_succ_of_lt (linear.fresh arena old)

/-- Registrations begin on a new arena. -/
theorem newArena (linear : LinearWith ledger spare owned hand host) :
    Host.Linear (host.arenas :: spare) owned hand { host with arenas := host.arenas + 1 } := by
  refine ⟨ledger, { linear with
    spareOnce := ?_
    spared := ?_
    fresh := fun arena old => Nat.lt_succ_of_lt (linear.fresh arena old) }⟩
  · refine List.nodup_cons.mpr ⟨?_, linear.spareOnce⟩
    exact fun member => Nat.lt_irrefl _ (linear.spared _ member).1
  · intro arena member
    rcases List.mem_cons.mp member with rfl | old
    · exact ⟨Nat.lt_succ_self _, fun live => Nat.lt_irrefl _ (linear.fresh _ (.inl live)),
        fun ended => Nat.lt_irrefl _ (linear.fresh _ (.inr ended))⟩
    · rcases linear.spared arena old with ⟨low, live, ended⟩
      exact ⟨Nat.lt_succ_of_lt low, live, ended⟩

/-- The arena of an accept or a connect is retired. -/
theorem retire (linear : LinearWith ledger spare (arena :: owned) hand host) :
    Host.Linear spare owned hand { host with
      retired := host.retired ++ [arena], events := host.events ++ [.retired arena] } := by
  have live := linear.live_of_owned List.mem_cons_self
  refine ⟨_, { linear with
    replayed := (ArenaLedger.replay_concat linear.replayed).trans (ArenaLedger.next_retired live.2)
    owners := ?_
    spared := ?_
    fresh := ?_ }⟩
  · have rest := linear.owners.erase arena
    rwa [List.cons_append, List.erase_cons_head] at rest
  · intro other member
    rcases linear.spared other member with ⟨low, notLive, notEnded⟩
    refine ⟨low, fun still => notLive (List.mem_of_mem_erase still), ?_⟩
    rw [List.mem_cons, not_or]
    exact ⟨fun same => notLive (same ▸ live.1), notEnded⟩
  · intro other member
    rw [List.mem_cons] at member
    rcases member with still | rfl | old
    · exact linear.fresh other (.inl (List.mem_of_mem_erase still))
    · exact linear.fresh other (.inl live.1)
    · exact linear.fresh other (.inr old)

/-- The arena of registrations is retired. -/
theorem retireSpare (linear : LinearWith ledger (arena :: spare) owned hand host) :
    Host.Linear spare owned hand { host with
      retired := host.retired ++ [arena], events := host.events ++ [.retired arena] } := by
  rcases linear.spared arena List.mem_cons_self with ⟨low, notLive, notEnded⟩
  have once := List.nodup_cons.mp linear.spareOnce
  have same : ledger.live.erase arena = ledger.live := List.erase_of_not_mem notLive
  refine ⟨_, { linear with
    replayed := (ArenaLedger.replay_concat linear.replayed).trans
      (ArenaLedger.next_retired notEnded)
    owners := by rw [same]; exact linear.owners
    spareOnce := once.2
    spared := ?_
    fresh := ?_ }⟩
  · intro other member
    rcases linear.spared other (List.mem_cons_of_mem _ member) with ⟨low, notLive, notEnded⟩
    simp only [same]
    refine ⟨low, notLive, ?_⟩
    rw [List.mem_cons, not_or]
    exact ⟨fun equal => once.1 (equal ▸ member), notEnded⟩
  · intro other member
    simp only [same, List.mem_cons] at member
    rcases member with live | rfl | old
    · exact linear.fresh other (.inl live)
    · exact low
    · exact linear.fresh other (.inr old)

end LinearWith

end Hermes
