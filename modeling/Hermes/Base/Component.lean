import Hermes.Base.Machine

/-!
# Parts of a system

A part of a system has a machine of its own.  Seen from the system it is not always
there: it begins in one of its start states, then each step of the system leaves it
alone or is a step of its machine, and at last it ends.  What holds of every reachable
state of the part's machine then holds of the part in every reachable state of the
system.
-/

namespace Hermes

universe u v w

namespace Machine

variable {State Part : Type u} {Action PartAction : Type v} {Stop PartStop : Type w}

/-- What a step of the system does to one of its parts. -/
inductive PartStep (part : Machine Part PartAction PartStop)
    (partAllowed : Part → PartAction → Prop) : Option Part → Option Part → Prop where
  | rests (now : Option Part) : PartStep part partAllowed now now
  | begins {first : Part} (started : part.start first) :
      PartStep part partAllowed none (some first)
  | goes {now next : Part} {action : PartAction} (admitted : partAllowed now action)
      (stepped : part.step now action = .ok next) :
      PartStep part partAllowed (some now) (some next)
  | ends (last : Part) : PartStep part partAllowed (some last) none

variable {part : Machine Part PartAction PartStop} {partAllowed : Part → PartAction → Prop}
  {before after : Option Part}

theorem PartStep.reachable (moved : part.PartStep partAllowed before after)
    (holds : ∀ state, before = some state → part.Reachable partAllowed state) :
    ∀ state, after = some state → part.Reachable partAllowed state := by
  intro state present
  cases moved with
  | rests => exact holds state present
  | begins started =>
      cases present
      exact .of_start started
  | goes admitted stepped =>
      cases present
      exact (holds _ rfl).tail admitted stepped
  | ends => cases present

variable {machine : Machine State Action Stop} {allowed : State → Action → Prop}

/-- A part that begins in a run is in a reachable state of its machine. -/
theorem Run.reachable_part {view : State → Option Part} (invariant : State → Prop)
    (kept : ∀ {state action next}, invariant state → allowed state action →
      machine.step state action = .ok next → invariant next)
    (moves : ∀ {state action next}, invariant state → allowed state action →
      machine.step state action = .ok next →
        part.PartStep partAllowed (view state) (view next))
    {first last : State} (run : machine.Run allowed first last) (initial : invariant first)
    (absent : view first = none) {now : Part} (present : view last = some now) :
    part.Reachable partAllowed now := by
  have begun : invariant first ∧ ∀ now, view first = some now → part.Reachable partAllowed now := by
    refine ⟨initial, ?_⟩
    simp [absent]
  have holds : invariant last ∧ ∀ now, view last = some now → part.Reachable partAllowed now := by
    refine @Run.preserves _ _ _ _ _ (fun state => invariant state ∧
      ∀ now, view state = some now → part.Reachable partAllowed now) ?_ _ _ run begun
    rintro state action next ⟨holds, before⟩ admitted stepped
    exact ⟨kept holds admitted stepped, (moves holds admitted stepped).reachable before⟩
  exact holds.2 now present

/-- A part that is there is in a reachable state of its machine. -/
theorem Reachable.reachable_part {view : State → Option Part} (invariant : State → Prop)
    (initial : ∀ {state}, machine.start state → invariant state ∧ view state = none)
    (kept : ∀ {state action next}, invariant state → allowed state action →
      machine.step state action = .ok next → invariant next)
    (moves : ∀ {state action next}, invariant state → allowed state action →
      machine.step state action = .ok next →
        part.PartStep partAllowed (view state) (view next))
    {state : State} (reachable : machine.Reachable allowed state) {now : Part}
    (present : view state = some now) : part.Reachable partAllowed now := by
  rcases reachable with ⟨first, started, run⟩
  exact run.reachable_part invariant kept moves (initial started).1 (initial started).2 present

end Machine

end Hermes
