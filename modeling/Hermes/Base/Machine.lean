import Mathlib.Data.Nat.Notation
import Mathlib.Logic.Basic

/-!
# Transition systems with fallible steps

A `Machine` has start states and a deterministic step function from a state and
an action to a new state or to an error.  All nondeterminism of the environment
is in the choice of actions.  `Run` chains the steps that do not fail,
`Reachable` starts such a chain at a start state, and the two induction rules
`Run.preserves` and `Reachable.invariant` turn a fact about one step into a fact
about whole runs.
-/

namespace Hermes

universe u v w

/-- A transition system whose step may stop with an error. -/
structure Machine (State : Type u) (Action : Type v) (Stop : Type w) where
  start : State → Prop
  step : State → Action → Except Stop State

namespace Machine

variable {State : Type u} {Action : Type v} {Stop : Type w}

/-- Finite runs all of whose steps succeed and are admitted by `allowed`. -/
inductive Run (machine : Machine State Action Stop) (allowed : State → Action → Prop) :
    State → State → Prop where
  | refl (state : State) : Run machine allowed state state
  | tail {first middle last : State} {action : Action}
      (run : Run machine allowed first middle) (admitted : allowed middle action)
      (stepped : machine.step middle action = .ok last) : Run machine allowed first last

/-- States at the end of an admitted run from a start state. -/
def Reachable (machine : Machine State Action Stop) (allowed : State → Action → Prop)
    (state : State) : Prop :=
  ∃ first, machine.start first ∧ machine.Run allowed first state

variable {machine : Machine State Action Stop} {allowed : State → Action → Prop}

theorem Run.trans {first middle last : State} (left : machine.Run allowed first middle)
    (right : machine.Run allowed middle last) : machine.Run allowed first last := by
  induction right with
  | refl => exact left
  | tail _ admitted stepped ih => exact ih.tail admitted stepped

theorem Run.single {first last : State} {action : Action} (admitted : allowed first action)
    (stepped : machine.step first action = .ok last) : machine.Run allowed first last :=
  (Run.refl first).tail admitted stepped

/-- What every admitted step keeps, every admitted run keeps. -/
theorem Run.preserves {invariant : State → Prop}
    (kept : ∀ {state action next}, invariant state → allowed state action →
      machine.step state action = .ok next → invariant next)
    {first last : State} (run : machine.Run allowed first last) (holds : invariant first) :
    invariant last := by
  induction run with
  | refl => exact holds
  | tail _ admitted stepped ih => exact kept ih admitted stepped

theorem Run.mono {weaker : State → Action → Prop}
    (weaken : ∀ {state action}, allowed state action → weaker state action)
    {first last : State} (run : machine.Run allowed first last) :
    machine.Run weaker first last := by
  induction run with
  | refl => exact Run.refl _
  | tail _ admitted stepped ih => exact ih.tail (weaken admitted) stepped

theorem Reachable.of_start {state : State} (started : machine.start state) :
    machine.Reachable allowed state :=
  ⟨state, started, Run.refl state⟩

theorem Reachable.tail {state next : State} {action : Action}
    (reachable : machine.Reachable allowed state) (admitted : allowed state action)
    (stepped : machine.step state action = .ok next) : machine.Reachable allowed next := by
  rcases reachable with ⟨first, started, run⟩
  exact ⟨first, started, run.tail admitted stepped⟩

theorem Reachable.trans {state next : State} (reachable : machine.Reachable allowed state)
    (run : machine.Run allowed state next) : machine.Reachable allowed next := by
  rcases reachable with ⟨first, started, before⟩
  exact ⟨first, started, before.trans run⟩

theorem Reachable.mono {weaker : State → Action → Prop}
    (weaken : ∀ {state action}, allowed state action → weaker state action) {state : State}
    (reachable : machine.Reachable allowed state) : machine.Reachable weaker state := by
  rcases reachable with ⟨first, started, run⟩
  exact ⟨first, started, run.mono weaken⟩

/-- An invariant of the start states that every admitted step keeps holds of every
reachable state. -/
theorem Reachable.invariant (invariant : State → Prop)
    (initial : ∀ {state}, machine.start state → invariant state)
    (kept : ∀ {state action next}, invariant state → allowed state action →
      machine.step state action = .ok next → invariant next)
    {state : State} (reachable : machine.Reachable allowed state) : invariant state := by
  rcases reachable with ⟨first, started, run⟩
  exact run.preserves kept (initial started)

section Ends

variable {final : State → Prop}

end Ends

section Execute

/-- The state after a list of actions. -/
def execute (machine : Machine State Action Stop) : State → List Action → Except Stop State
  | state, [] => .ok state
  | state, action :: actions =>
      match machine.step state action with
      | .ok next => machine.execute next actions
      | .error stop => .error stop

theorem Run.of_execute {actions : List Action} {first last : State}
    (admitted : ∀ state, ∀ action ∈ actions, allowed state action)
    (executed : machine.execute first actions = .ok last) : machine.Run allowed first last := by
  induction actions generalizing first with
  | nil =>
      cases executed
      exact .refl _
  | cons action actions ih =>
      rw [execute] at executed
      cases stepped : machine.step first action with
      | error stop =>
          rw [stepped] at executed
          cases executed
      | ok next =>
          rw [stepped] at executed
          have here := admitted first action List.mem_cons_self
          refine (Run.single here stepped).trans (ih ?_ executed)
          exact fun state action member => admitted state action (List.mem_cons_of_mem _ member)

/-- A test that succeeds at the end of a list of actions names a reachable state. -/
theorem Reachable.of_execute {actions : List Action} {first : State} {test : State → Bool}
    (started : machine.start first)
    (admitted : ∀ state, ∀ action ∈ actions, allowed state action)
    (passes : (machine.execute first actions).toOption.any test = true) :
    ∃ last, machine.Reachable allowed last ∧ test last = true := by
  cases executed : machine.execute first actions with
  | error stop =>
      rw [executed] at passes
      cases passes
  | ok last =>
      rw [executed] at passes
      exact ⟨last, ⟨first, started, .of_execute admitted executed⟩, passes⟩

/-- The machine that stops at an action that fails a check. -/
def guarded (machine : Machine State Action Stop) (check : State → Action → Bool) (stop : Stop) :
    Machine State Action Stop where
  start := machine.start
  step state action := if check state action then machine.step state action else .error stop

/-- Steps that pass the check are admitted steps of the machine. -/
theorem Run.of_guarded {check : State → Action → Bool} {stop : Stop}
    (checked : ∀ state action, check state action = true → allowed state action)
    {every : State → Action → Prop} {first last : State}
    (run : (machine.guarded check stop).Run every first last) : machine.Run allowed first last := by
  induction run with
  | refl => exact .refl _
  | @tail middle last action _ _ stepped ih =>
      dsimp only [guarded] at stepped
      split at stepped
      case isTrue passes => exact ih.tail (checked _ _ passes) stepped
      case isFalse => cases stepped

/-- A test that succeeds at the end of a list of checked actions names the end of a run. -/
theorem Run.of_checked {check : State → Action → Bool} {stop : Stop} {actions : List Action}
    {first : State} {test : State → Bool}
    (checked : ∀ state action, check state action = true → allowed state action)
    (passes : ((machine.guarded check stop).execute first actions).toOption.any test = true) :
    ∃ last, machine.Run allowed first last ∧ test last = true := by
  cases executed : (machine.guarded check stop).execute first actions with
  | error stop =>
      rw [executed] at passes
      cases passes
  | ok last =>
      rw [executed] at passes
      have every : (machine.guarded check stop).Run (fun _ _ => True) first last :=
        .of_execute (fun _ _ _ => trivial) executed
      exact ⟨last, every.of_guarded checked, passes⟩

end Execute

section Logged

variable {Event : Type*} {event : State → Action → List Event}

/-- The machine with a log of what its steps show. -/
def logged (machine : Machine State Action Stop) (event : State → Action → List Event) :
    Machine (State × List Event) Action Stop where
  start logged := machine.start logged.1 ∧ logged.2 = []
  step logged action := (machine.step logged.1 action).map fun next =>
    (next, logged.2 ++ event logged.1 action)

theorem logged_step {before after : State × List Event} {action : Action} :
    (machine.logged event).step before action = .ok after ↔
      machine.step before.1 action = .ok after.1 ∧ after.2 = before.2 ++ event before.1 action := by
  cases stepped : machine.step before.1 action with
  | error reason => simp [logged, stepped, Except.map]
  | ok next =>
      simp only [logged, stepped, Except.map, Except.ok.injEq]
      rw [Prod.ext_iff, eq_comm, @eq_comm _ (_ ++ _)]

/-- A log changes nothing about the runs. -/
theorem Reachable.unlogged {state : State × List Event}
    (reachable : (machine.logged event).Reachable (fun state => allowed state.1) state) :
    machine.Reachable allowed state.1 := by
  rcases reachable with ⟨first, started, run⟩
  induction run with
  | refl => exact .of_start started.1
  | tail _ admitted stepped ih => exact ih.tail admitted (logged_step.mp stepped).1

/-- Every run has a log. -/
theorem Run.logged {first last : State} (run : machine.Run allowed first last) (log : List Event) :
    ∃ more, (machine.logged event).Run (fun state => allowed state.1) (first, log)
      (last, more) := by
  induction run with
  | refl => exact ⟨log, .refl _⟩
  | @tail middle last action _ admitted stepped ih =>
      rcases ih with ⟨more, run⟩
      have next : (machine.logged event).step (middle, more) action =
          .ok (last, more ++ event middle action) := logged_step.mpr ⟨stepped, rfl⟩
      exact ⟨_, run.tail admitted next⟩

end Logged

end Machine

end Hermes
