import Hermes.Base.Machine
import Hermes.Base.Program
import Mathlib.Order.Defs.Unbundled

/-!
# What programs and runs move along

A preorder on states says how a state may develop.  A program advances along it when
the state it returns in is above the one it starts in and a fault it allows for is all
that stops it, and the preorder composes the parts of a program and the steps of a run.
-/

namespace Hermes

universe u v w

namespace Program

variable {State Stop Result Next : Type u} {relation : State → State → Prop}
  {fault : Stop → Prop} {state : State}

/-- From `state` the program only moves up, and only a fault stops it. -/
def AdvancesAt (relation : State → State → Prop) (fault : Stop → Prop) (state : State)
    (program : Program State Stop Result) : Prop :=
  Ensures program (fun _ after => relation state after) fault state

/-- The program only moves up, and only a fault stops it. -/
def Advances (relation : State → State → Prop) (fault : Stop → Prop)
    (program : Program State Stop Result) : Prop :=
  ∀ state, AdvancesAt relation fault state program

section Rules

variable {program : Program State Stop Result} {next : Result → Program State Stop Next}

theorem advances_pure [Std.Refl relation] (result : Result) :
    Advances relation fault (pure result : Program State Stop Result) :=
  fun state => refl_of relation state

theorem advances_throw {stop : Stop} (allowed : fault stop) :
    Advances relation fault (throw stop : Program State Stop Result) :=
  fun _ => allowed

theorem advances_modify {change : State → State}
    (moves : ∀ state, relation state (change state)) :
    Advances relation fault (modify change : Program State Stop PUnit) :=
  moves

theorem AdvancesAt.ensures (advances : AdvancesAt relation fault state program) :
    Ensures program (fun _ after => relation state after) fault state :=
  advances

/-- Where a program that only moves up returns. -/
theorem AdvancesAt.of_ok (advances : AdvancesAt relation fault state program) {result : Result}
    {after : State} (returned : program state = .ok (result, after)) : relation state after :=
  advances.ensures.of_ok returned

/-- What a program does after the state has moved already. -/
theorem AdvancesAt.after [IsTrans State relation] {before : State}
    (rest : AdvancesAt relation fault state program) (moved : relation before state) :
    Ensures program (fun _ last => relation before last) fault state :=
  rest.ensures.mono (fun _ _ more => trans_of relation moved more) fun _ stops => stops

theorem AdvancesAt.bind [IsTrans State relation]
    (first : AdvancesAt relation fault state program)
    (rest : ∀ result after, program state = .ok (result, after) →
      AdvancesAt relation fault after (next result)) :
    AdvancesAt relation fault state (program >>= next) := by
  cases outcome : program state with
  | error stop =>
      rw [AdvancesAt, Ensures, apply_bind_error outcome]
      exact first.ensures.of_error outcome
  | ok pair =>
      have moved : relation state pair.2 := first.of_ok outcome
      exact .step outcome ((rest pair.1 pair.2 outcome).after moved)

theorem Advances.bind [IsTrans State relation] (first : Advances relation fault program)
    (rest : ∀ result, Advances relation fault (next result)) :
    Advances relation fault (program >>= next) :=
  fun state => (first state).bind fun result after _ => rest result after

/-- The state is read. -/
theorem advances_get {next : State → Program State Stop Next}
    (rest : ∀ state, AdvancesAt relation fault state (next state)) :
    Advances relation fault ((get : Program State Stop State) >>= next) :=
  fun state => .step apply_get (rest state)

theorem advances_ite {condition : Prop} [Decidable condition]
    {program' : Program State Stop Result} (first : Advances relation fault program)
    (second : Advances relation fault program') :
    Advances relation fault (if condition then program else program') := by
  split
  · exact first
  · exact second

theorem AdvancesAt.mono {weaker : State → State → Prop} {fault' : Stop → Prop}
    (advances : AdvancesAt relation fault state program)
    (weaken : ∀ after, relation state after → weaker state after)
    (weakenFault : ∀ stop, fault stop → fault' stop) :
    AdvancesAt weaker fault' state program :=
  advances.ensures.mono (fun _ after moved => weaken after moved) weakenFault

end Rules

end Program

namespace Machine

variable {State : Type u} {Action : Type v} {Stop : Type w} {machine : Machine State Action Stop}
  {allowed : State → Action → Prop} {relation : State → State → Prop}

/-- A run moves up if every step from a state with the invariant does. -/
theorem Run.advances [Std.Refl relation] [IsTrans State relation] (invariant : State → Prop)
    (kept : ∀ {state action next}, invariant state → allowed state action →
      machine.step state action = .ok next → invariant next)
    (moves : ∀ {state action next}, invariant state → allowed state action →
      machine.step state action = .ok next → relation state next)
    {first last : State} (run : machine.Run allowed first last) (holds : invariant first) :
    relation first last := by
  induction run with
  | refl => exact refl_of relation first
  | tail before admitted stepped ih =>
      have here := before.preserves kept holds
      exact trans_of relation ih (moves here admitted stepped)

end Machine

end Hermes
