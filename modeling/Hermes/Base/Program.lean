import Mathlib.Logic.Basic

/-!
# Programs with a state that may stop

A `Program` reads and changes a state and either returns or stops.  `Ensures` is its
weakest precondition, with one postcondition for the return and one for the stops.
The rules follow the constructs programs are written with; a proof about a program
uses the rule of `bind` and, for each function called, the lemma about this function.
-/

namespace Hermes

universe u v

/-- A computation on a state that may stop. -/
abbrev Program (State Stop : Type u) (Result : Type u) : Type u :=
  StateT State (Except Stop) Result

namespace Program

variable {State Stop Result Next : Type u}

section Apply

variable {state : State}

@[simp]
theorem apply_pure (result : Result) :
    (pure result : Program State Stop Result) state = .ok (result, state) :=
  rfl

@[simp]
theorem apply_get : (get : Program State Stop State) state = .ok (state, state) :=
  rfl

@[simp]
theorem apply_set (after : State) :
    (set after : Program State Stop PUnit) state = .ok (⟨⟩, after) :=
  rfl

@[simp]
theorem apply_modify (change : State → State) :
    (modify change : Program State Stop PUnit) state = .ok (⟨⟩, change state) :=
  rfl

@[simp]
theorem apply_throw (stop : Stop) :
    (throw stop : Program State Stop Result) state = .error stop :=
  rfl

/-- After a program that returns, the next one goes on. -/
theorem apply_bind {program : Program State Stop Result} {next : Result → Program State Stop Next}
    {result : Result} {after : State} (returned : program state = .ok (result, after)) :
    (program >>= next) state = next result after := by
  simp only [bind, StateT.bind, returned, Except.bind]

/-- A sequence returns when both programs do. -/
theorem bind_eq_ok {program : Program State Stop Result}
    {next : Result → Program State Stop Next} {result : Next} {last : State} :
    (program >>= next) state = .ok (result, last) ↔
      ∃ middle after, program state = .ok (middle, after) ∧
        next middle after = .ok (result, last) := by
  simp only [bind, StateT.bind, Except.bind]
  cases program state with
  | error stop => simp
  | ok pair =>
      refine ⟨fun returned => ⟨pair.1, pair.2, rfl, returned⟩, ?_⟩
      rintro ⟨middle, after, same, returned⟩
      cases same
      exact returned

theorem apply_bind_error {program : Program State Stop Result}
    {next : Result → Program State Stop Next} {stop : Stop}
    (stopped : program state = .error stop) : (program >>= next) state = .error stop := by
  simp only [bind, StateT.bind, stopped, Except.bind]

end Apply

/-- From `state` the program returns with `post`, or stops with `fault`. -/
def Ensures (program : Program State Stop Result) (post : Result → State → Prop)
    (fault : Stop → Prop) (state : State) : Prop :=
  match program state with
  | .ok (result, after) => post result after
  | .error stop => fault stop

variable {program : Program State Stop Result} {post : Result → State → Prop}
  {fault : Stop → Prop} {state : State}

@[simp]
theorem ensures_pure {result : Result} :
    Ensures (pure result : Program State Stop Result) post fault state ↔ post result state :=
  Iff.rfl

@[simp]
theorem ensures_bind {next : Result → Program State Stop Next} {post : Next → State → Prop} :
    Ensures (program >>= next) post fault state ↔
      Ensures program (fun result after => Ensures (next result) post fault after) fault state := by
  simp only [Ensures, bind, StateT.bind, Except.bind]
  cases program state with
  | error stop => rfl
  | ok pair => rfl

@[simp]
theorem ensures_get {post : State → State → Prop} :
    Ensures (get : Program State Stop State) post fault state ↔ post state state :=
  Iff.rfl

@[simp]
theorem ensures_throw {stop : Stop} :
    Ensures (throw stop : Program State Stop Result) post fault state ↔ fault stop :=
  Iff.rfl

/-- The rule of consequence. -/
theorem Ensures.mono {post' : Result → State → Prop} {fault' : Stop → Prop}
    (ensures : Ensures program post fault state)
    (weaken : ∀ result after, post result after → post' result after)
    (weakenFault : ∀ stop, fault stop → fault' stop) :
    Ensures program post' fault' state := by
  unfold Ensures at ensures ⊢
  cases outcome : program state with
  | error stop =>
      rw [outcome] at ensures
      exact weakenFault stop ensures
  | ok pair =>
      rw [outcome] at ensures
      exact weaken pair.1 pair.2 ensures

/-- The rule of sequence: what the first program ensures lets the second one run. -/
theorem Ensures.bind {next : Result → Program State Stop Next} {post' : Next → State → Prop}
    (ensures : Ensures program post fault state)
    (continues : ∀ result after, post result after → Ensures (next result) post' fault after) :
    Ensures (program >>= next) post' fault state :=
  ensures_bind.mpr (ensures.mono continues fun _ stops => stops)

theorem Ensures.and {post' : Result → State → Prop} {fault' : Stop → Prop}
    (left : Ensures program post fault state) (right : Ensures program post' fault' state) :
    Ensures program (fun result after => post result after ∧ post' result after) fault state := by
  unfold Ensures at left right ⊢
  cases outcome : program state with
  | error stop =>
      rw [outcome] at left
      exact left
  | ok pair =>
      rw [outcome] at left right
      exact ⟨left, right⟩

/-- What holds after a program that returns. -/
theorem Ensures.of_eq {result : Result} {after : State}
    (returned : program state = .ok (result, after)) (holds : post result after) :
    Ensures program post fault state := by
  simp only [Ensures, returned]
  exact holds

/-- After a program that returns, the next one goes on. -/
theorem Ensures.step {next : Result → Program State Stop Next} {post : Next → State → Prop}
    {result : Result} {after : State} (returned : program state = .ok (result, after))
    (continues : Ensures (next result) post fault after) :
    Ensures (program >>= next) post fault state :=
  ensures_bind.mpr (.of_eq returned continues)

/-- Programs that do the same from two states ensure the same there. -/
theorem Ensures.congr {program' : Program State Stop Result} {state' : State}
    (ensures : Ensures program post fault state) (same : program' state' = program state) :
    Ensures program' post fault state' := by
  unfold Ensures at ensures ⊢
  rwa [same]

/-- What holds of a program's return. -/
theorem Ensures.of_ok {result : Result} {after : State} (ensures : Ensures program post fault state)
    (returned : program state = .ok (result, after)) : post result after := by
  simp only [Ensures, returned] at ensures
  exact ensures

/-- What holds of a program's stop. -/
theorem Ensures.of_error {stop : Stop} (ensures : Ensures program post fault state)
    (stopped : program state = .error stop) : fault stop := by
  simp only [Ensures, stopped] at ensures
  exact ensures

end Program

end Hermes
