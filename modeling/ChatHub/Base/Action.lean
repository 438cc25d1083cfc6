import Mathlib.Init

namespace ChatHub

/-!
# Actions with faults

C code is embedded as an action on an explicit state.  An action either
returns a value or stops at a fault, and in both cases the state that it
leaves behind stays visible: what was written before a fault remains
written.  Faults are the events after which C gives the program no further
meaning, together with the loop that never ends.
-/

/-- The ways in which a piece of C code fails to return. -/
inductive Fault where
  /-- A loop whose exit condition can no longer become true. -/
  | endlessLoop
  /-- A null pointer is used where a string, an array or a reply is read. -/
  | nullPointer
  /-- More bytes are written into an array than it holds. -/
  | overflow
  /-- A string is read beyond the array it was stored in. -/
  | overread
  /-- Memory is used after it was freed. -/
  | useAfterFree
  /-- A number is converted to an integer type that cannot represent it. -/
  | conversion
  deriving DecidableEq, Repr

universe u v w

/-- Run on a state, giving a value or a fault and the state left behind. -/
def Action (State : Type u) (Value : Type v) : Type (max u v) :=
  State -> Except Fault Value × State

namespace Action

variable {State : Type u} {Value Result : Type v}

/-- Return a value without touching the state. -/
def done (value : Value) : Action State Value :=
  fun state => (.ok value, state)

/-- Stop at a fault. -/
def fail (fault : Fault) : Action State Value :=
  fun state => (.error fault, state)

/-- Run the second action on the value and the state of the first. -/
def next (first : Action State Value) (second : Value -> Action State Result) :
    Action State Result :=
  fun state =>
    match first state with
    | (.ok value, middle) => second value middle
    | (.error fault, middle) => (.error fault, middle)

instance : Monad (Action State) where
  pure := done
  bind := next

/-- Inspect the state. -/
def get : Action State State :=
  fun state => (.ok state, state)

/-- Embed a computation that has no state of its own. -/
def ofExcept (result : Except Fault Value) : Action State Value :=
  fun state => (result, state)

@[simp] theorem pure_apply (value : Value) (state : State) :
    (pure value : Action State Value) state = (.ok value, state) :=
  rfl

@[simp] theorem fail_apply (fault : Fault) (state : State) :
    (fail fault : Action State Value) state = (.error fault, state) :=
  rfl

theorem bind_apply (first : Action State Value) (second : Value -> Action State Result)
    (state : State) :
    (first >>= second) state =
      match first state with
      | (.ok value, middle) => second value middle
      | (.error fault, middle) => (.error fault, middle) :=
  rfl

theorem bind_of_ok {first : Action State Value} {second : Value -> Action State Result}
    {state middle : State} {value : Value} (ran : first state = (.ok value, middle)) :
    (first >>= second) state = second value middle := by
  rw [bind_apply, ran]

theorem bind_of_error {first : Action State Value} {second : Value -> Action State Result}
    {state middle : State} {fault : Fault} (ran : first state = (.error fault, middle)) :
    (first >>= second) state = (.error fault, middle) := by
  rw [bind_apply, ran]

theorem bind_ofExcept {result : Except Fault Value} {second : Value -> Action State Result}
    {value : Value} (computed : result = .ok value) (state : State) :
    (ofExcept result >>= second) state = second value state :=
  bind_of_ok (congrArg (fun answer => (answer, state)) computed)

/-- What returns has run its parts one after the other. -/
theorem ok_of_bind {first : Action State Value} {second : Value -> Action State Result}
    {state after : State} {result : Result} (ran : (first >>= second) state = (.ok result, after)) :
    Exists fun value => Exists fun middle =>
      first state = (.ok value, middle) ∧ second value middle = (.ok result, after) := by
  rw [bind_apply] at ran
  split at ran
  · next value middle ranFirst => exact ⟨value, middle, ranFirst, ran⟩
  · cases ran

/-- Whatever the action returns, it leaves the property of the state true. -/
def Keeps (property : State -> Prop) (action : Action State Value) : Prop :=
  forall state, property state -> property (action state).2

theorem keeps_pure (property : State -> Prop) (value : Value) :
    Keeps property (pure value : Action State Value) :=
  fun _ holds => holds

theorem keeps_fail (property : State -> Prop) (fault : Fault) :
    Keeps property (fail fault : Action State Value) :=
  fun _ holds => holds

/-- Every value that the action returns is of the kind described. -/
def Yields (kind : Value -> Prop) (action : Action State Value) : Prop :=
  forall state value after, action state = (.ok value, after) -> kind value

theorem yields_any (action : Action State Value) : Yields (fun _ => True) action :=
  fun _ _ _ _ => trivial

theorem yields_ite {kind : Value -> Prop} {condition : Prop} [Decidable condition]
    {left right : Action State Value} (yieldsLeft : Yields kind left) (yieldsRight : Yields kind right) :
    Yields kind (if condition then left else right) := by
  split
  · exact yieldsLeft
  · exact yieldsRight

theorem yields_pure {kind : Value -> Prop} {value : Value} (isKind : kind value) :
    Yields kind (pure value : Action State Value) := by
  intro state other after ran
  cases ran
  exact isKind

theorem yields_bind {middle : Value -> Prop} {kind : Result -> Prop} {first : Action State Value}
    {second : Value -> Action State Result} (yieldsFirst : Yields middle first)
    (yieldsSecond : forall value, middle value -> Yields kind (second value)) :
    Yields kind (first >>= second) := by
  intro state result after ran
  rw [bind_apply] at ran
  split at ran
  · next value between ranFirst =>
      exact yieldsSecond value (yieldsFirst state value between ranFirst) between result after ran
  · cases ran

/-- The second action has to keep the property only for the values that the
first one can return. -/
theorem keeps_bind_of_yields {property : State -> Prop} {kind : Value -> Prop}
    {first : Action State Value} {second : Value -> Action State Result}
    (keepsFirst : Keeps property first) (yields : Yields kind first)
    (keepsSecond : forall value, kind value -> Keeps property (second value)) :
    Keeps property (first >>= second) := by
  intro state holds
  have afterFirst := keepsFirst state holds
  rw [bind_apply]
  cases ran : first state with
  | mk result middle =>
      rw [ran] at afterFirst
      cases result with
      | ok value => exact keepsSecond value (yields state value middle ran) middle afterFirst
      | error fault => exact afterFirst

theorem keeps_bind {property : State -> Prop} {first : Action State Value}
    {second : Value -> Action State Result} (keepsFirst : Keeps property first)
    (keepsSecond : forall value, Keeps property (second value)) :
    Keeps property (first >>= second) :=
  keeps_bind_of_yields keepsFirst (yields_any first) (fun value _ => keepsSecond value)

end Action
end ChatHub
