import Mathlib.Data.List.Infix

namespace ChatHub

/-!
# Runs of a partial step function

A component is a state together with a step function that says, for every
event, the next state or that the event cannot happen there.  A run is a
list of events.  Besides the reached state, two predicates on runs are used
throughout: a property may hold of every state that the run reaches, and
every step that the run takes may meet a condition on the state before it.

`always_iff_guarded` connects the two.  An invariant that conditioned steps
preserve gives one direction.  The other direction needs only that a step
outside the condition lands in a state where the property is visibly false.
-/

namespace Run

universe u v

variable {State : Type u} {Event : Type v}

/-- The state that a list of events leads to, if all of them are possible. -/
def after (step : State -> Event -> Option State) (state : State) : List Event -> Option State
  | [] => some state
  | event :: rest =>
      match step state event with
      | none => none
      | some next => after step next rest

/-- The property holds of every state reached along the run. -/
def Always (step : State -> Event -> Option State) (property : State -> Prop)
    (state : State) : List Event -> Prop
  | [] => property state
  | event :: rest =>
      property state ∧
        forall next, step state event = some next -> Always step property next rest

/-- Every step that the run takes meets the condition in the state before it. -/
def Guarded (step : State -> Event -> Option State) (condition : State -> Event -> Prop)
    (state : State) : List Event -> Prop
  | [] => True
  | event :: rest =>
      forall next, step state event = some next ->
        condition state event ∧ Guarded step condition next rest

/-- A state is reachable when some run leads to it. -/
def Reachable (step : State -> Event -> Option State) (start state : State) : Prop :=
  Exists fun events => after step start events = some state

variable {step : State -> Event -> Option State}

theorem after_append (start : State) (front back : List Event) :
    after step start (front ++ back) =
      (after step start front).bind (fun middle => after step middle back) := by
  induction front generalizing start with
  | nil => rfl
  | cons event rest inductionHypothesis =>
      simp only [List.cons_append, after]
      cases step start event with
      | none => rfl
      | some next => exact inductionHypothesis next

/-- One event, as often as it stays possible. -/
theorem after_replicate {event : Event} {property : Nat -> State -> Prop} (count : Nat)
    (steps : forall index state, index < count -> property index state ->
      Exists fun next => step state event = some next ∧ property (index + 1) next)
    {start : State} (initially : property 0 start) :
    Exists fun finish => after step start (List.replicate count event) = some finish ∧
      property count finish := by
  induction count with
  | zero => exact ⟨start, rfl, initially⟩
  | succ count inductionHypothesis =>
      rcases inductionHypothesis (fun index state isLess => steps index state (by omega)) with
        ⟨middle, reached, holds⟩
      rcases steps count middle (by omega) holds with ⟨next, taken, holdsNext⟩
      refine ⟨next, ?_, holdsNext⟩
      rw [List.replicate_succ', after_append, reached]
      simp only [Option.bind_some, after, taken]

theorem Reachable.refl (start : State) : Reachable step start start :=
  ⟨[], rfl⟩

/-- Reachability is closed under one more step. -/
theorem Reachable.extend {start middle finish : State} {event : Event}
    (reached : Reachable step start middle) (taken : step middle event = some finish) :
    Reachable step start finish := by
  rcases reached with ⟨events, reached⟩
  refine ⟨events ++ [event], ?_⟩
  rw [after_append, reached]
  simp only [Option.bind_some, after, taken]

theorem always_cons {property : State -> Prop} {start next : State} {event : Event}
    {rest : List Event} (holds : property start) (taken : step start event = some next)
    (always : Always step property next rest) :
    Always step property start (event :: rest) := by
  refine ⟨holds, fun other takenOther => ?_⟩
  rw [taken] at takenOther
  cases takenOther
  exact always

theorem Always.start {property : State -> Prop} {start : State} {events : List Event}
    (always : Always step property start events) : property start := by
  cases events with
  | nil => exact always
  | cons event rest => exact always.1

theorem Always.mono {property weaker : State -> Prop} {start : State} {events : List Event}
    (implies : forall state, property state -> weaker state)
    (always : Always step property start events) : Always step weaker start events := by
  induction events generalizing start with
  | nil => exact implies start always
  | cons event rest inductionHypothesis =>
      exact ⟨implies start always.1, fun next taken => inductionHypothesis (always.2 next taken)⟩

/-- The last state of a run is one of the states it reaches. -/
theorem Always.finish {property : State -> Prop} {start finish : State} {events : List Event}
    (always : Always step property start events) (reached : after step start events = some finish) :
    property finish := by
  induction events generalizing start with
  | nil =>
      cases reached
      exact always
  | cons event rest inductionHypothesis =>
      cases taken : step start event with
      | none => simp only [after, taken, reduceCtorEq] at reached
      | some next =>
          simp only [after, taken] at reached
          exact inductionHypothesis (always.2 next taken) reached

/-- A property kept by every step holds of every reached state. -/
theorem invariant {property : State -> Prop} {start : State}
    (initially : property start)
    (keeps : forall state event next, property state -> step state event = some next ->
      property next) (events : List Event) : Always step property start events := by
  induction events generalizing start with
  | nil => exact initially
  | cons event rest inductionHypothesis =>
      exact ⟨initially, fun next taken =>
        inductionHypothesis (keeps start event next initially taken)⟩

theorem invariant_reachable {property : State -> Prop} {start state : State}
    (initially : property start)
    (keeps : forall state event next, property state -> step state event = some next ->
      property next) (reached : Reachable step start state) : property state := by
  rcases reached with ⟨events, leads⟩
  exact (invariant initially keeps events).finish leads

/-- A property kept by every conditioned step holds along a guarded run. -/
theorem invariant_guarded {property : State -> Prop} {condition : State -> Event -> Prop}
    {start : State} (initially : property start)
    (keeps : forall state event next, property state -> condition state event ->
      step state event = some next -> property next)
    {events : List Event} (guarded : Guarded step condition start events) :
    Always step property start events := by
  induction events generalizing start with
  | nil => exact initially
  | cons event rest inductionHypothesis =>
      refine ⟨initially, fun next taken => ?_⟩
      rcases guarded next taken with ⟨met, guardedRest⟩
      exact inductionHypothesis (keeps start event next initially met taken) guardedRest

/-- A condition implies another one at every step, if it keeps an invariant
under which it implies the other one. -/
theorem Guarded.mono {inv : State -> Prop} {condition weaker : State -> Event -> Prop}
    {start : State} (initially : inv start)
    (keeps : forall state event next, inv state -> condition state event ->
      step state event = some next -> inv next)
    (implies : forall state event, inv state -> condition state event -> weaker state event)
    {events : List Event} (guarded : Guarded step condition start events) :
    Guarded step weaker start events := by
  induction events generalizing start with
  | nil => exact trivial
  | cons event rest inductionHypothesis =>
      intro next taken
      rcases guarded next taken with ⟨met, guardedRest⟩
      exact ⟨implies start event initially met,
        inductionHypothesis (keeps start event next initially met taken) guardedRest⟩

/-- The property holds along a run exactly when the run is guarded, if
guarded steps keep an invariant that implies the property and an unguarded
step destroys the property.  `side` is what is assumed of every state. -/
theorem always_iff_guarded (inv side : State -> Prop) {property : State -> Prop}
    {condition : State -> Event -> Prop} {start : State} (initially : inv start)
    (sound : forall state, inv state -> side state -> property state)
    (keeps : forall state event next, inv state -> side state -> side next ->
      condition state event -> step state event = some next -> inv next)
    (breaks : forall state event next, inv state -> side state -> side next ->
      Not (condition state event) -> step state event = some next -> Not (property next))
    {events : List Event} (assumed : Always step side start events) :
    Always step property start events <-> Guarded step condition start events := by
  induction events generalizing start with
  | nil =>
      exact ⟨fun _ => trivial, fun _ => sound start initially assumed⟩
  | cons event rest inductionHypothesis =>
      constructor
      · intro always next taken
        have sideNext := (assumed.2 next taken).start
        have met : condition start event := by
          by_contra unmet
          exact breaks start event next initially assumed.1 sideNext unmet taken
            (always.2 next taken).start
        have invNext := keeps start event next initially assumed.1 sideNext met taken
        exact ⟨met, (inductionHypothesis invNext (assumed.2 next taken)).mp
          (always.2 next taken)⟩
      · intro guarded
        refine ⟨sound start initially assumed.1, fun next taken => ?_⟩
        rcases guarded next taken with ⟨met, guardedRest⟩
        have sideNext := (assumed.2 next taken).start
        have invNext := keeps start event next initially assumed.1 sideNext met taken
        exact (inductionHypothesis invNext (assumed.2 next taken)).mpr guardedRest

/-- A test passes at every step that the run takes. -/
def check (step : State -> Event -> Option State) (test : State -> Event -> Bool) (state : State) :
    List Event -> Bool
  | [] => true
  | event :: rest =>
      match step state event with
      | none => true
      | some next => test state event && check step test next rest

/-- A run is guarded if a test for the condition passes at every step.  The
test may be sound only in the states that an invariant describes. -/
theorem guarded_of_check {inv : State -> Prop} {condition : State -> Event -> Prop}
    {test : State -> Event -> Bool} {start : State} (initially : inv start)
    (keeps : forall state event next, inv state -> step state event = some next -> inv next)
    (sound : forall state event, inv state -> test state event = true -> condition state event)
    {events : List Event} (checked : check step test start events = true) :
    Guarded step condition start events := by
  induction events generalizing start with
  | nil => exact trivial
  | cons event rest inductionHypothesis =>
      intro next taken
      simp only [check, taken, Bool.and_eq_true] at checked
      exact ⟨sound start event initially checked.1,
        inductionHypothesis (keeps start event next initially taken) checked.2⟩

end Run
end ChatHub
