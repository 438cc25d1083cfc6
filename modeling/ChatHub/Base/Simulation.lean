import ChatHub.Base.Run

namespace ChatHub

/-!
# Simulation of runs

A component whose steps are partial is compared with a description of what it
is for, in which every action has a response.  In a state of the component, an
event is an action of the description, or the description does not see it.  If
every step that meets a condition keeps the two related, so does every run
whose steps all meet it.
-/

namespace Simulation

universe u v w x

variable {State : Type u} {Event : Type v} {Spec : Type w} {Action : Type x}

/-- The response to an action, if there is one. -/
def follow (respond : Spec -> Action -> Spec) (spec : Spec) : Option Action -> Spec
  | none => spec
  | some action => respond spec action

/-- The responses to a list of actions. -/
def responses (respond : Spec -> Action -> Spec) (spec : Spec) (actions : List Action) : Spec :=
  actions.foldl respond spec

/-- The actions that are seen along a run. -/
def seen (step : State -> Event -> Option State) (action : State -> Event -> Option Action)
    (state : State) : List Event -> List Action
  | [] => []
  | event :: rest =>
      match step state event with
      | none => []
      | some next => (action state event).toList ++ seen step action next rest

/-- A step that meets the condition keeps the two related. -/
def Simulates (step : State -> Event -> Option State) (condition : State -> Event -> Prop)
    (respond : Spec -> Action -> Spec) (action : State -> Event -> Option Action)
    (related : Spec -> State -> Prop) : Prop :=
  forall spec state event next, related spec state -> condition state event ->
    step state event = some next -> related (follow respond spec (action state event)) next

section Responses

variable {respond : Spec -> Action -> Spec}

theorem responses_append (spec : Spec) (front back : List Action) :
    responses respond spec (front ++ back) = responses respond (responses respond spec front) back :=
  List.foldl_append

theorem responses_toList (spec : Spec) (action : Option Action) :
    responses respond spec action.toList = follow respond spec action := by
  cases action <;> rfl

/-- What every response keeps holds after all of them. -/
theorem responses_invariant {property : Spec -> Prop}
    (keeps : forall spec action, property spec -> property (respond spec action)) {spec : Spec}
    (initially : property spec) (actions : List Action) :
    property (responses respond spec actions) := by
  induction actions generalizing spec with
  | nil => exact initially
  | cons action rest inductionHypothesis => exact inductionHypothesis (keeps spec action initially)

/-- If all that is kept of the actions is a list of them, this is what is seen. -/
theorem responses_log (log actions : List Action) :
    responses (fun log action => log ++ [action]) log actions = log ++ actions := by
  induction actions generalizing log with
  | nil => exact (List.append_nil log).symm
  | cons action rest inductionHypothesis =>
      change responses _ (log ++ [action]) rest = _
      rw [inductionHypothesis, List.append_assoc]
      rfl

end Responses

section Runs

variable {step : State -> Event -> Option State} {start finish : State} {events : List Event}

/-- What is seen of an event may be independent of the state. -/
theorem seen_eq_filterMap {action : Event -> Option Action}
    (reached : Run.after step start events = some finish) :
    seen step (fun _ => action) start events = events.filterMap action := by
  induction events generalizing start with
  | nil => rfl
  | cons event rest inductionHypothesis =>
      cases taken : step start event with
      | none => simp only [Run.after, taken, reduceCtorEq] at reached
      | some next =>
          simp only [Run.after, taken] at reached
          simp only [seen, taken, inductionHypothesis reached]
          cases isSeen : action event with
          | none => rw [List.filterMap_cons_none isSeen, Option.toList_none, List.nil_append]
          | some first => rw [List.filterMap_cons_some isSeen, Option.toList_some, List.singleton_append]

/-- After a run the component is related to the responses to what was seen of
the run. -/
theorem Simulates.run {condition : State -> Event -> Prop} {respond : Spec -> Action -> Spec}
    {action : State -> Event -> Option Action} {related : Spec -> State -> Prop}
    (simulates : Simulates step condition respond action related) {spec : Spec}
    (initially : related spec start) (guarded : Run.Guarded step condition start events)
    (reached : Run.after step start events = some finish) :
    related (responses respond spec (seen step action start events)) finish := by
  induction events generalizing spec start with
  | nil =>
      cases reached
      exact initially
  | cons event rest inductionHypothesis =>
      cases taken : step start event with
      | none => simp only [Run.after, taken, reduceCtorEq] at reached
      | some next =>
          rcases guarded next taken with ⟨met, guardedRest⟩
          simp only [Run.after, taken] at reached
          simp only [seen, taken]
          rw [responses_append, responses_toList]
          exact inductionHypothesis (simulates spec start event next initially met taken)
            guardedRest reached

end Runs

end Simulation
end ChatHub
