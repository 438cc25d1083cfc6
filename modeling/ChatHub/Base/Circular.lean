import Mathlib.Data.Fintype.Card
import Mathlib.Logic.Function.Iterate

namespace ChatHub

/-!
# Walks around a circular array

An open-addressing table is searched by walking its slots from a home slot,
wrapping at the end, until some stopping condition holds.  This module is
about such walks over an arbitrary Boolean stopping condition.  It fixes the
distance from one slot to another in walking order, says at which slot a
walk stops, and shows that a walk of `n` steps already decides whether the
unbounded loop stops at all: the loop runs forever exactly when no slot of
the array satisfies the condition.
-/

namespace Circular

variable {n : Nat}

/-- The slot after `slot`, with the last slot followed by slot zero. -/
def next (slot : Fin n) : Fin n :=
  if below : slot.val + 1 < n then ⟨slot.val + 1, below⟩
  else ⟨0, Nat.zero_lt_of_lt slot.isLt⟩

/-- How many times `next` leads from `start` to `slot`, counted below `n`. -/
def dist (start slot : Fin n) : Nat :=
  if start.val ≤ slot.val then slot.val - start.val
  else slot.val + n - start.val

theorem dist_lt (start slot : Fin n) : dist start slot < n := by
  have startLt := start.isLt
  have slotLt := slot.isLt
  unfold dist
  split <;> omega

@[simp] theorem dist_self (start : Fin n) : dist start start = 0 := by
  simp [dist]

theorem eq_of_dist_eq_zero {start slot : Fin n} (zero : dist start slot = 0) :
    slot = start := by
  have startLt := start.isLt
  apply Fin.ext
  unfold dist at zero
  split at zero <;> omega

/-- One step brings every slot other than the start one step closer. -/
theorem dist_next {start slot : Fin n} (different : slot ≠ start) :
    dist start slot = dist (next start) slot + 1 := by
  have startLt := start.isLt
  have slotLt := slot.isLt
  have valNe : slot.val ≠ start.val := fun same => different (Fin.ext same)
  unfold dist next
  split
  · split <;> split <;> simp only at * <;> omega
  · split <;> split <;> simp only at * <;> omega

/-- The slot left behind is the farthest one from its successor. -/
theorem dist_next_self (start : Fin n) : dist (next start) start = n - 1 := by
  have startLt := start.isLt
  unfold dist next
  split <;> split <;> simp only at * <;> omega

/-- Follow `next` until the condition holds, giving up after `fuel` slots. -/
def walk (stop : Fin n -> Bool) : Nat -> Fin n -> Option (Fin n)
  | 0, _ => none
  | fuel + 1, slot => if stop slot then some slot else walk stop fuel (next slot)

/-- A walk ends at a stopping slot that lies within reach and before which
no slot stops. -/
theorem walk_eq_some_iff (stop : Fin n -> Bool) (fuel : Nat) (bound : fuel ≤ n)
    (start slot : Fin n) :
    walk stop fuel start = some slot <->
      stop slot = true ∧ dist start slot < fuel ∧
        forall earlier, dist start earlier < dist start slot -> stop earlier = false := by
  induction fuel generalizing start with
  | zero => simp [walk]
  | succ fuel inductionHypothesis =>
      cases stopped : stop start with
      | true =>
          simp only [walk, stopped, if_true, Option.some.injEq]
          constructor
          · intro same
            subst same
            refine ⟨stopped, by simp, fun earlier closer => ?_⟩
            simp at closer
          · rintro ⟨_, _, first⟩
            by_contra different
            have positive : 0 < dist start slot :=
              Nat.pos_of_ne_zero (fun zero => different (eq_of_dist_eq_zero zero).symm)
            have := first start (by simpa using positive)
            rw [stopped] at this
            cases this
      | false =>
          simp only [walk, stopped, Bool.false_eq_true, if_false]
          rw [inductionHypothesis (Nat.le_of_succ_le bound) (next start)]
          constructor
          · rintro ⟨stops, near, first⟩
            have slotNe : slot ≠ start := by
              intro same
              rw [same, stopped] at stops
              cases stops
            have step := dist_next slotNe
            refine ⟨stops, by omega, fun earlier closer => ?_⟩
            by_cases same : earlier = start
            · rw [same]
              exact stopped
            · have earlierStep := dist_next same
              exact first earlier (by omega)
          · rintro ⟨stops, near, first⟩
            have slotNe : slot ≠ start := by
              intro same
              rw [same, stopped] at stops
              cases stops
            have step := dist_next slotNe
            refine ⟨stops, by omega, fun earlier closer => ?_⟩
            have earlierNe : earlier ≠ start := by
              intro same
              rw [same, dist_next_self] at closer
              omega
            have earlierStep := dist_next earlierNe
            exact first earlier (by omega)

/-- Enough fuel for one round is enough: a slot that stops is found. -/
theorem walk_isSome_of_stop (stop : Fin n -> Bool) (start : Fin n)
    {slot : Fin n} (stops : stop slot = true) : (walk stop n start).isSome := by
  classical
  let reachable := fun distance => Exists fun candidate : Fin n =>
    dist start candidate = distance ∧ stop candidate = true
  have found : Exists reachable := ⟨dist start slot, slot, rfl, stops⟩
  rcases Nat.find_spec found with ⟨first, atFirst, firstStops⟩
  have stopped : walk stop n start = some first := by
    rw [walk_eq_some_iff stop n (Nat.le_refl n)]
    refine ⟨firstStops, dist_lt start first, fun earlier closer => ?_⟩
    rw [atFirst] at closer
    have unmet := Nat.find_min found closer
    by_contra notFalse
    exact unmet ⟨earlier, rfl, Bool.eq_true_of_not_eq_false notFalse⟩
  rw [stopped]
  rfl

/-- A loop over an array without a stopping slot never ends. -/
theorem walk_eq_none_of_never {stop : Fin n -> Bool}
    (never : forall slot, stop slot = false) (fuel : Nat) (start : Fin n) :
    walk stop fuel start = none := by
  induction fuel generalizing start with
  | zero => rfl
  | succ fuel inductionHypothesis =>
      simp only [walk, never start, Bool.false_eq_true, if_false]
      exact inductionHypothesis (next start)

/-- One round decides the loop: it stops within some number of steps
exactly when it stops within `n` steps, and exactly when some slot stops. -/
theorem walk_terminates_iff (stop : Fin n -> Bool) (start : Fin n) :
    (Exists fun fuel => (walk stop fuel start).isSome) <->
      Exists fun slot => stop slot = true := by
  constructor
  · rintro ⟨fuel, ended⟩
    by_contra none
    have never : forall slot, stop slot = false :=
      fun slot => Bool.eq_false_iff.mpr (fun stops => none ⟨slot, stops⟩)
    rw [walk_eq_none_of_never never] at ended
    cases ended
  · rintro ⟨slot, stops⟩
    exact ⟨n, walk_isSome_of_stop stop start stops⟩

/-- A round without a stop means that no slot stops. -/
theorem walk_eq_none_iff (stop : Fin n -> Bool) (start : Fin n) :
    walk stop n start = none <-> forall slot, stop slot = false := by
  constructor
  · intro ended slot
    by_contra notFalse
    have found := walk_isSome_of_stop stop start (Bool.eq_true_of_not_eq_false notFalse)
    rw [ended] at found
    cases found
  · intro never
    exact walk_eq_none_of_never never n start

end Circular
end ChatHub
