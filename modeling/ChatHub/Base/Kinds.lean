import ChatHub.Base.Redis

namespace ChatHub

/-!
# Key spaces with kinds

Redis fixes the type of a value when its key is first written and answers
commands of other types with an error.  A program that uses every key for one
kind of value never sees that error.  `kindOf` is such a use of the keys.  A
store follows it if every key is missing or holds its kind, and a command
does if it asks the key it writes for that kind.
-/

namespace Redis

/-- The kinds of values. -/
inductive Kind where
  | counter
  | hash
  | set
  deriving DecidableEq

/-- The key is missing or holds a value of the kind. -/
def HoldsKind (store : Store) (key : Bytes) : Kind -> Prop
  | .counter => (counterAt store key).isSome = true
  | .hash => (hashAt store key).isSome = true
  | .set => (setAt store key).isSome = true

/-- The key that a command writes and the kind of value that it needs there. -/
def needs : Command -> Option (Bytes × Kind)
  | .hmset key _ => some (key, .hash)
  | .hset key _ _ => some (key, .hash)
  | .incr key => some (key, .counter)
  | .sadd key _ => some (key, .set)
  | .srem key _ => some (key, .set)
  | _ => none

/-- Every key is missing or holds its kind of value. -/
def WellKinded (kindOf : Bytes -> Kind) (store : Store) : Prop :=
  forall key, HoldsKind store key (kindOf key)

/-- The command needs the kind that its key is used for. -/
def Respects (kindOf : Bytes -> Kind) (command : Command) : Prop :=
  forall key kind, needs command = some (key, kind) -> kindOf key = kind

theorem holdsKind_of_missing {store : Store} {key : Bytes} (missing : store.lookup key = none)
    (kind : Kind) : HoldsKind store key kind := by
  cases kind with
  | counter => simp only [HoldsKind, counterAt, missing, Option.isSome_some]
  | hash => simp only [HoldsKind, hashAt, missing, Option.isSome_some]
  | set => simp only [HoldsKind, setAt, missing, Option.isSome_some]

theorem holdsKind_congr {left right : Store} {key : Bytes} (same : left.lookup key = right.lookup key)
    (kind : Kind) : HoldsKind left key kind <-> HoldsKind right key kind := by
  cases kind with
  | counter => simp only [HoldsKind, counterAt, same]
  | hash => simp only [HoldsKind, hashAt, same]
  | set => simp only [HoldsKind, setAt, same]

/-- A counter is a number of 64 bits. -/
theorem counterAt_range {store : Store} {key : Bytes} {value : Int}
    (holds : counterAt store key = some value) : -2 ^ 63 ≤ value ∧ value < 2 ^ 63 := by
  unfold counterAt at holds
  split at holds
  · cases holds
    decide
  · next text _ =>
      unfold readCounter at holds
      split at holds
      · cases holds
        unfold atoll
        omega
      · cases holds
  · cases holds

/-- A command that finds the kind it needs leaves a value of that kind. -/
theorem exec_holdsKind {store : Store} {command : Command} {key : Bytes} {kind : Kind}
    (isNeeded : needs command = some (key, kind)) (holds : HoldsKind store key kind) :
    HoldsKind (exec store command).2 key kind := by
  cases command with
  | hmset other pairs =>
      cases isNeeded
      rcases Option.isSome_iff_exists.mp holds with ⟨fields, found⟩
      simp only [exec, found, HoldsKind, hashAt_insert, Option.isSome_some]
  | hset other field value =>
      cases isNeeded
      rcases Option.isSome_iff_exists.mp holds with ⟨fields, found⟩
      simp only [exec, found, HoldsKind, hashAt_insert, Option.isSome_some]
  | incr other =>
      cases isNeeded
      rcases Option.isSome_iff_exists.mp holds with ⟨value, found⟩
      have range := counterAt_range found
      simp only [exec, found]
      split
      · exact holds
      · next room =>
          simp only [HoldsKind]
          rw [counterAt_insert store key (by omega) (by omega)]
          rfl
  | sadd other members =>
      cases isNeeded
      rcases Option.isSome_iff_exists.mp holds with ⟨set, found⟩
      simp only [exec, found, HoldsKind, setAt_insert, Option.isSome_some]
  | srem other member =>
      cases isNeeded
      rcases Option.isSome_iff_exists.mp holds with ⟨set, found⟩
      simp only [exec, found]
      split
      · simp only
        split
        · exact holdsKind_of_missing (AList.lookup_erase _ _) .set
        · simp only [HoldsKind, setAt_insert, Option.isSome_some]
      · exact holds
  | _ => cases isNeeded

/-- A command writes the key that it needs, or it deletes a key. -/
theorem writes_cases {command : Command} {key : Bytes} (writes : Writes command key) :
    (Exists fun kind => needs command = some (key, kind)) ∨ command = .del key := by
  cases command with
  | hmset other pairs =>
      cases writes
      exact Or.inl ⟨.hash, rfl⟩
  | hset other field value =>
      cases writes
      exact Or.inl ⟨.hash, rfl⟩
  | incr other =>
      cases writes
      exact Or.inl ⟨.counter, rfl⟩
  | sadd other members =>
      cases writes
      exact Or.inl ⟨.set, rfl⟩
  | srem other member =>
      cases writes
      exact Or.inl ⟨.set, rfl⟩
  | del other =>
      cases writes
      exact Or.inr rfl
  | _ => exact False.elim writes

section Kinds

variable {kindOf : Bytes -> Kind} {store : Store} {command : Command}

theorem wellKinded_empty (kindOf : Bytes -> Kind) : WellKinded kindOf ∅ :=
  fun _ => holdsKind_of_missing rfl _

theorem WellKinded.exec (wellKinded : WellKinded kindOf store) (respects : Respects kindOf command) :
    WellKinded kindOf (exec store command).2 := by
  intro key
  by_cases writes : Writes command key
  · rcases writes_cases writes with ⟨kind, isNeeded⟩ | deletes
    · have isKind := respects key kind isNeeded
      have holds := wellKinded key
      rw [isKind] at holds ⊢
      exact exec_holdsKind isNeeded holds
    · subst deletes
      exact holdsKind_of_missing (AList.lookup_erase _ _) _
  · exact (holdsKind_congr (exec_frame store writes) _).mpr (wellKinded key)

/-- No writing command fails on such a store, but for a counter at the end of
its range. -/
theorem WellKinded.answers {key : Bytes} {kind : Kind} (wellKinded : WellKinded kindOf store)
    (respects : Respects kindOf command) (isNeeded : needs command = some (key, kind))
    (room : kind = .counter -> counterAt store key ≠ some (2 ^ 63 - 1)) :
    (Redis.exec store command).1.isError = false := by
  have holds := wellKinded key
  rw [respects key kind isNeeded] at holds
  cases command with
  | hmset other pairs =>
      cases isNeeded
      rcases Option.isSome_iff_exists.mp holds with ⟨fields, found⟩
      simp only [Redis.exec, found, Reply.isError]
  | hset other field value =>
      cases isNeeded
      rcases Option.isSome_iff_exists.mp holds with ⟨fields, found⟩
      simp only [Redis.exec, found, Reply.isError]
  | incr other =>
      cases isNeeded
      rcases Option.isSome_iff_exists.mp holds with ⟨value, found⟩
      have notLast : value ≠ 2 ^ 63 - 1 := by
        intro last
        rw [found, last] at room
        exact room rfl rfl
      simp only [Redis.exec, found, if_neg notLast, Reply.isError]
  | sadd other members =>
      cases isNeeded
      rcases Option.isSome_iff_exists.mp holds with ⟨set, found⟩
      simp only [Redis.exec, found, Reply.isError]
  | srem other member =>
      cases isNeeded
      rcases Option.isSome_iff_exists.mp holds with ⟨set, found⟩
      simp only [Redis.exec, found]
      split <;> rfl
  | _ => cases isNeeded

end Kinds

/-- Every key of the store is of a certain form. -/
def Within (form : Bytes -> Prop) (store : Store) : Prop :=
  forall key, (store.lookup key).isSome = true -> form key

theorem within_empty (form : Bytes -> Prop) : Within form ∅ :=
  fun _ found => nomatch found

/-- A command adds no key but the one it needs a value at. -/
theorem Within.exec {form : Bytes -> Prop} {store : Store} {command : Command}
    (within : Within form store)
    (formed : forall key kind, needs command = some (key, kind) -> form key) :
    Within form (exec store command).2 := by
  intro key found
  by_cases writes : Writes command key
  · rcases writes_cases writes with ⟨kind, isNeeded⟩ | deletes
    · exact formed key kind isNeeded
    · subst deletes
      change ((store.erase key).lookup key).isSome = true at found
      rw [AList.lookup_erase] at found
      cases found
  · rw [exec_frame store writes] at found
    exact within key found

end Redis
end ChatHub
