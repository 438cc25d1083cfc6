import ChatHub.Lib.HashTableMap

namespace ChatHub

/-!
# The array that the hash table replaced

Before the hash table, the server kept its connections in an array indexed by
descriptor: `clients[fd] = bev` and `clients[fd] = NULL`.  For descriptors
below the capacity the table is that array.  Every key then lies in its home
slot, so no probe ever moves on, and a descriptor that is connected again is
found where it was.  This needs no room in the table: the slot of a new
descriptor is free even when it is the last one.
-/

namespace HashMap

universe u

variable {cap : Nat} {Target : Type u}

/-- A call on an array of `cap` pointers.  There is none beyond the array,
and none that connects a descriptor which is connected. -/
def callArray (clients : Fin cap -> Option Target) (c : Call Target) :
    Option (Option Target × (Fin cap -> Option Target)) :=
  if inRange : 0 ≤ c.key ∧ c.key < cap then
    let fd : Fin cap := ⟨c.key.toNat, by omega⟩
    match c with
    | .get _ => some (clients fd, clients)
    | .set _ bev =>
        if (clients fd).isNone then some (none, Function.update clients fd (some bev)) else none
    | .delete _ => some (clients fd, Function.update clients fd none)
  else none

/-- A call on the table and on the array. -/
def stepArray (pair : HashMap cap Target × (Fin cap -> Option Target)) (c : Call Target) :
    Option (HashMap cap Target × (Fin cap -> Option Target)) :=
  match callArray pair.2 c, pair.1.call c with
  | some (_, clients), .ok (_, hm) => some (hm, clients)
  | _, _ => none

/-- Whatever is called next, the call on the table ends and returns what the
array returns, and a table that is to store a pointer is not full. -/
def SameAnswers (pair : HashMap cap Target × (Fin cap -> Option Target)) : Prop :=
  forall c result clients, callArray pair.2 c = some (result, clients) ->
    (Exists fun hm => pair.1.call c = .ok (result, hm)) ∧
      forall key value, c = .set key value -> pair.1.size < cap

/-- The table holds the pointers of the array, each under its index in the
slot with that index. -/
structure Mirrors (hm : HashMap cap Target) (clients : Fin cap -> Option Target) : Prop where
  counted : hm.Counted
  slots : forall slot, hm.hashTable slot =
    (clients slot).map (fun bev => ⟨(slot.val : Int), some bev⟩)

theorem home_natCast (hm : HashMap cap Target) (slot : Fin cap) : hm.home (slot.val : Int) = slot := by
  apply Fin.ext
  change (slot.val : Int).natAbs % cap = slot.val
  rw [Int.natAbs_natCast, Nat.mod_eq_of_lt slot.isLt]

theorem mirrors_hashInit (capPos : 0 < cap) :
    (hashInit cap capPos : HashMap cap Target).Mirrors (fun _ => none) where
  counted := counted_hashInit capPos
  slots := fun _ => rfl

section Mirrors

variable {hm : HashMap cap Target} {clients : Fin cap -> Option Target}

/-- The home slot is empty or holds the key, so the probe stops there. -/
theorem Mirrors.probe (mirrors : hm.Mirrors clients) (slot : Fin cap) :
    hm.probe (slot.val : Int) cap = some slot := by
  rw [probe_eq_some_iff]
  constructor
  · have atSlot := mirrors.slots slot
    cases connected : clients slot with
    | none =>
        rw [connected] at atSlot
        exact Or.inl atSlot
    | some bev =>
        rw [connected] at atSlot
        exact Or.inr ⟨_, atSlot, rfl⟩
  · intro earlier closer
    have atHome : hm.depth (slot.val : Int) slot = 0 := by
      unfold depth
      rw [hm.home_natCast, Circular.dist_self]
    rw [atHome] at closer
    exact absurd closer (Nat.not_lt_zero _)

/-- Changing one slot of the table and the array alike. -/
theorem Mirrors.update (mirrors : hm.Mirrors clients) (slot : Fin cap) (pointer : Option Target)
    {hm' : HashMap cap Target} (counted : hm'.Counted)
    (changed : hm'.hashTable = Function.update hm.hashTable slot
      (pointer.map (fun bev => ⟨(slot.val : Int), some bev⟩))) :
    hm'.Mirrors (Function.update clients slot pointer) := by
  refine ⟨counted, fun other => ?_⟩
  rw [changed]
  by_cases same : other = slot
  · rw [same, Function.update_self, Function.update_self]
  · rw [Function.update_of_ne same, Function.update_of_ne same]
    exact mirrors.slots other

theorem Mirrors.hashGet (mirrors : hm.Mirrors clients) (slot : Fin cap) :
    hm.hashGet (slot.val : Int) = .ok (clients slot) := by
  have atSlot := mirrors.slots slot
  unfold HashMap.hashGet find
  rw [mirrors.probe slot]
  cases connected : clients slot with
  | none => simp only [atSlot, connected, Option.map_none]
  | some bev => simp only [atSlot, connected, Option.map_some]

theorem Mirrors.hashDelete (mirrors : hm.Mirrors clients) (slot : Fin cap) :
    Exists fun hm' => hm.hashDelete (slot.val : Int) = .ok (clients slot, hm') ∧
      hm'.Mirrors (Function.update clients slot none) := by
  have atSlot := mirrors.slots slot
  cases connected : clients slot with
  | none =>
      rw [connected] at atSlot
      have ran : hm.hashDelete (slot.val : Int) = .ok (none, hm) := by
        unfold HashMap.hashDelete
        rw [mirrors.probe slot]
        simp only [atSlot, Option.map_none]
      refine ⟨hm, ran, mirrors.update slot none mirrors.counted ?_⟩
      exact (Function.update_eq_self_iff.mpr atSlot.symm).symm
  | some bev =>
      rw [connected] at atSlot
      have ran : hm.hashDelete (slot.val : Int) = .ok (some bev, { hm with
          hashTable := Function.update hm.hashTable slot none, size := hm.size - 1 }) := by
        unfold HashMap.hashDelete
        rw [mirrors.probe slot]
        simp only [atSlot, Option.map_some]
      exact ⟨_, ran, mirrors.update slot none (mirrors.counted.hashDelete ran) rfl⟩

/-- A free slot means that the table is not full. -/
theorem Mirrors.size_lt (mirrors : hm.Mirrors clients) {slot : Fin cap}
    (free : clients slot = none) : hm.size < cap := by
  rw [mirrors.counted.size_lt_iff]
  refine ⟨slot, ?_⟩
  rw [mirrors.slots slot, free, Option.map_none]

theorem Mirrors.hashSet (mirrors : hm.Mirrors clients) {slot : Fin cap}
    (free : clients slot = none) (bev : Target) :
    Exists fun hm' => hm.hashSet (slot.val : Int) (some bev) = .ok hm' ∧
      hm'.Mirrors (Function.update clients slot (some bev)) := by
  have empty := mirrors.slots slot
  rw [free] at empty
  have notFull : Not (hm.size ≥ cap) := not_le.mpr (mirrors.size_lt free)
  have ran : hm.hashSet (slot.val : Int) (some bev) = .ok { hm with
      hashTable := Function.update hm.hashTable slot (some ⟨(slot.val : Int), some bev⟩)
      size := hm.size + 1 } := by
    unfold HashMap.hashSet
    rw [if_neg notFull, mirrors.probe slot]
    simp only [empty, Option.map_none]
  exact ⟨_, ran, mirrors.update slot (some bev) (mirrors.counted.hashSet ran) rfl⟩

/-- The call on the table ends with the array's result, and the table goes on
to mirror the array. -/
theorem Mirrors.call (mirrors : hm.Mirrors clients) {c : Call Target} {result : Option Target}
    {clients' : Fin cap -> Option Target} (called : callArray clients c = some (result, clients')) :
    Exists fun hm' => hm.call c = .ok (result, hm') ∧ hm'.Mirrors clients' ∧
      forall key value, c = .set key value -> hm.size < cap := by
  unfold callArray at called
  split at called
  · next inRange =>
      generalize same : (⟨c.key.toNat, by omega⟩ : Fin cap) = slot at called
      have isKey : c.key = (slot.val : Int) := by
        rw [← same]
        exact (Int.toNat_of_nonneg inRange.1).symm
      cases c with
      | get key =>
          have isIndex : key = (slot.val : Int) := isKey
          cases called
          refine ⟨hm, ?_, mirrors, fun _ _ impossible => by cases impossible⟩
          rw [isIndex]
          simp only [HashMap.call, mirrors.hashGet slot]
      | set key bev =>
          have isIndex : key = (slot.val : Int) := isKey
          simp only [Option.ite_none_right_eq_some, Option.isNone_iff_eq_none,
            Option.some.injEq, Prod.mk.injEq] at called
          rcases called with ⟨free, isNone, isUpdate⟩
          rcases mirrors.hashSet free bev with ⟨hm', ran, mirrors'⟩
          refine ⟨hm', ?_, isUpdate ▸ mirrors', fun _ _ _ => mirrors.size_lt free⟩
          rw [isIndex, ← isNone]
          simp only [HashMap.call, ran]
      | delete key =>
          have isIndex : key = (slot.val : Int) := isKey
          cases called
          rcases mirrors.hashDelete slot with ⟨hm', ran, mirrors'⟩
          refine ⟨hm', ?_, mirrors', fun _ _ impossible => by cases impossible⟩
          rw [isIndex]
          exact ran
  · cases called

end Mirrors

/-- Along every run of calls on descriptors below the capacity that connects
only what is not connected, the table answers as the array does.  No call
runs forever and no pointer is refused, also when the array is full. -/
theorem same_answers_as_array (capPos : 0 < cap) (calls : List (Call Target)) :
    Run.Always stepArray SameAnswers (hashInit cap capPos, fun _ => none) calls := by
  have mirrored := @Run.invariant _ _ stepArray
    (fun pair : HashMap cap Target × (Fin cap -> Option Target) => pair.1.Mirrors pair.2)
    (hashInit cap capPos, fun _ => none) (mirrors_hashInit capPos) (by
      intro pair c next mirrors taken
      unfold stepArray at taken
      cases called : callArray pair.2 c with
      | none => simp only [called, reduceCtorEq] at taken
      | some outcome =>
          rcases mirrors.call called with ⟨hm', ran, mirrors', _⟩
          simp only [called, ran, Option.some.injEq] at taken
          rw [← taken]
          exact mirrors') calls
  refine mirrored.mono ?_
  intro pair mirrors c result clients called
  rcases mirrors.call called with ⟨hm', ran, _, notFull⟩
  exact ⟨⟨hm', ran⟩, notFull⟩

/-- Both descriptors of a table of two slots are connected, and one of them
is connected again. -/
def fullArrayCalls : List (Call Nat) :=
  [.set 1 10, .set 0 20, .get 1, .delete 1, .set 1 30]

theorem same_answers_at_fullArrayCalls :
    Run.Always stepArray SameAnswers
      ((hashInit 2 (by decide), fun _ => none) : HashMap 2 Nat × (Fin 2 -> Option Nat))
      fullArrayCalls :=
  same_answers_as_array (by decide) fullArrayCalls

end HashMap
end ChatHub
