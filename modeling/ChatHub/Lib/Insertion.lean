import ChatHub.Lib.HashTableMap

namespace ChatHub

/-!
# Insertion into the hash table

What a single `hash_set` does to a table with room, what it does to a full
one, and how many slots its loop looks at.  The counter is the only thing
that the overflow guard reads, so the loop ends because the counter is exact.
The same guard stands before the search for the key, so a full table takes
no new value for a key that it holds.
-/

universe u

namespace HashMap

variable {cap : Nat} {Target : Type u}

/-! ## A table with room -/

/-- Two well-formed tables with room that differ in one slot, which belongs
to `key` alone, give the same answer for every other key. -/
private theorem hashGet_elsewhere {hm hm' : HashMap cap Target} (wf : hm.WellFormed)
    (wf' : hm'.WellFormed) (notFull : hm.size < cap) (notFull' : hm'.size < cap)
    {key other : Int} (different : other ≠ key) {target : Fin cap}
    (before : Not (hm.StoredAt other target)) (holds : hm'.StoredAt key target)
    (frame : forall slot, slot ≠ target -> hm'.hashTable slot = hm.hashTable slot) :
    Exists fun found => hm.hashGet other = .ok found ∧ hm'.hashGet other = .ok found := by
  by_cases stored : hm.Stored other
  · rcases stored with ⟨slot, node, atSlot, nodeKey⟩
    have slotNe : slot ≠ target := by
      intro same
      rw [same] at atSlot
      exact before ⟨node, atSlot, nodeKey⟩
    have atSlot' := (frame slot slotNe).trans atSlot
    rw [← nodeKey]
    exact ⟨node.value, wf.hashGet_of_node atSlot, wf'.hashGet_of_node atSlot'⟩
  · have absent' : Not (hm'.Stored other) := by
      rintro ⟨slot, node, atSlot, nodeKey⟩
      by_cases same : slot = target
      · rcases holds with ⟨held, atTarget, heldKey⟩
        rw [same, atTarget] at atSlot
        cases atSlot
        exact different (nodeKey.symm.trans heldKey)
      · rw [frame slot same] at atSlot
        exact stored ⟨slot, node, atSlot, nodeKey⟩
    exact ⟨none, hashGet_of_not_stored stored (wf.counted.size_lt_iff.mp notFull),
      hashGet_of_not_stored absent' (wf'.counted.size_lt_iff.mp notFull')⟩

/-- `hash_set` on a well-formed table with room keeps the probing structure,
binds the key, leaves the lookups of all other keys alone while there still
is room, and counts exactly the new keys. -/
theorem hashSet_keeps_structure {hm : HashMap cap Target} (wf : hm.WellFormed)
    (notFull : hm.size < cap) (key : Int) (value : Target) :
    Exists fun hm' => hm.hashSet key (some value) = .ok hm' ∧ hm'.WellFormed ∧
      hm'.hashGet key = .ok (some value) ∧
      (hm'.size < cap -> forall other, other ≠ key ->
        Exists fun found => hm.hashGet other = .ok found ∧ hm'.hashGet other = .ok found) ∧
      ((hm.Stored key ∧ hm'.size = hm.size) ∨
        (Not (hm.Stored key) ∧ hm'.size = hm.size + 1)) := by
  rcases wf.hashSet_spec notFull key (some value) with
    ⟨hm', target, ran, wf', atTarget, frame, only, growth⟩
  refine ⟨hm', ran, wf', wf'.hashGet_of_node atTarget, ?_, ?_⟩
  · intro notFull' other different
    have before : Not (hm.StoredAt other target) := by
      rintro ⟨node, held, nodeKey⟩
      rcases growth with ⟨⟨found, atSlot, foundKey⟩, _⟩ | ⟨empty, _⟩
      · rw [held] at atSlot
        cases atSlot
        exact different (nodeKey.symm.trans foundKey)
      · rw [held] at empty
        cases empty
    exact hashGet_elsewhere wf wf' notFull notFull' different before
      (storedAt_of_node atTarget) frame
  · rcases growth with ⟨stored, same⟩ | ⟨empty, grown⟩
    · exact Or.inl ⟨⟨target, stored⟩, same⟩
    · refine Or.inr ⟨?_, grown⟩
      rintro ⟨slot, stored⟩
      rw [only slot stored] at stored
      rcases stored with ⟨node, held, _⟩
      rw [empty] at held
      cases held

/-- `hash_set` with a non-negative key and any pointer. -/
def stepSet (hm : HashMap cap Target) (binding : Int × Option Target) :
    Option (HashMap cap Target) :=
  stepTable hm (.set binding.1 binding.2)

theorem WellFormed.stepSet {hm hm' : HashMap cap Target} (wf : hm.WellFormed)
    {binding : Int × Option Target} (taken : hm.stepSet binding = some hm') : hm'.WellFormed := by
  unfold HashMap.stepSet stepTable at taken
  split at taken
  · simp only at taken
    by_cases notFull : hm.size < cap
    · rcases wf.hashSet_spec notFull binding.1 binding.2 with ⟨next, _, ran, wfNext, _⟩
      rw [ran] at taken
      cases taken
      exact wfNext
    · rw [hashSet, if_pos (by omega)] at taken
      cases taken
      exact wf
  · cases taken

/-- Three keys with the last slot as their home: two of them are stored behind
the end, in the first slots. -/
def wrappedBindings : List (Int × Option Char) :=
  [(4, some 'a'), (9, some 'b'), (14, some 'c')]

/-- The key at the end of the path gets another value, or a fourth key is added
behind it. -/
theorem hashSet_keeps_structure_wrapped :
    Exists fun hm : HashMap 5 Char =>
      Run.after stepSet (hashInit 5 (by decide)) wrappedBindings = some hm ∧ hm.StoredAt 14 1 ∧
      (Exists fun hm' => hm.hashSet 14 (some 'd') = .ok hm' ∧ hm'.WellFormed ∧
        hm'.hashGet 14 = .ok (some 'd') ∧ hm'.hashGet 9 = .ok (some 'b') ∧ hm'.size = hm.size) ∧
      Exists fun hm' => hm.hashSet 19 (some 'e') = .ok hm' ∧ hm'.WellFormed ∧
        hm'.hashGet 19 = .ok (some 'e') ∧ hm'.hashGet 14 = .ok (some 'c') ∧
        hm'.size = hm.size + 1 := by
  have reached : Run.after stepSet (hashInit 5 (by decide)) wrappedBindings = some _ := rfl
  have wf := (Run.invariant (wellFormed_hashInit (by decide)) (fun _ _ _ wf taken => wf.stepSet taken)
    wrappedBindings).finish reached
  refine ⟨_, reached, ⟨_, rfl, rfl⟩, ?_, ?_⟩
  · rcases hashSet_keeps_structure wf (by decide) 14 'd' with ⟨hm', ran, wf', got, others, _⟩
    cases ran
    rcases others (by decide) 9 (by decide) with ⟨found, before, after⟩
    cases before
    exact ⟨_, rfl, wf', got, after, rfl⟩
  · rcases hashSet_keeps_structure wf (by decide) 19 'e' with ⟨hm', ran, wf', got, others, _⟩
    cases ran
    rcases others (by decide) 14 (by decide) with ⟨found, before, after⟩
    cases before
    exact ⟨_, rfl, wf', got, after, rfl⟩

/-! ## A full table -/

/-- A stored key takes the new value and the other stored keys keep theirs;
for a key that is not stored nothing happens. -/
def UpdatesOnly (hm : HashMap cap Target) (key : Int) (value : Option Target) : Prop :=
  Exists fun hm' => hm.hashSet key value = .ok hm' ∧
    (hm.Stored key -> hm'.hashGet key = .ok value ∧
      forall other, other ≠ key -> hm.Stored other -> hm'.hashGet other = hm.hashGet other) ∧
    (Not (hm.Stored key) -> hm' = hm)

/-- Whatever the table holds under this key is this value. -/
def HoldsOnly (hm : HashMap cap Target) (key : Int) (value : Option Target) : Prop :=
  forall slot node, hm.hashTable slot = some node -> node.key = key -> node.value = value

/-- A full table is not touched, so it does what an update asks for exactly
when there is nothing to change. -/
theorem WellFormed.updatesOnly_iff {hm : HashMap cap Target} (wf : hm.WellFormed)
    (full : hm.size = cap) (key : Int) (value : Option Target) :
    hm.UpdatesOnly key value <-> hm.HoldsOnly key value := by
  have untouched : hm.hashSet key value = .ok hm := by
    rw [hashSet, if_pos (by omega)]
  constructor
  · rintro ⟨hm', ran, updated, _⟩ slot node atSlot nodeKey
    rw [untouched] at ran
    cases ran
    have got := (updated ⟨slot, node, atSlot, nodeKey⟩).1
    rw [← nodeKey, wf.hashGet_of_node atSlot] at got
    exact Except.ok.inj got
  · intro holds
    refine ⟨hm, untouched, ?_, fun _ => rfl⟩
    rintro ⟨slot, node, atSlot, nodeKey⟩
    refine ⟨?_, fun _ _ _ => rfl⟩
    rw [← nodeKey, wf.hashGet_of_node atSlot, holds slot node atSlot nodeKey]

/-- In every full table that insertions lead to, an update or a new key is
handled as it should be exactly when the key is not bound to another value. -/
theorem full_updatesOnly_iff (capPos : 0 < cap) (bindings : List (Int × Option Target)) :
    Run.Always stepSet
      (fun hm => hm.size = cap -> forall key value, 0 ≤ key ->
        (hm.UpdatesOnly key value <-> hm.HoldsOnly key value))
      (hashInit cap capPos) bindings := by
  have wellFormed : Run.Always stepSet WellFormed (hashInit cap capPos) bindings :=
    Run.invariant (wellFormed_hashInit capPos) (fun _ _ _ wf taken => wf.stepSet taken) bindings
  exact wellFormed.mono (fun hm wf full key value _ => wf.updatesOnly_iff full key value)

theorem full_updatesOnly_iff_two :
    Run.Always stepSet
      (fun hm => hm.size = (2 : Nat) -> forall key value, 0 ≤ key ->
        (hm.UpdatesOnly key value <-> hm.HoldsOnly key value))
      (hashInit 2 (by decide)) [(1, some 'a'), (2, some 'c')] :=
  full_updatesOnly_iff (by decide) [(1, some 'a'), (2, some 'c')]

/-- Five keys in five slots; the sixth call would change the value of key 1. -/
def fiveBindings : List (Int × Option Char) :=
  [(1, some 'a'), (2, some 'c'), (3, some 'e'), (4, some 'e'), (5, some 'F')]

theorem full_update_ignored :
    Exists fun hm => Run.after stepSet (hashInit 5 (by decide)) fiveBindings = some hm ∧
      hm.size = (5 : Nat) ∧ hm.Stored 1 ∧ Not (hm.UpdatesOnly 1 (some 'b')) := by
  refine ⟨_, rfl, rfl, ⟨1, _, rfl, rfl⟩, ?_⟩
  rintro ⟨hm', ran, updated, _⟩
  cases ran
  have got := (updated ⟨1, _, rfl, rfl⟩).1
  cases (Except.ok.inj got : some 'a' = some 'b')

/-! ## The loop of an insertion, by index -/

/-- `if (h < cap - 1) h++; else h = 0;` -/
def advance (cap h : Nat) : Nat :=
  if h < cap - 1 then h + 1 else 0

/-- The indexes that the loop of `hash_set` reads from index `h` on, with the
one where it stops.  An index outside the array is an overread. -/
def inspectedFrom (hm : HashMap cap Target) (key : Int) : Nat -> Nat -> Except Fault (List Nat)
  | 0, _ => .error .endlessLoop
  | fuel + 1, h =>
      if inside : h < cap then
        if hm.stops key ⟨h, inside⟩ then .ok [h]
        else (hm.inspectedFrom key fuel (advance cap h)).map (fun later => h :: later)
      else .error .overread

/-- The indexes that `hash_set` reads, in this order; none in a full table. -/
def inspected (hm : HashMap cap Target) (key : Int) (fuel : Nat) : Except Fault (List Nat) :=
  if hm.size ≥ cap then .ok [] else hm.inspectedFrom key fuel (key.natAbs % cap)

/-- `hash_set` returns after reading at most `cap` slots, all of them in the
array, and changes only slots that it has read. -/
def InsertionEnds (hm : HashMap cap Target) (key : Int) (value : Option Target) : Prop :=
  Exists fun hm' => hm.hashSet key value = .ok hm' ∧
    Exists fun indexes => (forall fuel, cap ≤ fuel -> hm.inspected key fuel = .ok indexes) ∧
      indexes.length ≤ cap ∧ (forall h, h ∈ indexes -> h < cap) ∧
      forall slot : Fin cap, slot.val ∉ indexes -> hm'.hashTable slot = hm.hashTable slot

theorem advance_val (slot : Fin cap) : advance cap slot.val = (Circular.next slot).val := by
  have slotLt := slot.isLt
  unfold advance Circular.next
  split <;> split <;> simp only <;> omega

/-- A walk that stops within some number of slots reads that many indexes at
most, and more fuel changes nothing. -/
theorem inspectedFrom_of_walk (hm : HashMap cap Target) (key : Int) (steps : Nat)
    {start target : Fin cap}
    (stopped : Circular.walk (hm.stops key) steps start = some target) :
    Exists fun indexes =>
      (forall fuel, steps ≤ fuel -> hm.inspectedFrom key fuel start.val = .ok indexes) ∧
        indexes.length ≤ steps ∧ (forall h, h ∈ indexes -> h < cap) ∧ target.val ∈ indexes := by
  induction steps generalizing start with
  | zero => cases stopped
  | succ steps inductionHypothesis =>
      unfold Circular.walk at stopped
      split at stopped
      · next stops =>
          cases stopped
          refine ⟨[target.val], ?_, by simp, by simp, by simp⟩
          intro fuel enough
          cases fuel with
          | zero => omega
          | succ fuel => rw [inspectedFrom, dif_pos target.isLt, if_pos stops]
      · next goesOn =>
          rcases inductionHypothesis stopped with ⟨later, reads, short, inside, found⟩
          refine ⟨start.val :: later, ?_, ?_, ?_, List.mem_cons_of_mem _ found⟩
          · intro fuel enough
            cases fuel with
            | zero => omega
            | succ fuel =>
                rw [inspectedFrom, dif_pos start.isLt, if_neg goesOn, advance_val,
                  reads fuel (by omega)]
                rfl
          · rw [List.length_cons]
            omega
          · intro h member
            rcases List.mem_cons.mp member with same | member
            · rw [same]
              exact start.isLt
            · exact inside h member

/-- An exact counter is all that the loop needs: below the capacity it means
an empty slot, and the walk stops there at the latest. -/
theorem Counted.insertionEnds {hm : HashMap cap Target} (counted : hm.Counted) (key : Int)
    (value : Option Target) : hm.InsertionEnds key value := by
  by_cases full : hm.size ≥ cap
  · refine ⟨hm, by rw [HashMap.hashSet, if_pos full], [], ?_, Nat.zero_le cap, by simp, fun _ _ => rfl⟩
    intro fuel _
    rw [inspected, if_pos full]
  · have room := counted.size_lt_iff.mp (Int.lt_of_not_ge full)
    rcases Option.isSome_iff_exists.mp ((hm.probe_isSome_iff key).mpr (Or.inl room)) with
      ⟨target, probed⟩
    rcases hm.inspectedFrom_of_walk key cap probed with ⟨indexes, reads, short, inside, found⟩
    have ran : Exists fun hm' => hm.hashSet key value = .ok hm' := by
      rw [HashMap.hashSet, if_neg full, probed]
      cases atTarget : hm.hashTable target <;> simp [atTarget]
    rcases ran with ⟨hm', ran⟩
    refine ⟨hm', ran, indexes, ?_, short, inside, ?_⟩
    · intro fuel enough
      rw [inspected, if_neg full]
      exact reads fuel enough
    · intro slot notRead
      have slotNe : slot ≠ target := by
        intro same
        rw [same] at notRead
        exact notRead found
      rcases hashSet_cases ran with ⟨isFull, _⟩ | ⟨_, written, node, stopped, _, _, isNext⟩ |
        ⟨_, written, stopped, _, isNext⟩
      · exact absurd isFull full
      all_goals
        rw [probed] at stopped
        cases stopped
        rw [isNext]
        exact Function.update_of_ne slotNe _ _

/-- Whatever calls with non-negative keys have returned, the counter is exact
and every insertion ends. -/
theorem insertion_ends (capPos : 0 < cap) (calls : List (Call (Option Target))) :
    Run.Always stepTable
      (fun hm => hm.Counted ∧ 0 ≤ hm.size ∧ hm.size ≤ cap ∧
        forall key value, 0 ≤ key -> hm.InsertionEnds key value)
      (hashInit cap capPos) calls := by
  have counted : Run.Always stepTable Counted (hashInit cap capPos) calls :=
    Run.invariant (counted_hashInit capPos) (fun _ _ _ counted taken => counted.stepTable taken)
      calls
  refine counted.mono (fun hm counted => ?_)
  have bound := hm.occupied_card_le
  have exactly : hm.size = hm.occupied.card := counted
  exact ⟨counted, by omega, by omega, fun key value _ => counted.insertionEnds key value⟩

theorem insertion_ends_four :
    Run.Always stepTable
      (fun hm => hm.Counted ∧ 0 ≤ hm.size ∧ hm.size ≤ (4 : Nat) ∧
        forall key value, 0 ≤ key -> hm.InsertionEnds key value)
      (hashInit 4 (by decide)) [.set 3 (some 'a'), .set 7 (some 'b'), .delete 3, .set 7 none] :=
  insertion_ends (by decide) _

end HashMap
end ChatHub
