import Mathlib.Data.Finmap
import ChatHub.Base.Run
import ChatHub.Lib.HashTable

namespace ChatHub

/-!
# The hash table as a finite map

The abstract meaning of a table is a finite map from keys to non-null
pointers.  Insertion and update keep the probing structure of
`HashMap.WellFormed` without exception.  Deletion empties one slot and moves
nothing, so it keeps the structure exactly when no other key was probed past
that slot.  The two facts together say for which runs of calls the table and
the finite map cannot be told apart.
-/

universe u

namespace HashMap

variable {cap : Nat} {Target : Type u}

/-! ## Lookups in a well-formed table -/

/-- In a well-formed table the loop for a stored key ends at its slot. -/
theorem WellFormed.probe_of_stored {hm : HashMap cap Target} (wf : hm.WellFormed)
    {key : Int} {slot : Fin cap} (stored : hm.StoredAt key slot) :
    hm.probe key cap = some slot := by
  rw [probe_eq_some_iff]
  refine ⟨Or.inr stored, fun earlier closer => ⟨wf.noGap key slot stored earlier closer, ?_⟩⟩
  intro storedEarlier
  rw [wf.distinct key earlier slot storedEarlier stored] at closer
  exact Nat.lt_irrefl _ closer

/-- If the loop ends at an empty slot of a well-formed table, the key is
stored nowhere. -/
theorem WellFormed.not_stored_of_probe_empty {hm : HashMap cap Target} (wf : hm.WellFormed)
    {key : Int} {slot : Fin cap} (probed : hm.probe key cap = some slot)
    (empty : hm.hashTable slot = none) : Not (hm.Stored key) := by
  rintro ⟨other, stored⟩
  rw [wf.probe_of_stored stored] at probed
  cases probed
  rcases stored with ⟨node, atSlot, _⟩
  rw [empty] at atSlot
  cases atSlot

theorem storedAt_of_node {hm : HashMap cap Target} {slot : Fin cap} {node : HashNode Target}
    (atSlot : hm.hashTable slot = some node) : hm.StoredAt node.key slot :=
  ⟨node, atSlot, rfl⟩

theorem WellFormed.hashGet_of_node {hm : HashMap cap Target} (wf : hm.WellFormed)
    {slot : Fin cap} {node : HashNode Target} (atSlot : hm.hashTable slot = some node) :
    hm.hashGet node.key = .ok node.value := by
  simp only [hashGet, find, wf.probe_of_stored (storedAt_of_node atSlot), atSlot]

/-- The loop for an absent key ends at an empty slot, if it can end at all. -/
theorem probe_of_not_stored {hm : HashMap cap Target} {key : Int}
    (absent : Not (hm.Stored key)) (room : Exists fun slot => hm.hashTable slot = none) :
    Exists fun slot => hm.probe key cap = some slot ∧ hm.hashTable slot = none := by
  have ended := (hm.probe_isSome_iff key).mpr (Or.inl room)
  rcases Option.isSome_iff_exists.mp ended with ⟨slot, probed⟩
  refine ⟨slot, probed, ?_⟩
  rcases ((hm.probe_eq_some_iff key slot).mp probed).1 with empty | stored
  · exact empty
  · exact False.elim (absent ⟨slot, stored⟩)

/-- An absent key is looked up as null, if the loop can end at all. -/
theorem hashGet_of_not_stored {hm : HashMap cap Target} {key : Int}
    (absent : Not (hm.Stored key)) (room : Exists fun slot => hm.hashTable slot = none) :
    hm.hashGet key = .ok none := by
  rcases probe_of_not_stored absent room with ⟨slot, probed, atSlot⟩
  simp only [hashGet, find, probed, atSlot]

theorem hashDelete_of_not_stored {hm : HashMap cap Target} {key : Int}
    (absent : Not (hm.Stored key)) (room : Exists fun slot => hm.hashTable slot = none) :
    hm.hashDelete key = .ok (none, hm) := by
  rcases probe_of_not_stored absent room with ⟨slot, probed, atSlot⟩
  simp only [hashDelete, probed, atSlot]

theorem WellFormed.hashDelete_of_node {hm : HashMap cap Target} (wf : hm.WellFormed)
    {slot : Fin cap} {node : HashNode Target} (atSlot : hm.hashTable slot = some node) :
    hm.hashDelete node.key = .ok (node.value, { hm with
      hashTable := Function.update hm.hashTable slot none
      size := hm.size - 1 }) := by
  simp only [hashDelete, wf.probe_of_stored (storedAt_of_node atSlot), atSlot]

/-! ## Insertion and update keep the probing structure -/

theorem wellFormed_hashInit (capPos : 0 < cap) :
    (hashInit cap capPos : HashMap cap Target).WellFormed where
  distinct := by
    rintro key left right ⟨node, atLeft, _⟩
    cases atLeft
  counted := counted_hashInit capPos
  noGap := by
    rintro key slot ⟨node, atSlot, _⟩
    cases atSlot

/-- The table in which one slot holds a new node for the key. -/
private theorem storedAt_put {hm hm' : HashMap cap Target} {target : Fin cap}
    {node : HashNode Target} (put : hm'.hashTable = Function.update hm.hashTable target (some node))
    {key : Int} {slot : Fin cap} :
    hm'.StoredAt key slot <->
      (slot = target ∧ node.key = key) ∨ (slot ≠ target ∧ hm.StoredAt key slot) := by
  unfold StoredAt
  rw [put]
  by_cases same : slot = target
  · subst same
    simp
  · simp [same]

/-- Another value in an occupied slot keeps the structure. -/
theorem WellFormed.replace {hm hm' : HashMap cap Target} (wf : hm.WellFormed) {target : Fin cap}
    {node : HashNode Target} {value : Option Target} (atTarget : hm.hashTable target = some node)
    (put : hm'.hashTable = Function.update hm.hashTable target (some { node with value := value }))
    (counted : hm'.Counted) : hm'.WellFormed := by
  have storedOld : forall other slot, hm'.StoredAt other slot -> hm.StoredAt other slot := by
    intro other slot stored
    rcases (storedAt_put put).mp stored with ⟨same, otherKey⟩ | ⟨_, old⟩
    · rw [same]
      exact ⟨node, atTarget, otherKey⟩
    · exact old
  refine ⟨?_, counted, ?_⟩
  · intro other left right storedLeft storedRight
    exact wf.distinct other left right (storedOld other left storedLeft)
      (storedOld other right storedRight)
  · intro other slot stored earlier closer
    have full := wf.noGap other slot (storedOld other slot stored) earlier closer
    rw [put]
    by_cases same : earlier = target
    · rw [same, Function.update_self]
      rfl
    · rw [Function.update_of_ne same]
      exact full

/-- A new key in the empty slot where its probe ends keeps the structure. -/
theorem WellFormed.insert {hm hm' : HashMap cap Target} (wf : hm.WellFormed) {key : Int}
    {target : Fin cap} {value : Option Target} (probed : hm.probe key cap = some target)
    (empty : hm.hashTable target = none)
    (put : hm'.hashTable = Function.update hm.hashTable target (some { key := key, value := value }))
    (counted : hm'.Counted) : hm'.WellFormed := by
  have absent := wf.not_stored_of_probe_empty probed empty
  have pathBefore := ((hm.probe_eq_some_iff key target).mp probed).2
  have stillOccupied : forall slot, (hm.hashTable slot).isSome -> (hm'.hashTable slot).isSome := by
    intro slot full
    rw [put]
    by_cases same : slot = target
    · rw [same, Function.update_self]
      rfl
    · rw [Function.update_of_ne same]
      exact full
  refine ⟨?_, counted, ?_⟩
  · intro other left right storedLeft storedRight
    rcases (storedAt_put put).mp storedLeft with ⟨leftEq, leftKey⟩ | ⟨_, oldLeft⟩ <;>
    rcases (storedAt_put put).mp storedRight with ⟨rightEq, rightKey⟩ | ⟨_, oldRight⟩
    · exact leftEq.trans rightEq.symm
    · exact False.elim (absent ⟨right, (show key = other from leftKey) ▸ oldRight⟩)
    · exact False.elim (absent ⟨left, (show key = other from rightKey) ▸ oldLeft⟩)
    · exact wf.distinct other left right oldLeft oldRight
  · intro other slot storedOther earlier closer
    rcases (storedAt_put put).mp storedOther with ⟨same, otherKey⟩ | ⟨_, old⟩
    · have keyEq : key = other := otherKey
      subst same
      subst keyEq
      exact stillOccupied earlier (pathBefore earlier closer).1
    · exact stillOccupied earlier (wf.noGap other slot old earlier closer)

/-- `hash_set` on a well-formed table that is not full: the key ends up in
one slot with the new value, every other slot is as before, and the counter
grows exactly when the key was absent. -/
theorem WellFormed.hashSet_spec {hm : HashMap cap Target} (wf : hm.WellFormed)
    (notFull : hm.size < cap) (key : Int) (value : Option Target) :
    Exists fun hm' => Exists fun target =>
      hm.hashSet key value = .ok hm' ∧ hm'.WellFormed ∧
      hm'.hashTable target = some { key := key, value := value } ∧
      (forall slot, slot ≠ target -> hm'.hashTable slot = hm.hashTable slot) ∧
      (forall slot, hm.StoredAt key slot -> slot = target) ∧
      ((hm.StoredAt key target ∧ hm'.size = hm.size) ∨
        (hm.hashTable target = none ∧ hm'.size = hm.size + 1)) := by
  have ended := (hm.probe_isSome_iff key).mpr (Or.inl (wf.counted.size_lt_iff.mp notFull))
  rcases Option.isSome_iff_exists.mp ended with ⟨target, probed⟩
  have only : forall slot, hm.StoredAt key slot -> slot = target := by
    intro slot stored
    have same := (wf.probe_of_stored stored).symm.trans probed
    exact Option.some.inj same
  cases atTarget : hm.hashTable target with
  | some node =>
      have stored : hm.StoredAt key target := by
        rcases ((hm.probe_eq_some_iff key target).mp probed).1 with empty | stored
        · rw [atTarget] at empty
          cases empty
        · exact stored
      have keyEq : node.key = key := by
        rcases stored with ⟨found, atSlot, same⟩
        rw [atTarget] at atSlot
        cases atSlot
        exact same
      let hm' : HashMap cap Target := { hm with
        hashTable := Function.update hm.hashTable target (some { node with value := value }) }
      have ran : hm.hashSet key value = .ok hm' := by
        simp only [hashSet, Int.not_le.mpr notFull, if_false, probed, atTarget]
        rfl
      refine ⟨hm', target, ran, wf.replace atTarget rfl (wf.counted.hashSet ran), ?_, ?_, only,
        Or.inl ⟨stored, rfl⟩⟩
      · simp [hm', keyEq]
      · intro slot different
        simp [hm', Function.update_of_ne different]
  | none =>
      let hm' : HashMap cap Target := { hm with
        hashTable := Function.update hm.hashTable target (some { key := key, value := value })
        size := hm.size + 1 }
      have ran : hm.hashSet key value = .ok hm' := by
        simp only [hashSet, Int.not_le.mpr notFull, if_false, probed, atTarget]
        rfl
      refine ⟨hm', target, ran, wf.insert probed atTarget rfl (wf.counted.hashSet ran), ?_, ?_,
        only, Or.inr ⟨atTarget, rfl⟩⟩
      · simp [hm']
      · intro slot different
        simp [hm', Function.update_of_ne different]

/-! ## When deletion keeps the probing structure -/

/-- No other stored key was probed past the slot of this key. -/
def KeepsPaths (hm : HashMap cap Target) (key : Int) : Prop :=
  forall slot, hm.StoredAt key slot -> forall other otherSlot,
    hm.StoredAt other otherSlot -> other ≠ key ->
      hm.depth other otherSlot ≤ hm.depth other slot

private theorem storedAt_clear {hm hm' : HashMap cap Target} {target : Fin cap}
    (clear : hm'.hashTable = Function.update hm.hashTable target none)
    {key : Int} {slot : Fin cap} :
    hm'.StoredAt key slot <-> slot ≠ target ∧ hm.StoredAt key slot := by
  unfold StoredAt
  rw [clear]
  by_cases same : slot = target
  · subst same
    simp
  · simp [same]

/-- Emptying a slot that no other key was probed past keeps the structure. -/
theorem WellFormed.hashDelete {hm hm' : HashMap cap Target} (wf : hm.WellFormed)
    {key : Int} {value : Option Target} (safe : hm.KeepsPaths key)
    (ran : hm.hashDelete key = .ok (value, hm')) : hm'.WellFormed := by
  have counted := wf.counted.hashDelete ran
  rcases hashDelete_cases ran with ⟨target, _, ⟨_, _, same⟩ | ⟨node, atTarget, keyEq, _, same⟩⟩
  · rw [same]
    exact wf
  · have clear : hm'.hashTable = Function.update hm.hashTable target none := by
      rw [same]
    have storedTarget : hm.StoredAt key target := ⟨node, atTarget, keyEq⟩
    refine ⟨?_, counted, ?_⟩
    · intro other left right storedLeft storedRight
      exact wf.distinct other left right ((storedAt_clear clear).mp storedLeft).2
        ((storedAt_clear clear).mp storedRight).2
    · intro other slot storedOther earlier closer
      rcases (storedAt_clear clear).mp storedOther with ⟨slotNe, old⟩
      have otherNe : other ≠ key := by
        intro equal
        rw [equal] at old
        exact slotNe (wf.distinct key slot target old storedTarget)
      have notCrossed := safe target storedTarget other slot old otherNe
      have earlierNe : earlier ≠ target := by
        intro equal
        rw [equal] at closer
        exact absurd closer (Nat.not_lt.mpr notCrossed)
      rw [clear, Function.update_of_ne earlierNe]
      exact wf.noGap other slot old earlier closer

/-- Emptying a slot that another key was probed past loses that key: it is
still stored, but its lookup now returns null. -/
theorem WellFormed.hashDelete_loses {hm hm' : HashMap cap Target} (wf : hm.WellFormed)
    {key : Int} {value : Option Target} (crossing : Not (hm.KeepsPaths key))
    (ran : hm.hashDelete key = .ok (value, hm')) :
    Exists fun other => Exists fun slot =>
      other ≠ key ∧ hm.StoredAt other slot ∧ hm'.StoredAt other slot ∧
        hm'.hashGet other = .ok none := by
  unfold KeepsPaths at crossing
  push Not at crossing
  rcases crossing with ⟨target, storedTarget, other, slot, stored, otherNe, crossed⟩
  rcases storedTarget with ⟨node, atTarget, keyEq⟩
  have deleted := wf.hashDelete_of_node atTarget
  rw [keyEq, ran] at deleted
  have same := (Prod.mk.inj (Except.ok.inj deleted)).2
  have clear : hm'.hashTable = Function.update hm.hashTable target none := by
    rw [same]
  have slotNe : slot ≠ target := by
    intro equal
    rw [equal] at crossed
    exact Nat.lt_irrefl _ crossed
  have stillStored : hm'.StoredAt other slot := (storedAt_clear clear).mpr ⟨slotNe, stored⟩
  have emptied : hm'.hashTable target = none := by
    rw [clear]
    simp
  have probed : hm'.probe other cap = some target := by
    rw [probe_eq_some_iff]
    refine ⟨Or.inl emptied, fun earlier closer => ?_⟩
    have earlierNe : earlier ≠ target := by
      intro equal
      rw [equal] at closer
      exact Nat.lt_irrefl _ closer
    have beforeSlot : hm.depth other earlier < hm.depth other slot := Nat.lt_trans closer crossed
    refine ⟨?_, ?_⟩
    · rw [clear, Function.update_of_ne earlierNe]
      exact wf.noGap other slot stored earlier beforeSlot
    · intro storedEarlier
      have again := ((storedAt_clear clear).mp storedEarlier).2
      rw [wf.distinct other earlier slot again stored] at beforeSlot
      exact Nat.lt_irrefl _ beforeSlot
  refine ⟨other, slot, otherNe, stored, stillStored, ?_⟩
  simp only [hashGet, find, probed, emptied]

/-! ## The finite map that a table stands for -/

/-- A table stands for a finite map if it is well formed and its nodes are
exactly the bindings of the map. -/
structure Represents (hm : HashMap cap Target) (m : Finmap (fun _ : Int => Target)) : Prop where
  wellFormed : hm.WellFormed
  sound : forall slot node, hm.hashTable slot = some node ->
    Exists fun value => node.value = some value ∧ m.lookup node.key = some value
  complete : forall key value, m.lookup key = some value -> hm.Stored key

/-- The counter of a table is the number of bindings of its map. -/
theorem Represents.size_eq {hm : HashMap cap Target} {m : Finmap (fun _ : Int => Target)}
    (rep : hm.Represents m) : hm.size = m.keys.card := by
  have counted := rep.wellFormed.counted
  unfold Counted at counted
  rw [counted]
  congr 1
  refine Finset.card_bij (fun slot _ => (hm.hashTable slot).elim 0 HashNode.key) ?_ ?_ ?_
  · intro slot member
    have full := (hm.mem_occupied slot).mp member
    rcases Option.isSome_iff_exists.mp full with ⟨node, atSlot⟩
    rcases rep.sound slot node atSlot with ⟨value, _, bound⟩
    have isKey : node.key ∈ m.keys := by
      rw [Finmap.mem_keys, ← Finmap.lookup_isSome, bound]
      rfl
    simpa only [atSlot, Option.elim_some] using isKey
  · intro left leftMember right rightMember sameKey
    rcases Option.isSome_iff_exists.mp ((hm.mem_occupied left).mp leftMember) with ⟨leftNode, atLeft⟩
    rcases Option.isSome_iff_exists.mp ((hm.mem_occupied right).mp rightMember) with
      ⟨rightNode, atRight⟩
    simp only [atLeft, atRight, Option.elim_some] at sameKey
    exact rep.wellFormed.distinct rightNode.key left right ⟨leftNode, atLeft, sameKey⟩
      (storedAt_of_node atRight)
  · intro key member
    rw [Finmap.mem_keys, ← Finmap.lookup_isSome] at member
    rcases Option.isSome_iff_exists.mp member with ⟨value, bound⟩
    rcases rep.complete key value bound with ⟨slot, node, atSlot, sameKey⟩
    refine ⟨slot, (hm.mem_occupied slot).mpr (by rw [atSlot]; rfl), ?_⟩
    simp only [atSlot, Option.elim_some, sameKey]

theorem represents_hashInit (capPos : 0 < cap) :
    (hashInit cap capPos : HashMap cap Target).Represents ∅ where
  wellFormed := wellFormed_hashInit capPos
  sound := by
    intro slot node atSlot
    cases atSlot
  complete := by
    intro key value bound
    rw [Finmap.lookup_empty] at bound
    cases bound

theorem Represents.room {hm : HashMap cap Target} {m : Finmap (fun _ : Int => Target)}
    (rep : hm.Represents m) (below : m.keys.card < cap) :
    Exists fun slot => hm.hashTable slot = none := by
  apply rep.wellFormed.counted.size_lt_iff.mp
  have := rep.size_eq
  omega

/-- A key that the map does not bind is stored nowhere. -/
theorem Represents.not_stored {hm : HashMap cap Target} {m : Finmap (fun _ : Int => Target)}
    (rep : hm.Represents m) {key : Int} (unbound : m.lookup key = none) :
    Not (hm.Stored key) := by
  rintro ⟨slot, node, atSlot, sameKey⟩
  rcases rep.sound slot node atSlot with ⟨value, _, bound⟩
  rw [sameKey, unbound] at bound
  cases bound

/-- Lookups return what the map returns. -/
theorem Represents.hashGet {hm : HashMap cap Target} {m : Finmap (fun _ : Int => Target)}
    (rep : hm.Represents m) (below : m.keys.card < cap) (key : Int) :
    hm.hashGet key = .ok (m.lookup key) := by
  cases bound : m.lookup key with
  | none => exact hashGet_of_not_stored (rep.not_stored bound) (rep.room below)
  | some value =>
      rcases rep.complete key value bound with ⟨slot, node, atSlot, sameKey⟩
      rcases rep.sound slot node atSlot with ⟨found, nodeValue, boundNode⟩
      rw [sameKey, bound] at boundNode
      have got := rep.wellFormed.hashGet_of_node atSlot
      rw [sameKey, nodeValue, ← boundNode] at got
      exact got

/-- Removals return what the map bound. -/
theorem Represents.hashDelete_returns {hm : HashMap cap Target}
    {m : Finmap (fun _ : Int => Target)} (rep : hm.Represents m) (below : m.keys.card < cap)
    (key : Int) : Exists fun hm' => hm.hashDelete key = .ok (m.lookup key, hm') := by
  cases bound : m.lookup key with
  | none => exact ⟨hm, hashDelete_of_not_stored (rep.not_stored bound) (rep.room below)⟩
  | some value =>
      rcases rep.complete key value bound with ⟨slot, node, atSlot, sameKey⟩
      rcases rep.sound slot node atSlot with ⟨found, nodeValue, boundNode⟩
      rw [sameKey, bound] at boundNode
      have removed := rep.wellFormed.hashDelete_of_node atSlot
      rw [sameKey, nodeValue, ← boundNode] at removed
      exact ⟨_, removed⟩

/-- `hash_set` stands for insertion into the map. -/
theorem Represents.hashSet {hm hm' : HashMap cap Target} {m : Finmap (fun _ : Int => Target)}
    (rep : hm.Represents m) (below : m.keys.card < cap) {key : Int} {value : Target}
    (ran : hm.hashSet key (some value) = .ok hm') : hm'.Represents (m.insert key value) := by
  have notFull : hm.size < cap := by
    rw [rep.size_eq]
    exact_mod_cast below
  rcases rep.wellFormed.hashSet_spec notFull key (some value) with
    ⟨found, target, ranFound, wf, atTarget, elsewhere, only, filled⟩
  have same : found = hm' := Except.ok.inj (ranFound.symm.trans ran)
  subst same
  refine ⟨wf, ?_, ?_⟩
  · intro slot node atSlot
    by_cases isTarget : slot = target
    · rw [isTarget, atTarget] at atSlot
      cases atSlot
      exact ⟨value, rfl, Finmap.lookup_insert m⟩
    · rw [elsewhere slot isTarget] at atSlot
      rcases rep.sound slot node atSlot with ⟨old, nodeValue, bound⟩
      have keyNe : node.key ≠ key := by
        intro sameKey
        exact isTarget (only slot ⟨node, atSlot, sameKey⟩)
      exact ⟨old, nodeValue, (Finmap.lookup_insert_of_ne m keyNe).trans bound⟩
  · intro other otherValue bound
    by_cases sameKey : other = key
    · exact ⟨target, _, atTarget, sameKey.symm⟩
    · rw [Finmap.lookup_insert_of_ne m sameKey] at bound
      rcases rep.complete other otherValue bound with ⟨slot, node, atSlot, nodeKey⟩
      by_cases isTarget : slot = target
      · rw [isTarget] at atSlot
        rcases filled with ⟨⟨held, atHeld, heldKey⟩, _⟩ | ⟨empty, _⟩
        · rw [atSlot] at atHeld
          cases atHeld
          exact False.elim (sameKey (nodeKey.symm.trans heldKey))
        · rw [atSlot] at empty
          cases empty
      · exact ⟨slot, node, (elsewhere slot isTarget).trans atSlot, nodeKey⟩

/-- What is bound after a removal is another key, bound before. -/
theorem lookup_of_lookup_erase {m : Finmap (fun _ : Int => Target)} {key other : Int}
    {found : Target} (bound : (m.erase key).lookup other = some found) :
    other ≠ key ∧ m.lookup other = some found := by
  have keyNe : other ≠ key := by
    intro sameKey
    rw [sameKey, Finmap.lookup_erase] at bound
    cases bound
  rw [Finmap.lookup_erase_ne keyNe] at bound
  exact ⟨keyNe, bound⟩

/-- `hash_delete` stands for removal from the map, if it crosses no other
key's probe path. -/
theorem Represents.hashDelete {hm hm' : HashMap cap Target} {m : Finmap (fun _ : Int => Target)}
    (rep : hm.Represents m) {key : Int} (safe : hm.KeepsPaths key) {value : Option Target}
    (ran : hm.hashDelete key = .ok (value, hm')) : hm'.Represents (m.erase key) := by
  have wf := rep.wellFormed.hashDelete safe ran
  rcases hashDelete_cases ran with
    ⟨target, _, ⟨atTarget, _, same⟩ | ⟨held, atTarget, heldKey, _, same⟩⟩
  · -- The key is not in the table, so the map does not bind it either.
    subst same
    have absent := rep.wellFormed.not_stored_of_probe_empty ‹_› atTarget
    have unbound : m.lookup key = none := by
      by_contra bound
      rcases Option.ne_none_iff_exists'.mp bound with ⟨found, isBound⟩
      exact absent (rep.complete key found isBound)
    refine ⟨wf, ?_, ?_⟩
    · intro slot node atSlot
      rcases rep.sound slot node atSlot with ⟨found, nodeValue, bound⟩
      have keyNe : node.key ≠ key := by
        intro sameKey
        rw [sameKey, unbound] at bound
        cases bound
      exact ⟨found, nodeValue, (Finmap.lookup_erase_ne keyNe).trans bound⟩
    · intro other found bound
      exact rep.complete other found (lookup_of_lookup_erase bound).2
  · have clear : hm'.hashTable = Function.update hm.hashTable target none := by
      rw [same]
    refine ⟨wf, ?_, ?_⟩
    · intro slot node atSlot
      have stored := (storedAt_clear clear).mp (storedAt_of_node atSlot)
      have atOld : hm.hashTable slot = some node := by
        rw [clear, Function.update_of_ne stored.1] at atSlot
        exact atSlot
      rcases rep.sound slot node atOld with ⟨found, nodeValue, bound⟩
      have keyNe : node.key ≠ key := by
        intro sameKey
        exact stored.1 (rep.wellFormed.distinct key slot target ⟨node, atOld, sameKey⟩
          ⟨held, atTarget, heldKey⟩)
      exact ⟨found, nodeValue, (Finmap.lookup_erase_ne keyNe).trans bound⟩
    · intro other found bound
      rcases lookup_of_lookup_erase bound with ⟨keyNe, boundBefore⟩
      rcases rep.complete other found boundBefore with ⟨slot, stored⟩
      refine ⟨slot, (storedAt_clear clear).mpr ⟨?_, stored⟩⟩
      intro isTarget
      rw [isTarget] at stored
      rcases stored with ⟨node, atSlot, nodeKey⟩
      rw [atTarget] at atSlot
      cases atSlot
      exact keyNe (nodeKey.symm.trans heldKey)

/-! ## Runs of calls -/

/-- The call on the table, with the returned pointer; `hash_set` returns nothing. -/
def call (hm : HashMap cap Target) : Call Target -> Except Fault (Option Target × HashMap cap Target)
  | .get key =>
      match hm.hashGet key with
      | .error fault => .error fault
      | .ok value => .ok (value, hm)
  | .set key value =>
      match hm.hashSet key (some value) with
      | .error fault => .error fault
      | .ok hm' => .ok (none, hm')
  | .delete key => hm.hashDelete key

/-- The same call on a finite map. -/
def callMap (m : Finmap (fun _ : Int => Target)) : Call Target ->
    Option Target × Finmap (fun _ : Int => Target)
  | .get key => (m.lookup key, m)
  | .set key value => (none, m.insert key value)
  | .delete key => (m.lookup key, m.erase key)

/-- A table and a finite map driven by the same calls. -/
abbrev Pair (cap : Nat) (Target : Type u) : Type u :=
  HashMap cap Target × Finmap (fun _ : Int => Target)

/-- One call with a non-negative key, on both sides. -/
def stepPair (pair : Pair cap Target) (c : Call Target) : Option (Pair cap Target) :=
  if 0 ≤ c.key then
    match pair.1.call c with
    | .error _ => none
    | .ok (_, hm') => some (hm', (callMap pair.2 c).2)
  else none

/-- Fewer bindings than slots. -/
def Roomy (pair : Pair cap Target) : Prop :=
  pair.2.keys.card < cap

instance (pair : Pair cap Target) : Decidable (Roomy pair) :=
  inferInstanceAs (Decidable (_ < _))

/-- Whatever is called next with a non-negative key, the call on the table
ends and returns what the finite map returns. -/
def Agrees (pair : Pair cap Target) : Prop :=
  forall c : Call Target, 0 ≤ c.key ->
    Exists fun hm' => pair.1.call c = .ok ((callMap pair.2 c).1, hm')

/-- A deletion crosses no other key's probe path; the other calls are free. -/
def CallKeepsPaths (pair : Pair cap Target) : Call Target -> Prop
  | .delete key => pair.1.KeepsPaths key
  | _ => True

/-- Only non-negative keys are bound. -/
private def NonNegative (m : Finmap (fun _ : Int => Target)) : Prop :=
  forall key value, m.lookup key = some value -> 0 ≤ key

private def PairInv (pair : Pair cap Target) : Prop :=
  pair.1.Represents pair.2 ∧ NonNegative pair.2

private theorem PairInv.agrees {pair : Pair cap Target} (inv : PairInv pair)
    (roomy : Roomy pair) : Agrees pair := by
  rcases inv with ⟨rep, _⟩
  intro c _
  cases c with
  | get key =>
      refine ⟨pair.1, ?_⟩
      simp only [call, rep.hashGet roomy key, callMap]
  | set key value =>
      have notFull : pair.1.size < cap := by
        rw [rep.size_eq]
        exact_mod_cast roomy
      rcases rep.wellFormed.hashSet_spec notFull key (some value) with ⟨hm', _, ran, _⟩
      refine ⟨hm', ?_⟩
      simp only [call, ran, callMap]
  | delete key => exact rep.hashDelete_returns roomy key

/-- A step makes the call on the table and on the map. -/
private theorem stepPair_cases {pair pair' : Pair cap Target} {c : Call Target}
    (taken : stepPair pair c = some pair') :
    0 ≤ c.key ∧ Exists fun returned => Exists fun hm' =>
      pair.1.call c = .ok (returned, hm') ∧ pair' = (hm', (callMap pair.2 c).2) := by
  unfold stepPair at taken
  split at taken
  · next keyOk =>
      cases called : pair.1.call c with
      | error fault => simp only [called, reduceCtorEq] at taken
      | ok result =>
          simp only [called, Option.some.injEq] at taken
          exact ⟨keyOk, result.1, result.2, rfl, taken.symm⟩
  · cases taken

private theorem PairInv.step {pair pair' : Pair cap Target} (inv : PairInv pair)
    (roomy : Roomy pair) {c : Call Target} (safe : CallKeepsPaths pair c)
    (taken : stepPair pair c = some pair') : PairInv pair' := by
  rcases inv with ⟨rep, nonNegative⟩
  rcases stepPair_cases taken with ⟨keyOk, returned, hm', called, isNext⟩
  rw [isNext]
  cases c with
  | get key =>
      simp only [call, rep.hashGet roomy key] at called
      cases called
      exact ⟨rep, nonNegative⟩
  | set key value =>
      cases ran : pair.1.hashSet key (some value) with
      | error fault => simp only [call, ran, reduceCtorEq] at called
      | ok table =>
          simp only [call, ran] at called
          cases called
          refine ⟨rep.hashSet roomy ran, ?_⟩
          intro other found bound
          by_cases same : other = key
          · rw [same]
            exact keyOk
          · exact nonNegative other found
              ((Finmap.lookup_insert_of_ne pair.2 same).symm.trans bound)
  | delete key =>
      refine ⟨rep.hashDelete safe called, ?_⟩
      intro other found bound
      have different : other ≠ key := by
        intro same
        rw [same] at bound
        simp only [callMap, Finmap.lookup_erase, reduceCtorEq] at bound
      exact nonNegative other found ((Finmap.lookup_erase_ne different).symm.trans bound)

/-- After a deletion that crosses another key's path, that key's lookup
differs from the map. -/
private theorem PairInv.breaks {pair pair' : Pair cap Target} (inv : PairInv pair)
    {c : Call Target} (crossing : Not (CallKeepsPaths pair c))
    (taken : stepPair pair c = some pair') : Not (Agrees pair') := by
  rcases inv with ⟨rep, nonNegative⟩
  rcases stepPair_cases taken with ⟨_, returned, table, called, isNext⟩
  rw [isNext]
  cases c with
  | get key => exact False.elim (crossing trivial)
  | set key value => exact False.elim (crossing trivial)
  | delete key =>
      rcases rep.wellFormed.hashDelete_loses crossing called with
        ⟨other, slot, different, ⟨node, atSlot, nodeKey⟩, _, lost⟩
      rcases rep.sound slot node atSlot with ⟨value, _, bound⟩
      rw [nodeKey] at bound
      intro agrees
      rcases agrees (.get other) (nonNegative other value bound) with ⟨hm', got⟩
      simp only [call, lost, callMap, Except.ok.injEq, Prod.mk.injEq] at got
      have kept : Finmap.lookup other (pair.2.erase key) = some value :=
        (Finmap.lookup_erase_ne different).trans bound
      rw [kept] at got
      cases got.1

/-- Along a run of calls that never holds as many bindings as slots, the
table returns what the finite map returns exactly when no deletion empties
a slot that another stored key was probed past. -/
theorem agrees_iff_deletions_keep_paths (capPos : 0 < cap) (calls : List (Call Target))
    (roomy : Run.Always stepPair Roomy (hashInit cap capPos, ∅) calls) :
    Run.Always stepPair Agrees (hashInit cap capPos, ∅) calls <->
      Run.Guarded stepPair CallKeepsPaths
        ((hashInit cap capPos, ∅) : Pair cap Target) calls := by
  refine Run.always_iff_guarded PairInv Roomy ?_ ?_ ?_ ?_ roomy
  · refine ⟨represents_hashInit capPos, ?_⟩
    intro key value bound
    rw [Finmap.lookup_empty] at bound
    cases bound
  · exact fun pair inv isRoomy => inv.agrees isRoomy
  · exact fun pair c pair' inv isRoomy _ safe taken => inv.step isRoomy safe taken
  · exact fun pair c pair' inv _ _ crossing taken => inv.breaks crossing taken

/-- Keys 0 and 5 share the home slot 0 of a table of five slots. -/
def collidingCalls : List (Call Nat) :=
  [.set 0 10, .set 5 20, .delete 0]

theorem collidingCalls_roomy :
    Run.Always stepPair Roomy ((hashInit 5 (by decide), ∅) : Pair 5 Nat) collidingCalls := by
  refine Run.always_cons ?_ rfl (Run.always_cons ?_ rfl (Run.always_cons ?_ rfl ?_))
  all_goals
    change Roomy _
    decide

theorem agrees_iff_at_collidingCalls :
    Run.Always stepPair Agrees (hashInit 5 (by decide), ∅) collidingCalls <->
      Run.Guarded stepPair CallKeepsPaths
        ((hashInit 5 (by decide), ∅) : Pair 5 Nat) collidingCalls :=
  agrees_iff_deletions_keep_paths (by decide) collidingCalls collidingCalls_roomy

/-- After these calls the table holds key 5 but no longer finds it. -/
theorem collidingCalls_disagree :
    Run.Always stepPair Roomy ((hashInit 5 (by decide), ∅) : Pair 5 Nat) collidingCalls ∧
      Not (Run.Always stepPair Agrees
        ((hashInit 5 (by decide), ∅) : Pair 5 Nat) collidingCalls) := by
  refine ⟨collidingCalls_roomy, fun always => ?_⟩
  rcases always.finish rfl (.get 5) (by decide) with ⟨_, got⟩
  have returned := congrArg (Except.map Prod.fst) got
  cases (Except.ok.inj returned : (none : Option Nat) = some 20)

end HashMap
end ChatHub
