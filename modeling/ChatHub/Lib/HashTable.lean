import Mathlib.Data.Fintype.Card
import Mathlib.Data.Fin.Basic
import ChatHub.Base.Action
import ChatHub.Base.Circular
import ChatHub.Base.Run

namespace ChatHub

/-!
# The integer-keyed hash table

`lib/hashtable.c` is an open-addressing table with home slot `abs(key) % cap`
and linear probing.  The loops of `find`, `hash_set` and `hash_delete` advance
under the same condition, so they are one circular walk here.  A walk that
visits every slot without stopping is a loop that never ends, by
`Circular.walk_eq_none_iff`; the operations then report `endlessLoop`.
-/

universe u

/-- A stored binding.  A value is a pointer, and `none` is the null pointer. -/
structure HashNode (Target : Type u) where
  key : Int
  value : Option Target

/-- The table of `cap` slots with its counter.  `malloc`ed nodes are shared
with nobody, so a slot holds its node by value. -/
structure HashMap (cap : Nat) (Target : Type u) where
  hashTable : Fin cap -> Option (HashNode Target)
  size : Int
  capPos : 0 < cap

namespace HashMap

variable {cap : Nat} {Target : Type u}

/-- `hash_init`: all slots empty. -/
def hashInit (cap : Nat) (capPos : 0 < cap) : HashMap cap Target where
  hashTable := fun _ => none
  size := 0
  capPos := capPos

/-- The home slot `abs(key) % cap`.  The table is for positive keys; `abs` has
no result for the least `int`, where this is only a definition. -/
def home (hm : HashMap cap Target) (key : Int) : Fin cap :=
  ⟨key.natAbs % cap, Nat.mod_lt _ hm.capPos⟩

/-- The probing loops leave a slot that is empty or holds the key. -/
def stops (hm : HashMap cap Target) (key : Int) (slot : Fin cap) : Bool :=
  match hm.hashTable slot with
  | none => true
  | some node => node.key == key

/-- The probing loop of all three operations, cut off after `steps` slots. -/
def probe (hm : HashMap cap Target) (key : Int) (steps : Nat) : Option (Fin cap) :=
  Circular.walk (hm.stops key) steps (hm.home key)

/-- `find` -/
def find (hm : HashMap cap Target) (key : Int) : Except Fault (Option (HashNode Target)) :=
  match hm.probe key cap with
  | none => .error .endlessLoop
  | some slot => .ok (hm.hashTable slot)

/-- `hash_get` -/
def hashGet (hm : HashMap cap Target) (key : Int) : Except Fault (Option Target) :=
  match hm.find key with
  | .error fault => .error fault
  | .ok none => .ok none
  | .ok (some node) => .ok node.value

/-- `hash_set`.  A full table is left alone before anything is searched. -/
def hashSet (hm : HashMap cap Target) (key : Int) (value : Option Target) :
    Except Fault (HashMap cap Target) :=
  if hm.size ≥ cap then .ok hm
  else
    match hm.probe key cap with
    | none => .error .endlessLoop
    | some slot =>
        match hm.hashTable slot with
        | some node => .ok { hm with
            hashTable := Function.update hm.hashTable slot (some { node with value := value }) }
        | none => .ok { hm with
            hashTable := Function.update hm.hashTable slot (some { key := key, value := value })
            size := hm.size + 1 }

/-- `hash_delete`, with the value that was bound.  The slot is emptied and
nothing else is moved. -/
def hashDelete (hm : HashMap cap Target) (key : Int) :
    Except Fault (Option Target × HashMap cap Target) :=
  match hm.probe key cap with
  | none => .error .endlessLoop
  | some slot =>
      match hm.hashTable slot with
      | none => .ok (none, hm)
      | some node => .ok (node.value, { hm with
          hashTable := Function.update hm.hashTable slot none
          size := hm.size - 1 })

/-! ## What is stored where -/

/-- The key is stored in this slot. -/
def StoredAt (hm : HashMap cap Target) (key : Int) (slot : Fin cap) : Prop :=
  Exists fun node => hm.hashTable slot = some node ∧ node.key = key

/-- The key is stored in some slot. -/
def Stored (hm : HashMap cap Target) (key : Int) : Prop :=
  Exists fun slot => hm.StoredAt key slot

/-- How far the slot is along the probe path of the key. -/
def depth (hm : HashMap cap Target) (key : Int) (slot : Fin cap) : Nat :=
  Circular.dist (hm.home key) slot

/-- The occupied slots. -/
def occupied (hm : HashMap cap Target) : Finset (Fin cap) :=
  Finset.univ.filter (fun slot => (hm.hashTable slot).isSome)

/-- The counter is the number of occupied slots. -/
def Counted (hm : HashMap cap Target) : Prop :=
  hm.size = hm.occupied.card

/-- Every slot on the probe path of the key before `slot` is occupied. -/
def PathOccupied (hm : HashMap cap Target) (key : Int) (slot : Fin cap) : Prop :=
  forall earlier, hm.depth key earlier < hm.depth key slot -> (hm.hashTable earlier).isSome

/-- The probing structure: no key twice, an exact counter, and no gap on the
probe path of a stored key. -/
structure WellFormed (hm : HashMap cap Target) : Prop where
  distinct : forall key left right, hm.StoredAt key left -> hm.StoredAt key right -> left = right
  counted : hm.Counted
  noGap : forall key slot, hm.StoredAt key slot -> hm.PathOccupied key slot

theorem stops_eq_true_iff (hm : HashMap cap Target) (key : Int) (slot : Fin cap) :
    hm.stops key slot = true <-> hm.hashTable slot = none ∨ hm.StoredAt key slot := by
  unfold stops StoredAt
  cases stored : hm.hashTable slot with
  | none => simp
  | some node => simp

theorem stops_eq_false_iff (hm : HashMap cap Target) (key : Int) (slot : Fin cap) :
    hm.stops key slot = false <-> (hm.hashTable slot).isSome ∧ Not (hm.StoredAt key slot) := by
  rw [← Bool.not_eq_true, stops_eq_true_iff]
  cases hm.hashTable slot <;> simp

/-- The loop stops at the first slot that is empty or holds the key. -/
theorem probe_eq_some_iff (hm : HashMap cap Target) (key : Int) (slot : Fin cap) :
    hm.probe key cap = some slot <->
      (hm.hashTable slot = none ∨ hm.StoredAt key slot) ∧
        forall earlier, hm.depth key earlier < hm.depth key slot ->
          (hm.hashTable earlier).isSome ∧ Not (hm.StoredAt key earlier) := by
  unfold probe
  rw [Circular.walk_eq_some_iff _ _ (Nat.le_refl cap), stops_eq_true_iff]
  constructor
  · rintro ⟨stop, _, first⟩
    exact ⟨stop, fun earlier closer => (hm.stops_eq_false_iff key earlier).mp (first earlier closer)⟩
  · rintro ⟨stop, first⟩
    exact ⟨stop, Circular.dist_lt _ _,
      fun earlier closer => (hm.stops_eq_false_iff key earlier).mpr (first earlier closer)⟩

/-- The unbounded loop ends exactly when some slot is empty or holds the key. -/
theorem probe_terminates_iff (hm : HashMap cap Target) (key : Int) :
    (Exists fun steps => (hm.probe key steps).isSome) <->
      (Exists fun slot => hm.hashTable slot = none) ∨ hm.Stored key := by
  unfold probe
  rw [Circular.walk_terminates_iff]
  constructor
  · rintro ⟨slot, stop⟩
    rcases (hm.stops_eq_true_iff key slot).mp stop with empty | stored
    · exact Or.inl ⟨slot, empty⟩
    · exact Or.inr ⟨slot, stored⟩
  · rintro (⟨slot, empty⟩ | ⟨slot, stored⟩)
    · exact ⟨slot, (hm.stops_eq_true_iff key slot).mpr (Or.inl empty)⟩
    · exact ⟨slot, (hm.stops_eq_true_iff key slot).mpr (Or.inr stored)⟩

/-- One round around the table decides the unbounded loop. -/
theorem probe_eq_none_iff (hm : HashMap cap Target) (key : Int) :
    hm.probe key cap = none <-> forall steps, hm.probe key steps = none := by
  constructor
  · intro ended
    have never := (Circular.walk_eq_none_iff (hm.stops key) (hm.home key)).mp ended
    exact fun steps => Circular.walk_eq_none_of_never never steps _
  · intro all
    exact all cap

theorem probe_isSome_iff (hm : HashMap cap Target) (key : Int) :
    (hm.probe key cap).isSome <->
      (Exists fun slot => hm.hashTable slot = none) ∨ hm.Stored key := by
  rw [← probe_terminates_iff]
  constructor
  · intro ended
    exact ⟨cap, ended⟩
  · rintro ⟨steps, ended⟩
    by_contra notEnded
    rw [Option.not_isSome_iff_eq_none] at notEnded
    rw [(hm.probe_eq_none_iff key).mp notEnded steps] at ended
    cases ended

/-! ## Occupancy and the counter -/

theorem mem_occupied (hm : HashMap cap Target) (slot : Fin cap) :
    slot ∈ hm.occupied <-> (hm.hashTable slot).isSome := by
  simp [occupied]

theorem occupied_card_le (hm : HashMap cap Target) : hm.occupied.card ≤ cap := by
  have bound := Finset.card_le_univ hm.occupied
  simpa using bound

/-- An exact counter below the capacity means an empty slot, and conversely. -/
theorem Counted.size_lt_iff {hm : HashMap cap Target} (counted : hm.Counted) :
    hm.size < cap <-> Exists fun slot => hm.hashTable slot = none := by
  unfold Counted at counted
  have full : hm.occupied.card = cap <-> hm.occupied = Finset.univ := by
    rw [← Finset.card_eq_iff_eq_univ, Fintype.card_fin]
  constructor
  · intro below
    by_contra none
    have all : hm.occupied = Finset.univ := by
      apply Finset.eq_univ_iff_forall.mpr
      intro slot
      rw [mem_occupied]
      by_contra empty
      exact none ⟨slot, Option.not_isSome_iff_eq_none.mp empty⟩
    have := full.mpr all
    omega
  · rintro ⟨slot, empty⟩
    have bound := hm.occupied_card_le
    have notFull : hm.occupied.card ≠ cap := by
      intro isFull
      have member : slot ∈ hm.occupied := by
        rw [full.mp isFull]
        exact Finset.mem_univ slot
      rw [mem_occupied, empty] at member
      cases member
    omega

/-- Replacing a stored value keeps the occupied slots. -/
theorem occupied_update_some (hm : HashMap cap Target) (slot : Fin cap)
    (node : HashNode Target) (size : Int) (stored : (hm.hashTable slot).isSome) :
    ({ hm with hashTable := Function.update hm.hashTable slot (some node), size := size } :
      HashMap cap Target).occupied = hm.occupied := by
  ext other
  rw [mem_occupied, mem_occupied]
  by_cases same : other = slot
  · subst same
    simp [stored]
  · simp [Function.update_of_ne same]

theorem occupied_insert (hm : HashMap cap Target) (slot : Fin cap)
    (node : HashNode Target) (size : Int) :
    ({ hm with hashTable := Function.update hm.hashTable slot (some node), size := size } :
      HashMap cap Target).occupied = insert slot hm.occupied := by
  ext other
  rw [Finset.mem_insert, mem_occupied, mem_occupied]
  by_cases same : other = slot
  · subst same
    simp
  · simp [same]

theorem occupied_erase (hm : HashMap cap Target) (slot : Fin cap) (size : Int) :
    ({ hm with hashTable := Function.update hm.hashTable slot none, size := size } :
      HashMap cap Target).occupied = hm.occupied.erase slot := by
  ext other
  rw [Finset.mem_erase, mem_occupied, mem_occupied]
  by_cases same : other = slot
  · subst same
    simp
  · simp [same]

theorem counted_hashInit (capPos : 0 < cap) : (hashInit cap capPos : HashMap cap Target).Counted := by
  simp [Counted, occupied, hashInit]

/-- What `hash_set` can do: refuse on a full table, update the slot that
holds the key, or fill the first empty slot of the probe path. -/
theorem hashSet_cases {hm hm' : HashMap cap Target} {key : Int} {value : Option Target}
    (ran : hm.hashSet key value = .ok hm') :
    (hm.size ≥ cap ∧ hm' = hm) ∨
    (hm.size < cap ∧ Exists fun slot => Exists fun node =>
      hm.probe key cap = some slot ∧ hm.hashTable slot = some node ∧ node.key = key ∧
      hm' = { hm with
        hashTable := Function.update hm.hashTable slot (some { node with value := value }) }) ∨
    (hm.size < cap ∧ Exists fun slot =>
      hm.probe key cap = some slot ∧ hm.hashTable slot = none ∧
      hm' = { hm with
        hashTable := Function.update hm.hashTable slot (some { key := key, value := value })
        size := hm.size + 1 }) := by
  unfold hashSet at ran
  split at ran
  · next full =>
      cases ran
      exact Or.inl ⟨full, rfl⟩
  · next notFull =>
      have below : hm.size < cap := Int.lt_of_not_ge notFull
      cases probed : hm.probe key cap with
      | none => simp only [probed, reduceCtorEq] at ran
      | some slot =>
          simp only [probed] at ran
          cases stored : hm.hashTable slot with
          | none =>
              simp only [stored, Except.ok.injEq] at ran
              exact Or.inr (Or.inr ⟨below, slot, rfl, stored, ran.symm⟩)
          | some node =>
              simp only [stored, Except.ok.injEq] at ran
              have stop := ((hm.probe_eq_some_iff key slot).mp probed).1
              have keyEq : node.key = key := by
                rcases stop with empty | ⟨found, atSlot, same⟩
                · rw [stored] at empty
                  cases empty
                · rw [stored] at atSlot
                  cases atSlot
                  exact same
              exact Or.inr (Or.inl ⟨below, slot, node, rfl, stored, keyEq, ran.symm⟩)

/-- What `hash_delete` can do: find nothing, or empty the slot where the
probe stopped. -/
theorem hashDelete_cases {hm hm' : HashMap cap Target} {key : Int} {value : Option Target}
    (ran : hm.hashDelete key = .ok (value, hm')) :
    Exists fun slot => hm.probe key cap = some slot ∧
      ((hm.hashTable slot = none ∧ value = none ∧ hm' = hm) ∨
        Exists fun node => hm.hashTable slot = some node ∧ node.key = key ∧ value = node.value ∧
          hm' = { hm with
            hashTable := Function.update hm.hashTable slot none
            size := hm.size - 1 }) := by
  unfold hashDelete at ran
  cases probed : hm.probe key cap with
  | none => simp only [probed, reduceCtorEq] at ran
  | some slot =>
      simp only [probed] at ran
      refine ⟨slot, rfl, ?_⟩
      cases stored : hm.hashTable slot with
      | none =>
          simp only [stored, Except.ok.injEq, Prod.mk.injEq] at ran
          exact Or.inl ⟨rfl, ran.1.symm, ran.2.symm⟩
      | some node =>
          simp only [stored, Except.ok.injEq, Prod.mk.injEq] at ran
          rcases ((hm.probe_eq_some_iff key slot).mp probed).1 with empty | ⟨found, atSlot, same⟩
          · rw [stored] at empty
            cases empty
          · rw [stored] at atSlot
            cases atSlot
            exact Or.inr ⟨node, rfl, same, ran.1.symm, ran.2.symm⟩

/-- The counter stays exact under `hash_set`, whatever the table looks like. -/
theorem Counted.hashSet {hm hm' : HashMap cap Target} {key : Int} {value : Option Target}
    (counted : hm.Counted) (ran : hm.hashSet key value = .ok hm') : hm'.Counted := by
  unfold Counted at counted ⊢
  rcases hashSet_cases ran with ⟨_, same⟩ | ⟨_, slot, node, _, stored, _, same⟩ |
    ⟨_, slot, _, empty, same⟩
  · rw [same]
    exact counted
  · rw [same, occupied_update_some hm slot _ hm.size (by rw [stored]; rfl)]
    exact counted
  · have fresh : slot ∉ hm.occupied := by
      rw [mem_occupied, empty]
      simp
    rw [same, occupied_insert, Finset.card_insert_of_notMem fresh]
    simp only
    omega

theorem Counted.hashDelete {hm hm' : HashMap cap Target} {key : Int} {value : Option Target}
    (counted : hm.Counted) (ran : hm.hashDelete key = .ok (value, hm')) : hm'.Counted := by
  unfold Counted at counted ⊢
  rcases hashDelete_cases ran with ⟨slot, _, ⟨_, _, same⟩ | ⟨node, stored, _, _, same⟩⟩
  · rw [same]
    exact counted
  · have member : slot ∈ hm.occupied := by
      rw [mem_occupied, stored]
      rfl
    have positive := Finset.card_pos.mpr ⟨slot, member⟩
    rw [same, occupied_erase, Finset.card_erase_of_mem member]
    simp only
    rw [counted]
    omega

/-! ## Tables reached by calls -/

/-- A call to the table; `Value` is what `hash_set` is given. -/
inductive Call (Value : Type u) where
  | get (key : Int)
  | set (key : Int) (value : Value)
  | delete (key : Int)
  deriving DecidableEq

def Call.key {Value : Type u} : Call Value -> Int
  | .get key => key
  | .set key _ => key
  | .delete key => key

/-- The table after a call with a non-negative key and any pointer, null
included; there is none if the call does not end. -/
def stepTable (hm : HashMap cap Target) (c : Call (Option Target)) : Option (HashMap cap Target) :=
  if 0 ≤ c.key then
    match c with
    | .get key => (hm.hashGet key).toOption.map (fun _ => hm)
    | .set key value => (hm.hashSet key value).toOption
    | .delete key => (hm.hashDelete key).toOption.map Prod.snd
  else none

theorem Counted.stepTable {hm hm' : HashMap cap Target} {c : Call (Option Target)}
    (counted : hm.Counted) (taken : hm.stepTable c = some hm') : hm'.Counted := by
  unfold HashMap.stepTable at taken
  split at taken
  · cases c with
    | get key =>
        cases ran : hm.hashGet key with
        | error fault => simp [ran, Except.toOption] at taken
        | ok value =>
            simp only [ran, Except.toOption, Option.map_some, Option.some.injEq] at taken
            rw [← taken]
            exact counted
    | set key value =>
        cases ran : hm.hashSet key value with
        | error fault => simp [ran, Except.toOption] at taken
        | ok table =>
            simp only [ran, Except.toOption, Option.some.injEq] at taken
            rw [← taken]
            exact counted.hashSet ran
    | delete key =>
        cases ran : hm.hashDelete key with
        | error fault => simp [ran, Except.toOption] at taken
        | ok result =>
            simp only [ran, Except.toOption, Option.map_some, Option.some.injEq] at taken
            rw [← taken]
            exact counted.hashDelete ran
  · cases taken

/-- The counter is exact in every table that calls can reach, whatever
deletions they contain. -/
theorem counted_of_reachable {capPos : 0 < cap} {hm : HashMap cap Target}
    (reached : Run.Reachable stepTable (hashInit cap capPos) hm) : hm.Counted :=
  Run.invariant_reachable (counted_hashInit capPos)
    (fun _ _ _ counted taken => counted.stepTable taken) reached

/-! ## When the loops end -/

theorem hashGet_returns_iff (hm : HashMap cap Target) (key : Int) :
    (Exists fun value => hm.hashGet key = .ok value) <-> (hm.probe key cap).isSome := by
  unfold hashGet find
  cases probed : hm.probe key cap with
  | none => simp
  | some slot =>
      cases atSlot : hm.hashTable slot <;> simp [atSlot]

theorem hashDelete_returns_iff (hm : HashMap cap Target) (key : Int) :
    (Exists fun result => hm.hashDelete key = .ok result) <-> (hm.probe key cap).isSome := by
  unfold hashDelete
  cases probed : hm.probe key cap with
  | none => simp
  | some slot =>
      cases atSlot : hm.hashTable slot <;> simp [atSlot]

/-- With an exact counter, the loop of a lookup or a removal ends exactly
when the table is not full or the key is stored. -/
theorem Counted.probe_isSome_iff {hm : HashMap cap Target} (counted : hm.Counted) (key : Int) :
    (hm.probe key cap).isSome <-> hm.size < cap ∨ hm.Stored key := by
  rw [HashMap.probe_isSome_iff, counted.size_lt_iff]

end HashMap
end ChatHub
