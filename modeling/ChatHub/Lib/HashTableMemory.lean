import Mathlib.Algebra.Group.Nat.Defs
import ChatHub.Base.Heap
import ChatHub.Lib.HashTable

namespace ChatHub

/-!
# The hash table in memory

The functions of `lib/hashtable.c` with their pointers: the map, the array of
slots and every node are blocks of their own, which are allocated, used and
freed.  `HashMap` has the nodes in the slots instead.  It is what the pointers
represent: every call with a key that has an absolute value gives the same
answer there, or the same fault, and what others have in memory is left alone.
-/

namespace HashMemory

open ChatHub.Action

variable {Target : Type}

/-- The blocks that the functions allocate. -/
inductive Block (Target : Type) where
  /-- a block that nothing was written to -/
  | raw
  /-- the struct `HashMap` -/
  | map (hashTable : Nat) (cap size : Int)
  /-- an array of pointers, where `none` is the null pointer -/
  | array (slots : List (Option Nat))
  | node (node : HashNode Target)

/-- Memory with blocks of the table among others. -/
abbrev Memory (Target : Type) := Heap (Block Target)

/-! ## Access to the blocks -/

/-- The fields of the struct `HashMap`. -/
def loadMap (hm : Nat) : Action (Memory Target) (Nat × Int × Int) := do
  match <- Heap.load hm with
  | .map hashTable cap size => return (hashTable, cap, size)
  | _ => fail .useAfterFree

/-- The fields of a node. -/
def loadNode (address : Nat) : Action (Memory Target) (HashNode Target) := do
  match <- Heap.load address with
  | .node node => return node
  | _ => fail .useAfterFree

/-- The array of slots. -/
def loadArray (ht : Nat) : Action (Memory Target) (List (Option Nat)) := do
  match <- Heap.load ht with
  | .array slots => return slots
  | _ => fail .useAfterFree

/-- `ht[h]` -/
def loadSlot (ht h : Nat) : Action (Memory Target) (Option Nat) := do
  let slots <- loadArray ht
  match slots[h]? with
  | some pointer => return pointer
  | none => fail .overread

/-- `ht[h] = pointer` -/
def storeSlot (ht h : Nat) (pointer : Option Nat) : Action (Memory Target) Unit := do
  let slots <- loadArray ht
  if h < slots.length then Heap.store ht (.array (slots.set h pointer)) else fail .overflow

/-! ## The functions -/

/-- `hash_init` -/
def hashInit (cap : Nat) : Action (Memory Target) Nat := do
  let hm <- Heap.malloc .raw
  let ht <- Heap.malloc (.array (List.replicate cap none))
  Heap.store hm (.map ht cap 0)
  return hm

/-- The loop of `hash_destroy` from slot `i` on, for the remaining slots. -/
def freeNodes (ht : Nat) : Nat -> Nat -> Action (Memory Target) Unit
  | 0, _ => pure ()
  | count + 1, i => do
      match <- loadSlot ht i with
      | some hn => Heap.free hn
      | none => pure ()
      freeNodes ht count (i + 1)

/-- `hash_destroy` -/
def hashDestroy (hm : Nat) : Action (Memory Target) Unit := do
  let (ht, cap, _) <- loadMap hm
  freeNodes ht cap.toNat 0
  Heap.free ht
  Heap.free hm

/-- The loop of `find`, `hash_set` and `hash_delete` from slot `h` on: the
slot that it leaves, and the pointer in it, which is null or leads to a node
with the key.  The loop changes nothing, so after `steps` slots, one round, it
goes on forever. -/
def probeFrom (ht : Nat) (cap : Int) (key : Int) : Nat -> Nat ->
    Action (Memory Target) (Nat × Option Nat)
  | 0, _ => fail .endlessLoop
  | steps + 1, h => do
      match <- loadSlot ht h with
      | none => return (h, none)
      | some address => do
          let node <- loadNode address
          if node.key ≠ key then
            probeFrom ht cap key steps (if (h : Int) < cap - 1 then h + 1 else 0)
          else return (h, some address)

/-- The key has an absolute value of type `int`, which the least `int` has not. -/
def Hashable (key : Int) : Prop :=
  key.natAbs < 2 ^ 31

instance (key : Int) : Decidable (Hashable key) :=
  inferInstanceAs (Decidable (_ < _))

/-- `abs` -/
def abs (key : Int) : Except Fault Nat :=
  if Hashable key then .ok key.natAbs else .error .conversion

theorem abs_of_hashable {key : Int} (hashable : Hashable key) : abs key = .ok key.natAbs :=
  if_pos hashable

/-- The loop from `abs(key) % cap` on. -/
def probe (ht : Nat) (cap : Int) (key : Int) : Action (Memory Target) (Nat × Option Nat) := do
  let magnitude <- ofExcept (abs key)
  probeFrom ht cap key cap.toNat (magnitude % cap.toNat)

/-- `find` -/
def find (hm : Nat) (key : Int) : Action (Memory Target) (Option Nat) := do
  let (ht, cap, _) <- loadMap hm
  let found <- probe ht cap key
  return found.2

/-- `hash_get` -/
def hashGet (hm : Nat) (key : Int) : Action (Memory Target) (Option Target) := do
  match <- find hm key with
  | none => return none
  | some address => do
      let node <- loadNode address
      return node.value

/-- `hash_set` -/
def hashSet (hm : Nat) (key : Int) (value : Option Target) : Action (Memory Target) Unit := do
  let (ht, cap, size) <- loadMap hm
  if size ≥ cap then pure ()
  else
    match <- probe ht cap key with
    | (_, some address) => do
        let node <- loadNode address
        Heap.store address (.node { node with value := value })
    | (h, none) => do
        let address <- Heap.malloc .raw
        Heap.store address (.node { key := key, value := value })
        storeSlot ht h (some address)
        Heap.store hm (.map ht cap (size + 1))

/-- `hash_delete` -/
def hashDelete (hm : Nat) (key : Int) : Action (Memory Target) (Option Target) := do
  let (ht, cap, size) <- loadMap hm
  match <- probe ht cap key with
  | (_, none) => return none
  | (h, some address) => do
      let node <- loadNode address
      Heap.free address
      storeSlot ht h none
      Heap.store hm (.map ht cap (size - 1))
      return node.value

/-- A call of `hash_get`, `hash_set` or `hash_delete`; `hash_set` returns
nothing. -/
def call (hm : Nat) : HashMap.Call (Option Target) -> Action (Memory Target) (Option Target)
  | .get key => hashGet hm key
  | .set key value => do
      hashSet hm key value
      return none
  | .delete key => hashDelete hm key

/-! ## What the blocks represent -/

/-- The blocks of a table: the struct, the array, and a node for every slot
that is not empty. -/
structure Represents {cap : Nat} (blocks : Nat -> Option (Block Target)) (hm ht : Nat)
    (slots : List (Option Nat)) (table : HashMap cap Target) : Prop where
  map : blocks hm = some (.map ht cap table.size)
  array : blocks ht = some (.array slots)
  length : slots.length = cap
  nodes : forall slot : Fin cap,
    (slots[slot.val]? = some none ∧ table.hashTable slot = none) ∨
    Exists fun address => Exists fun node => slots[slot.val]? = some (some address) ∧
      blocks address = some (.node node) ∧ table.hashTable slot = some node
  separate : forall left right address : Nat, slots[left]? = some (some address) ->
    slots[right]? = some (some address) -> left = right

/-- The address of a block of the table. -/
def Belongs (hm ht : Nat) (slots : List (Option Nat)) (address : Nat) : Prop :=
  address = hm ∨ address = ht ∨ some address ∈ slots

/-- Memory consists of the blocks of a table and the blocks of others. -/
def Owns {cap : Nat} (heap : Memory Target) (hm : Nat) (table : HashMap cap Target)
    (others : Nat -> Option (Block Target)) : Prop :=
  Exists fun ht => Exists fun slots => Represents heap.block hm ht slots table ∧
    (forall address, Belongs hm ht slots address -> others address = none) ∧
    forall address, Not (Belongs hm ht slots address) -> heap.block address = others address

/-- The functions return the same value, and memory consists of the new table
and the blocks of others as before; or they stop at the same fault. -/
inductive Agrees {cap : Nat} {Value : Type} (hm : Nat) (others : Nat -> Option (Block Target)) :
    Except Fault Value × Memory Target -> Except Fault (Value × HashMap cap Target) -> Prop where
  | returns {value : Value} {heap : Memory Target} {table : HashMap cap Target}
      (owns : Owns heap hm table others) : Agrees hm others (.ok value, heap) (.ok (value, table))
  | faults (fault : Fault) (heap : Memory Target) :
      Agrees hm others (.error fault, heap) (.error fault)

/-- A call on the table with the nodes in the slots. -/
def callTable {cap : Nat} (table : HashMap cap Target) :
    HashMap.Call (Option Target) -> Except Fault (Option Target × HashMap cap Target)
  | .get key => (table.hashGet key).map (fun value => (value, table))
  | .set key value => (table.hashSet key value).map (fun after => (none, after))
  | .delete key => table.hashDelete key

section Access

variable {cap : Nat} {heap : Memory Target} {hm ht : Nat} {slots : List (Option Nat)}
  {table : HashMap cap Target} {key : Int}

theorem loadMap_of_block {hashTable : Nat} {capacity size : Int}
    (isBlock : heap.block hm = some (.map hashTable capacity size)) :
    loadMap hm heap = (.ok (hashTable, capacity, size), heap) := by
  unfold loadMap
  rw [bind_of_ok (Heap.load_of_block isBlock)]
  rfl

theorem loadNode_of_block {address : Nat} {node : HashNode Target}
    (isBlock : heap.block address = some (.node node)) :
    loadNode address heap = (.ok node, heap) := by
  unfold loadNode
  rw [bind_of_ok (Heap.load_of_block isBlock)]
  rfl

theorem loadArray_of_block (isBlock : heap.block ht = some (.array slots)) :
    loadArray ht heap = (.ok slots, heap) := by
  unfold loadArray
  rw [bind_of_ok (Heap.load_of_block isBlock)]
  rfl

theorem loadSlot_of_block (isBlock : heap.block ht = some (.array slots)) {h : Nat}
    {pointer : Option Nat} (atSlot : slots[h]? = some pointer) :
    loadSlot ht h heap = (.ok pointer, heap) := by
  unfold loadSlot
  rw [bind_of_ok (loadArray_of_block isBlock), atSlot]
  rfl

theorem storeSlot_of_block (isBlock : heap.block ht = some (.array slots)) {h : Nat}
    (inside : h < slots.length) (pointer : Option Nat) :
    storeSlot ht h pointer heap = (.ok (), heap.put ht (some (.array (slots.set h pointer)))) := by
  unfold storeSlot
  rw [bind_of_ok (loadArray_of_block isBlock), if_pos inside]
  exact Heap.store_of_block isBlock _

/-! ## The loop -/

theorem next_val (slot : Fin cap) :
    (if (slot.val : Int) < cap - 1 then slot.val + 1 else 0) = (Circular.next slot).val := by
  unfold Circular.next
  by_cases below : slot.val + 1 < cap
  · rw [dif_pos below, if_pos (by omega)]
  · rw [dif_neg below, if_neg (by omega)]

/-- The loop walks around the table that the blocks represent. -/
theorem probeFrom_eq (represents : Represents heap.block hm ht slots table) (steps : Nat)
    (slot : Fin cap) : probeFrom ht cap key steps slot heap =
      ((Circular.walk (table.stops key) steps slot).elim (.error .endlessLoop)
        (fun stop => .ok (stop.val, slots[stop.val]?.join)), heap) := by
  induction steps generalizing slot with
  | zero => rfl
  | succ steps inductionHypothesis =>
      unfold probeFrom Circular.walk
      rcases represents.nodes slot with ⟨atSlot, inTable⟩ | ⟨address, node, atSlot, isNode, inTable⟩
      · have stops : table.stops key slot = true := by
          unfold HashMap.stops
          rw [inTable]
        rw [bind_of_ok (loadSlot_of_block represents.array atSlot), if_pos stops, Option.elim_some,
          atSlot]
        rfl
      · have stops : table.stops key slot = (node.key == key) := by
          unfold HashMap.stops
          rw [inTable]
        rw [bind_of_ok (loadSlot_of_block represents.array atSlot), stops]
        simp only
        rw [bind_of_ok (loadNode_of_block isNode)]
        by_cases isKey : node.key = key
        · rw [if_neg (not_not.mpr isKey), if_pos (beq_iff_eq.mpr isKey), Option.elim_some, atSlot]
          rfl
        · rw [if_pos isKey, next_val, inductionHypothesis, if_neg (by rw [beq_iff_eq]; exact isKey)]

theorem probe_eq (represents : Represents heap.block hm ht slots table) (hashable : Hashable key) :
    probe ht cap key heap = ((table.probe key cap).elim (.error .endlessLoop)
      (fun stop => .ok (stop.val, slots[stop.val]?.join)), heap) := by
  unfold probe
  rw [bind_ofExcept (abs_of_hashable hashable)]
  exact probeFrom_eq represents cap (table.home key)

end Access

/-! ## Changes of the blocks -/

section Changes

variable {cap : Nat} {blocks : Nat -> Option (Block Target)} {hm ht : Nat}
  {slots : List (Option Nat)} {table : HashMap cap Target} {slot : Fin cap} {address : Nat}

theorem ne_of_blocks {left right : Nat} {first second : Option (Block Target)}
    (isFirst : blocks left = first) (isSecond : blocks right = second)
    (different : first ≠ second) : left ≠ right := by
  intro same
  rw [← isFirst, ← isSecond, same] at different
  exact different rfl

theorem Represents.hm_ne_ht (represents : Represents blocks hm ht slots table) : hm ≠ ht :=
  ne_of_blocks represents.map represents.array (by simp)

theorem Represents.node_ne (represents : Represents blocks hm ht slots table)
    {node : HashNode Target} (isNode : blocks address = some (.node node)) :
    address ≠ hm ∧ address ≠ ht :=
  ⟨ne_of_blocks isNode represents.map (by simp), ne_of_blocks isNode represents.array (by simp)⟩

theorem Represents.unused_ne (represents : Represents blocks hm ht slots table)
    (unused : blocks address = none) : address ≠ hm ∧ address ≠ ht :=
  ⟨ne_of_blocks unused represents.map (by simp), ne_of_blocks unused represents.array (by simp)⟩

/-- A pointer in the array leads to a node in the table. -/
theorem Represents.node_of_pointer (represents : Represents blocks hm ht slots table) {h : Nat}
    (atSlot : slots[h]? = some (some address)) : Exists fun slot : Fin cap => Exists fun node =>
      slot.val = h ∧ blocks address = some (.node node) ∧ table.hashTable slot = some node := by
  have inside : h < cap := by
    rw [← represents.length]
    exact (List.getElem?_eq_some_iff.mp atSlot).1
  rcases represents.nodes ⟨h, inside⟩ with ⟨isEmpty, _⟩ | ⟨other, node, isOther, isNode, inTable⟩
  · rw [atSlot] at isEmpty
    cases isEmpty
  · rw [atSlot] at isOther
    cases isOther
    exact ⟨⟨h, inside⟩, node, rfl, isNode, inTable⟩

/-- The node under a pointer has another content. -/
theorem Represents.replace (represents : Represents blocks hm ht slots table)
    (atSlot : slots[slot.val]? = some (some address)) (node : HashNode Target) :
    Represents (Function.update blocks address (some (.node node))) hm ht slots
      { table with hashTable := Function.update table.hashTable slot (some node) } := by
  rcases represents.node_of_pointer atSlot with ⟨same, old, isSlot, isNode, _⟩
  have isSame : same = slot := Fin.ext isSlot
  rcases represents.node_ne isNode with ⟨notMap, notArray⟩
  refine ⟨?_, ?_, represents.length, fun other => ?_, represents.separate⟩
  · rw [Function.update_of_ne notMap.symm]
    exact represents.map
  · rw [Function.update_of_ne notArray.symm]
    exact represents.array
  · by_cases isOther : other = slot
    · subst isOther
      exact Or.inr ⟨address, node, atSlot, Function.update_self .., Function.update_self ..⟩
    · simp only [Function.update_of_ne isOther]
      rcases represents.nodes other with isEmpty | ⟨address', node', atOther, isNode', inTable⟩
      · exact Or.inl isEmpty
      · have different : address' ≠ address := by
          intro sameAddress
          rw [sameAddress] at atOther
          exact isOther (Fin.ext (represents.separate _ _ _ atOther atSlot))
        rw [← Function.update_of_ne different (some (Block.node node)) blocks] at isNode'
        exact Or.inr ⟨address', node', atOther, isNode', inTable⟩

/-- The struct and the array after a change of the table. -/
def rewritten (blocks : Nat -> Option (Block Target)) (hm ht : Nat) (cap size : Int)
    (slots : List (Option Nat)) : Nat -> Option (Block Target) :=
  Function.update (Function.update blocks ht (some (.array slots))) hm (some (.map ht cap size))

theorem rewritten_of_ne {capacity size : Int} {other : Nat} (notMap : other ≠ hm)
    (notArray : other ≠ ht) : rewritten blocks hm ht capacity size slots other = blocks other := by
  unfold rewritten
  rw [Function.update_of_ne notMap, Function.update_of_ne notArray]

/-- A slot gets a pointer that no other slot has, and the nodes of the other
slots are kept. -/
theorem Represents.rewrite (represents : Represents blocks hm ht slots table)
    {other : Nat -> Option (Block Target)} {pointer : Option Nat} {content : Option (HashNode Target)}
    (size : Int)
    (kept : forall h address node, h ≠ slot.val -> slots[h]? = some (some address) ->
      blocks address = some (.node node) -> other address = some (.node node))
    (isNew : forall address, pointer = some address ->
      address ≠ hm ∧ address ≠ ht ∧ forall h : Nat, slots[h]? ≠ some (some address))
    (isContent : pointer = none ∧ content = none ∨ Exists fun address => Exists fun node =>
      pointer = some address ∧ other address = some (.node node) ∧ content = some node) :
    Represents (rewritten other hm ht cap size (slots.set slot pointer)) hm ht (slots.set slot pointer)
      { table with
        hashTable := Function.update table.hashTable slot content
        size := size } := by
  have inside : slot.val < slots.length := by
    rw [represents.length]
    exact slot.isLt
  refine ⟨Function.update_self .., ?_, ?_, fun next => ?_, fun left right address atLeft atRight => ?_⟩
  · unfold rewritten
    rw [Function.update_of_ne represents.hm_ne_ht.symm, Function.update_self]
  · rw [List.length_set]
    exact represents.length
  · by_cases isSlot : next = slot
    · subst isSlot
      rw [List.getElem?_set_self inside]
      simp only [Function.update_self, Option.some.injEq]
      rcases isContent with isEmpty | ⟨address, node, isPointer, isNode, inTable⟩
      · exact Or.inl isEmpty
      · rcases isNew address isPointer with ⟨notMap, notArray, _⟩
        exact Or.inr ⟨address, node, isPointer, (rewritten_of_ne notMap notArray).trans isNode, inTable⟩
    · have notSlot : next.val ≠ slot.val := fun same => isSlot (Fin.ext same)
      simp only [Function.update_of_ne isSlot, List.getElem?_set_ne notSlot.symm]
      rcases represents.nodes next with isEmpty | ⟨address, node, atNext, isNode, inTable⟩
      · exact Or.inl isEmpty
      · rcases represents.node_ne isNode with ⟨notMap, notArray⟩
        exact Or.inr ⟨address, node, atNext,
          (rewritten_of_ne notMap notArray).trans (kept _ _ _ notSlot atNext isNode), inTable⟩
  · rw [List.getElem?_set] at atLeft atRight
    split at atLeft <;> split at atRight
    · next isLeft isRight => exact isLeft.symm.trans isRight
    · rw [Option.some.injEq] at atLeft
      exact absurd atRight ((isNew address atLeft).2.2 right)
    · rw [Option.some.injEq] at atRight
      exact absurd atLeft ((isNew address atRight).2.2 left)
    · exact represents.separate left right address atLeft atRight

/-- An empty slot gets a pointer to a new node. -/
theorem Represents.insert (represents : Represents blocks hm ht slots table)
    (unused : blocks address = none) (node : HashNode Target) :
    Represents (rewritten (Function.update blocks address (some (.node node))) hm ht cap
        (table.size + 1) (slots.set slot (some address))) hm ht (slots.set slot (some address))
      { table with
        hashTable := Function.update table.hashTable slot (some node)
        size := table.size + 1 } := by
  rcases represents.unused_ne unused with ⟨notMap, notArray⟩
  apply represents.rewrite
  · intro h used old _ _ isNode
    rw [Function.update_of_ne (ne_of_blocks isNode unused (by simp))]
    exact isNode
  · intro same isAddress
    cases isAddress
    refine ⟨notMap, notArray, fun h atOther => ?_⟩
    rcases represents.node_of_pointer atOther with ⟨_, _, _, isNode, _⟩
    rw [unused] at isNode
    cases isNode
  · exact Or.inr ⟨address, node, rfl, Function.update_self .., rfl⟩

/-- A slot is emptied and its node is freed. -/
theorem Represents.remove (represents : Represents blocks hm ht slots table)
    (atSlot : slots[slot.val]? = some (some address)) :
    Represents (rewritten (Function.update blocks address none) hm ht cap (table.size - 1)
        (slots.set slot none)) hm ht (slots.set slot none)
      { table with
        hashTable := Function.update table.hashTable slot none
        size := table.size - 1 } := by
  apply represents.rewrite
  · intro h used node notSlot atOther isNode
    have different : used ≠ address := by
      intro same
      rw [same] at atOther
      exact notSlot (represents.separate _ _ _ atOther atSlot)
    rw [Function.update_of_ne different]
    exact isNode
  · exact fun _ never => nomatch never
  · exact Or.inl ⟨rfl, rfl⟩

end Changes

/-! ## Calls -/

section Calls

variable {cap : Nat} {heap : Memory Target} {hm ht : Nat} {slots : List (Option Nat)}
  {table : HashMap cap Target} {others : Nat -> Option (Block Target)} {slot : Fin cap}

/-- A pointer is written into the array, and the struct is updated. -/
theorem rewrite_run {old : Int} (notSame : hm ≠ ht)
    (map : heap.block hm = some (.map ht cap old)) (array : heap.block ht = some (.array slots))
    {h : Nat} (inside : h < slots.length) (pointer : Option Nat) (size : Int) :
    Exists fun middle => Exists fun after => storeSlot ht h pointer heap = (.ok (), middle) ∧
      Heap.store hm (.map ht cap size) middle = (.ok (), after) ∧
      after.block = rewritten heap.block hm ht cap size (slots.set h pointer) := by
  have blocks := Heap.block_put array (some (.array (slots.set h pointer)))
  have mapThere : (heap.put ht (some (.array (slots.set h pointer)))).block hm =
      some (.map ht cap old) := by
    rw [blocks, Function.update_of_ne notSame]
    exact map
  refine ⟨_, _, storeSlot_of_block array inside pointer, Heap.store_of_block mapThere _, ?_⟩
  rw [Heap.block_put mapThere, blocks]
  rfl

theorem hashGet_eq (represents : Represents heap.block hm ht slots table) {key : Int}
    (hashable : Hashable key) : hashGet hm key heap = (table.hashGet key, heap) := by
  have probed := probe_eq represents hashable
  have found : find hm key heap = ((table.probe key cap).elim (.error .endlessLoop)
      (fun stop => .ok slots[stop.val]?.join), heap) := by
    unfold find
    rw [bind_of_ok (loadMap_of_block represents.map)]
    cases walked : table.probe key cap with
    | none =>
        rw [walked] at probed
        exact bind_of_error probed
    | some stop =>
        rw [walked] at probed
        exact bind_of_ok probed
  unfold hashGet HashMap.hashGet HashMap.find
  cases walked : table.probe key cap with
  | none =>
      rw [walked] at found
      exact bind_of_error found
  | some stop =>
      rw [walked, Option.elim_some] at found
      rcases represents.nodes stop with ⟨atSlot, inTable⟩ | ⟨address, node, atSlot, isNode, inTable⟩
      · rw [atSlot] at found
        rw [bind_of_ok found]
        simp only [inTable]
        rfl
      · rw [atSlot] at found
        rw [bind_of_ok found]
        simp only [inTable, Option.join_some]
        rw [bind_of_ok (loadNode_of_block isNode)]
        rfl

/-- Another slot keeps its pointer. -/
theorem mem_set_of_ne {address h : Nat} {pointer : Option Nat} (isMember : some address ∈ slots)
    (elsewhere : slots[h]? ≠ some (some address)) : some address ∈ slots.set h pointer := by
  rcases List.mem_iff_getElem?.mp isMember with ⟨index, atIndex⟩
  have different : h ≠ index := by
    intro same
    rw [same] at elsewhere
    exact elsewhere atIndex
  apply List.mem_of_getElem?
  rw [List.getElem?_set_ne different]
  exact atIndex

/-- The struct and the array are rewritten after the blocks of the nodes
changed. -/
theorem owns_of_rewritten {after : Memory Target} {next : HashMap cap Target} {size : Int}
    {blocks : Nat -> Option (Block Target)} {changed : List (Option Nat)}
    (isAfter : after.block = rewritten blocks hm ht cap size changed)
    (represents : Represents (rewritten blocks hm ht cap size changed) hm ht changed next)
    (apart : others hm = none ∧ others ht = none)
    (unused : forall address, some address ∈ changed -> others address = none)
    (kept : forall address, address ≠ hm -> address ≠ ht -> some address ∉ changed ->
      blocks address = others address) : Owns after hm next others := by
  refine ⟨ht, changed, ?_, ?_, fun address notBelongs => ?_⟩
  · rw [isAfter]
    exact represents
  · rintro address (isMap | isArray | isNode)
    · rw [isMap]
      exact apart.1
    · rw [isArray]
      exact apart.2
    · exact unused address isNode
  · have notMap : address ≠ hm := fun same => notBelongs (Or.inl same)
    have notArray : address ≠ ht := fun same => notBelongs (Or.inr (Or.inl same))
    rw [isAfter, rewritten_of_ne notMap notArray]
    exact kept address notMap notArray (fun isNode => notBelongs (Or.inr (Or.inr isNode)))

/-- A node is allocated for an empty slot. -/
theorem insert_run (represents : Represents heap.block hm ht slots table)
    (apart : forall address, Belongs hm ht slots address -> others address = none)
    (frame : forall address, Not (Belongs hm ht slots address) ->
      heap.block address = others address)
    (atSlot : slots[slot.val]? = some none) (node : HashNode Target) :
    Exists fun stored => Exists fun middle => Exists fun after =>
      Heap.store heap.fresh (.node node) (heap.extend .raw) = (.ok (), stored) ∧
      storeSlot ht slot (some heap.fresh) stored = (.ok (), middle) ∧
      Heap.store hm (.map ht cap (table.size + 1)) middle = (.ok (), after) ∧
      Owns after hm { table with
        hashTable := Function.update table.hashTable slot (some node)
        size := table.size + 1 } others := by
  have unused := Heap.block_fresh heap
  rcases represents.unused_ne unused with ⟨notMap, notArray⟩
  rcases Heap.store_fresh heap .raw (.node node) with ⟨stored, isStored, blocks⟩
  have inside : slot.val < slots.length := by
    rw [represents.length]
    exact slot.isLt
  have map : stored.block hm = some (.map ht cap table.size) := by
    rw [blocks, Function.update_of_ne notMap.symm]
    exact represents.map
  have array : stored.block ht = some (.array slots) := by
    rw [blocks, Function.update_of_ne notArray.symm]
    exact represents.array
  rcases rewrite_run represents.hm_ne_ht map array inside (some heap.fresh) (table.size + 1) with
    ⟨middle, after, isMiddle, isAfter, blocksAfter⟩
  rw [blocks] at blocksAfter
  have freshUnused : others heap.fresh = none := by
    by_cases belongs : Belongs hm ht slots heap.fresh
    · exact apart _ belongs
    · rw [← frame _ belongs]
      exact unused
  refine ⟨stored, middle, after, isStored, isMiddle, isAfter,
    owns_of_rewritten blocksAfter (represents.insert unused node)
      ⟨apart _ (Or.inl rfl), apart _ (Or.inr (Or.inl rfl))⟩ ?_ ?_⟩
  · intro address isNode
    rcases List.mem_or_eq_of_mem_set isNode with old | new
    · exact apart _ (Or.inr (Or.inr old))
    · cases new
      exact freshUnused
  · intro address otherThanMap otherThanArray notNode
    have notFresh : address ≠ heap.fresh := by
      intro same
      rw [same] at notNode
      exact notNode (List.mem_set inside _)
    rw [Function.update_of_ne notFresh]
    apply frame
    rintro (isMap | isArray | old)
    · exact otherThanMap isMap
    · exact otherThanArray isArray
    · exact notNode (mem_set_of_ne old (by rw [atSlot]; simp))

/-- The node of a slot is freed. -/
theorem remove_run (represents : Represents heap.block hm ht slots table)
    (apart : forall address, Belongs hm ht slots address -> others address = none)
    (frame : forall address, Not (Belongs hm ht slots address) ->
      heap.block address = others address) {address : Nat} {node : HashNode Target}
    (atSlot : slots[slot.val]? = some (some address))
    (isNode : heap.block address = some (.node node)) :
    Exists fun freed => Exists fun middle => Exists fun after =>
      Heap.free address heap = (.ok (), freed) ∧
      storeSlot ht slot none freed = (.ok (), middle) ∧
      Heap.store hm (.map ht cap (table.size - 1)) middle = (.ok (), after) ∧
      Owns after hm { table with
        hashTable := Function.update table.hashTable slot none
        size := table.size - 1 } others := by
  rcases represents.node_ne isNode with ⟨notMap, notArray⟩
  have blocks := Heap.block_put isNode none
  have inside : slot.val < slots.length := by
    rw [represents.length]
    exact slot.isLt
  have map : (heap.put address none).block hm = some (.map ht cap table.size) := by
    rw [blocks, Function.update_of_ne notMap.symm]
    exact represents.map
  have array : (heap.put address none).block ht = some (.array slots) := by
    rw [blocks, Function.update_of_ne notArray.symm]
    exact represents.array
  rcases rewrite_run represents.hm_ne_ht map array inside none (table.size - 1) with
    ⟨middle, after, isMiddle, isAfter, blocksAfter⟩
  rw [blocks] at blocksAfter
  refine ⟨_, middle, after, Heap.free_of_block isNode, isMiddle, isAfter,
    owns_of_rewritten blocksAfter (represents.remove atSlot)
      ⟨apart _ (Or.inl rfl), apart _ (Or.inr (Or.inl rfl))⟩ ?_ ?_⟩
  · intro other isOther
    rcases List.mem_or_eq_of_mem_set isOther with old | new
    · exact apart _ (Or.inr (Or.inr old))
    · cases new
  · intro other otherThanMap otherThanArray notNode
    by_cases isFreed : other = address
    · rw [isFreed, Function.update_self]
      exact (apart _ (Or.inr (Or.inr (List.mem_of_getElem? atSlot)))).symm
    · rw [Function.update_of_ne isFreed]
      apply frame
      rintro (isMap | isArray | old)
      · exact otherThanMap isMap
      · exact otherThanArray isArray
      · refine notNode (mem_set_of_ne old ?_)
        rw [atSlot]
        intro same
        cases same
        exact isFreed rfl

/-- A full table is left alone; otherwise a node is replaced or added. -/
theorem hashSet_agrees (owns : Owns heap hm table others) {key : Int} (hashable : Hashable key)
    (value : Option Target) : Agrees hm others (hashSet hm key value heap)
      ((table.hashSet key value).map (fun after => ((), after))) := by
  rcases owns with ⟨ht, slots, represents, apart, frame⟩
  unfold hashSet HashMap.hashSet
  rw [bind_of_ok (loadMap_of_block represents.map)]
  simp only
  by_cases full : table.size ≥ cap
  · rw [if_pos full, if_pos full]
    exact Agrees.returns ⟨ht, slots, represents, apart, frame⟩
  rw [if_neg full, if_neg full]
  have probed := probe_eq represents hashable
  cases walked : table.probe key cap with
  | none =>
      rw [walked] at probed
      rw [bind_of_error probed]
      exact Agrees.faults _ _
  | some slot =>
      rw [walked, Option.elim_some] at probed
      rw [bind_of_ok probed]
      rcases represents.nodes slot with ⟨atSlot, inTable⟩ | ⟨address, node, atSlot, isNode, inTable⟩
      · rcases insert_run represents apart frame atSlot ⟨key, value⟩ with
          ⟨stored, middle, after, isStored, isMiddle, isAfter, owns⟩
        have isMalloc : Heap.malloc .raw heap = (.ok heap.fresh, heap.extend .raw) := rfl
        simp only [atSlot, inTable, Option.join_some]
        rw [bind_of_ok isMalloc, bind_of_ok isStored, bind_of_ok isMiddle, isAfter]
        exact Agrees.returns owns
      · simp only [atSlot, inTable, Option.join_some]
        rw [bind_of_ok (loadNode_of_block isNode), Heap.store_of_block isNode]
        refine Agrees.returns ⟨ht, slots, ?_, apart, fun other notBelongs => ?_⟩
        · rw [Heap.block_put isNode]
          exact represents.replace atSlot _
        · have different : other ≠ address := by
            intro same
            rw [same] at notBelongs
            exact notBelongs (Or.inr (Or.inr (List.mem_of_getElem? atSlot)))
          rw [Heap.block_put isNode, Function.update_of_ne different]
          exact frame other notBelongs

/-- The node is freed after its value was read. -/
theorem hashDelete_agrees (owns : Owns heap hm table others) {key : Int} (hashable : Hashable key) :
    Agrees hm others (hashDelete hm key heap) (table.hashDelete key) := by
  rcases owns with ⟨ht, slots, represents, apart, frame⟩
  unfold hashDelete HashMap.hashDelete
  rw [bind_of_ok (loadMap_of_block represents.map)]
  simp only
  have probed := probe_eq represents hashable
  cases walked : table.probe key cap with
  | none =>
      rw [walked] at probed
      rw [bind_of_error probed]
      exact Agrees.faults _ _
  | some slot =>
      rw [walked, Option.elim_some] at probed
      rw [bind_of_ok probed]
      rcases represents.nodes slot with ⟨atSlot, inTable⟩ | ⟨address, node, atSlot, isNode, inTable⟩
      · simp only [atSlot, inTable, Option.join_some]
        exact Agrees.returns ⟨ht, slots, represents, apart, frame⟩
      · rcases remove_run represents apart frame atSlot isNode with
          ⟨freed, middle, after, isFreed, isMiddle, isAfter, owns⟩
        simp only [atSlot, inTable, Option.join_some]
        rw [bind_of_ok (loadNode_of_block isNode), bind_of_ok isFreed, bind_of_ok isMiddle,
          bind_of_ok isAfter]
        exact Agrees.returns owns

theorem call_agrees (owns : Owns heap hm table others) {c : HashMap.Call (Option Target)}
    (hashable : Hashable c.key) : Agrees hm others (call hm c heap) (callTable table c) := by
  cases c with
  | get key =>
      change Hashable key at hashable
      rcases owns with ⟨ht, slots, represents, apart, frame⟩
      unfold call callTable
      simp only
      rw [hashGet_eq represents hashable]
      cases table.hashGet key with
      | error fault => exact Agrees.faults _ _
      | ok value => exact Agrees.returns ⟨ht, slots, represents, apart, frame⟩
  | set key value =>
      change Hashable key at hashable
      have agrees := hashSet_agrees owns hashable value
      unfold call callTable
      simp only
      cases ran : hashSet hm key value heap with
      | mk outcome after =>
          rw [ran] at agrees
          cases called : table.hashSet key value with
          | error fault =>
              rw [called] at agrees
              cases agrees
              rw [bind_of_error ran]
              exact Agrees.faults _ _
          | ok next =>
              rw [called] at agrees
              cases agrees with
              | returns owns =>
                  rw [bind_of_ok ran]
                  exact Agrees.returns owns
  | delete key => exact hashDelete_agrees owns hashable

end Calls

end HashMemory
end ChatHub
