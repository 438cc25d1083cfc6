import Mathlib.Logic.Function.Basic
import ChatHub.Base.Action

namespace ChatHub

/-!
# Allocated memory

Blocks of memory under addresses.  `malloc` takes an address that was never
used before, and a freed address holds nothing from then on, so any use of a
dangling pointer, a second `free` included, is a fault.  What is in a block is
a parameter.
-/

/-- The blocks under the addresses so far; those that were freed are gone. -/
structure Heap (Block : Type) where
  cells : List (Option Block)

namespace Heap

variable {Block : Type}

/-- The block under an address, if it is allocated. -/
def block (heap : Heap Block) (address : Nat) : Option Block :=
  heap.cells[address]?.join

/-- The address that `malloc` takes next. -/
def fresh (heap : Heap Block) : Nat :=
  heap.cells.length

/-- One more block. -/
def extend (heap : Heap Block) (content : Block) : Heap Block where
  cells := heap.cells ++ [some content]

/-- Another content of one address, or none. -/
def put (heap : Heap Block) (address : Nat) (content : Option Block) : Heap Block where
  cells := heap.cells.set address content

/-- `malloc`, with the first content of the block. -/
def malloc (content : Block) : Action (Heap Block) Nat := fun heap =>
  (.ok heap.fresh, heap.extend content)

/-- Read a block. -/
def load (address : Nat) : Action (Heap Block) Block := fun heap =>
  match heap.block address with
  | some content => (.ok content, heap)
  | none => (.error .useAfterFree, heap)

/-- Write a block. -/
def store (address : Nat) (content : Block) : Action (Heap Block) Unit := fun heap =>
  if (heap.block address).isSome then (.ok (), heap.put address (some content))
  else (.error .useAfterFree, heap)

/-- `free` -/
def free (address : Nat) : Action (Heap Block) Unit := fun heap =>
  if (heap.block address).isSome then (.ok (), heap.put address none)
  else (.error .useAfterFree, heap)

/-! ## What is where -/

variable {heap : Heap Block} {address : Nat} {content old : Block}

theorem lt_of_block (isBlock : heap.block address = some content) : address < heap.fresh := by
  by_contra beyond
  unfold block at isBlock
  rw [List.getElem?_eq_none (Nat.not_lt.mp beyond)] at isBlock
  cases isBlock

theorem block_fresh (heap : Heap Block) : heap.block heap.fresh = none := by
  unfold block fresh
  rw [List.getElem?_eq_none (Nat.le_refl _)]
  rfl

theorem block_extend (heap : Heap Block) (content : Block) :
    (heap.extend content).block = Function.update heap.block heap.fresh (some content) := by
  funext address
  unfold block extend fresh
  rcases Nat.lt_trichotomy address heap.cells.length with below | same | beyond
  · rw [List.getElem?_append_left below, Function.update_of_ne (Nat.ne_of_lt below)]
  · rw [same, List.getElem?_concat_length, Function.update_self]
    rfl
  · have behind : (heap.cells ++ [some content]).length ≤ address := by
      rw [List.length_append, List.length_singleton]
      exact beyond
    rw [List.getElem?_eq_none behind, Function.update_of_ne (Nat.ne_of_gt beyond),
      List.getElem?_eq_none (Nat.le_of_lt beyond)]

theorem block_put (isBlock : heap.block address = some old) (content : Option Block) :
    (heap.put address content).block = Function.update heap.block address content := by
  have below : address < heap.cells.length := lt_of_block isBlock
  funext other
  unfold block put
  by_cases same : other = address
  · rw [same, List.getElem?_set_self below, Function.update_self]
    rfl
  · rw [List.getElem?_set_ne (Ne.symm same), Function.update_of_ne same]

/-! ## Operations on allocated blocks -/

theorem load_of_block (isBlock : heap.block address = some content) :
    load address heap = (.ok content, heap) := by
  unfold load
  rw [isBlock]

theorem store_of_block (isBlock : heap.block address = some old) (content : Block) :
    store address content heap = (.ok (), heap.put address (some content)) := by
  unfold store
  rw [isBlock]
  rfl

theorem free_of_block (isBlock : heap.block address = some old) :
    free address heap = (.ok (), heap.put address none) := by
  unfold free
  rw [isBlock]
  rfl

/-- A block is allocated with one content and gets another one. -/
theorem store_fresh (heap : Heap Block) (old content : Block) :
    Exists fun after => store heap.fresh content (heap.extend old) = (.ok (), after) ∧
      after.block = Function.update heap.block heap.fresh (some content) := by
  have isBlock : (heap.extend old).block heap.fresh = some old := by
    rw [block_extend, Function.update_self]
  refine ⟨_, store_of_block isBlock content, ?_⟩
  rw [block_put isBlock, block_extend, Function.update_idem]

end Heap
end ChatHub
