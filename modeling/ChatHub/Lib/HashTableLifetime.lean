import ChatHub.Base.Run
import ChatHub.Lib.HashTableMemory

namespace ChatHub

/-!
# The life of a hash table

From `hash_init` to `hash_destroy`, between the calls of a program that has
other blocks in memory: the table always represents what the calls made of it,
and in the end every block of it is freed once, and no other block.
-/

namespace HashMemory

open ChatHub.Action

variable {Target : Type}

/-- A running program with a table.  `others` and `table` record what the rest
of the program has in memory, and what the table holds. -/
structure Session (cap : Nat) (Target : Type) where
  heap : Memory Target
  hm : Nat
  table : HashMap cap Target
  others : Nat -> Option (Block Target)

/-- What happens in the program. -/
inductive Event (Target : Type) where
  | call (c : HashMap.Call (Option Target))
  /-- the rest of the program allocates a block -/
  | allocate (content : Block Target)
  /-- the rest of the program writes a block of its own, or frees it -/
  | change (address : Nat) (content : Option (Block Target))

/-- One step, unless the key has no absolute value, the call does not return,
or the rest of the program touches a block that is not its own. -/
def step {cap : Nat} (session : Session cap Target) : Event Target -> Option (Session cap Target)
  | .call c =>
      if Hashable c.key then
        match call session.hm c session.heap, callTable session.table c with
        | (.ok _, after), .ok (_, next) => some { session with heap := after, table := next }
        | _, _ => none
      else none
  | .allocate content => some { session with
      heap := session.heap.extend content
      others := Function.update session.others session.heap.fresh (some content) }
  | .change address content =>
      if (session.others address).isSome then some { session with
        heap := session.heap.put address content
        others := Function.update session.others address content }
      else none

/-- Every next call whose key has an absolute value does what it does on
`table` and leaves the blocks of others alone; and if the table is destroyed,
exactly these blocks are left. -/
structure Faithful {cap : Nat} (session : Session cap Target) : Prop where
  calls : forall c, Hashable c.key -> Agrees session.hm session.others
    (call session.hm c session.heap) (callTable session.table c)
  destroyed : Exists fun after => hashDestroy session.hm session.heap = (.ok (), after) ∧
    after.block = session.others

/-! ## The beginning and the end -/

section Whole

variable {cap : Nat} {heap : Memory Target} {hm ht : Nat} {slots : List (Option Nat)}
  {table : HashMap cap Target} {others : Nat -> Option (Block Target)}

/-- `hash_init` adds two blocks, and no slot has a pointer. -/
theorem hashInit_owns (capPos : 0 < cap) (heap : Memory Target) :
    Exists fun hm => Exists fun after => hashInit cap heap = (.ok hm, after) ∧
      Owns after hm (HashMap.hashInit cap capPos) heap.block := by
  let first := heap.extend .raw
  let second := first.extend (.array (List.replicate cap none))
  have blocksFirst : first.block = Function.update heap.block heap.fresh (some .raw) :=
    Heap.block_extend heap _
  have blocksSecond : second.block = Function.update first.block first.fresh
      (some (.array (List.replicate cap none))) := Heap.block_extend first _
  have isRaw : first.block heap.fresh = some .raw := by
    rw [blocksFirst, Function.update_self]
  have different : first.fresh ≠ heap.fresh :=
    ne_of_blocks (Heap.block_fresh first) isRaw (by simp)
  have isMap : second.block heap.fresh = some .raw := by
    rw [blocksSecond, Function.update_of_ne different.symm]
    exact isRaw
  have isArray : second.block first.fresh = some (.array (List.replicate cap none)) := by
    rw [blocksSecond, Function.update_self]
  have blocks := Heap.block_put isMap (some (.map first.fresh cap 0))
  have isMalloc : Heap.malloc .raw heap = (.ok heap.fresh, first) := rfl
  have isCalloc : Heap.malloc (.array (List.replicate cap none)) first = (.ok first.fresh, second) :=
    rfl
  refine ⟨heap.fresh, second.put heap.fresh (some (.map first.fresh cap 0)), ?_, first.fresh,
    List.replicate cap none, ⟨?_, ?_, List.length_replicate, fun slot => ?_, ?_⟩, ?_, fun address notBelongs => ?_⟩
  · unfold hashInit
    rw [bind_of_ok isMalloc, bind_of_ok isCalloc, bind_of_ok (Heap.store_of_block isMap _)]
    rfl
  · rw [blocks, Function.update_self]
    rfl
  · rw [blocks, Function.update_of_ne different]
    exact isArray
  · exact Or.inl ⟨List.getElem?_replicate_of_lt slot.isLt, rfl⟩
  · intro left _ address atLeft
    cases List.eq_of_mem_replicate (List.mem_of_getElem? atLeft)
  · rintro address (isHm | isHt | isNode)
    · rw [isHm]
      exact Heap.block_fresh heap
    · have unused := Heap.block_fresh first
      rw [blocksFirst, Function.update_of_ne different] at unused
      rw [isHt]
      exact unused
    · cases List.eq_of_mem_replicate isNode
  · have notMap : address ≠ heap.fresh := fun same => notBelongs (Or.inl same)
    have notArray : address ≠ first.fresh := fun same => notBelongs (Or.inr (Or.inl same))
    rw [blocks, Function.update_of_ne notMap, blocksSecond, Function.update_of_ne notArray,
      blocksFirst, Function.update_of_ne notMap]

/-- The blocks without those under the pointers. -/
def released (blocks : Nat -> Option (Block Target)) (pointers : List (Option Nat)) :
    Nat -> Option (Block Target) :=
  fun address => if some address ∈ pointers then none else blocks address

theorem released_none (blocks : Nat -> Option (Block Target)) (pointers : List (Option Nat)) :
    released blocks (none :: pointers) = released blocks pointers := by
  funext address
  unfold released
  simp only [List.mem_cons, reduceCtorEq, false_or]

theorem released_some (blocks : Nat -> Option (Block Target)) (address : Nat)
    (pointers : List (Option Nat)) : released blocks (some address :: pointers) =
      released (Function.update blocks address none) pointers := by
  funext other
  unfold released
  by_cases same : other = address
  · rw [same, Function.update_self, if_pos List.mem_cons_self, ite_self]
  · simp only [List.mem_cons, Option.some.injEq, same, false_or, Function.update_of_ne same]

/-- The loop of `hash_destroy` frees every node once. -/
theorem freeNodes_run
    (separate : forall left right address : Nat, slots[left]? = some (some address) ->
      slots[right]? = some (some address) -> left = right) (count i : Nat)
    (isLength : i + count = slots.length) (heap : Memory Target)
    (array : heap.block ht = some (.array slots))
    (nodes : forall address, some address ∈ slots.drop i ->
      Exists fun node => heap.block address = some (.node node)) :
    Exists fun after => freeNodes ht count i heap = (.ok (), after) ∧
      after.block = released heap.block (slots.drop i) := by
  induction count generalizing i heap with
  | zero =>
      refine ⟨heap, rfl, ?_⟩
      have isEnd : slots.length ≤ i := by omega
      rw [List.drop_eq_nil_of_le isEnd]
      rfl
  | succ count inductionHypothesis =>
      have inside : i < slots.length := by omega
      have atSlot := List.getElem?_eq_getElem inside
      have isDrop := List.drop_eq_getElem_cons inside
      unfold freeNodes
      rw [bind_of_ok (loadSlot_of_block array atSlot), isDrop]
      cases pointer : slots[i] with
      | none =>
          rcases inductionHypothesis (i + 1) (by omega) heap array (fun address isNode =>
            nodes address (by rw [isDrop]; exact List.mem_cons_of_mem _ isNode)) with
            ⟨after, ran, blocks⟩
          refine ⟨after, ran, ?_⟩
          rw [released_none]
          exact blocks
      | some address =>
          rw [pointer] at atSlot isDrop
          rcases nodes address (by rw [isDrop]; exact List.mem_cons_self) with ⟨node, isNode⟩
          have blocks := Heap.block_put isNode none
          have notArray : ht ≠ address := ne_of_blocks array isNode (by simp)
          have arrayThere : (heap.put address none).block ht = some (.array slots) := by
            rw [blocks, Function.update_of_ne notArray]
            exact array
          have nodesThere : forall other, some other ∈ slots.drop (i + 1) ->
              Exists fun node => (heap.put address none).block other = some (.node node) := by
            intro other isOther
            rcases List.mem_iff_getElem?.mp isOther with ⟨index, atIndex⟩
            have different : other ≠ address := by
              intro same
              rw [List.getElem?_drop, same] at atIndex
              have := separate _ _ _ atIndex atSlot
              omega
            rw [blocks, Function.update_of_ne different]
            exact nodes other (by rw [isDrop]; exact List.mem_cons_of_mem _ isOther)
          rcases inductionHypothesis (i + 1) (by omega) (heap.put address none) arrayThere
            nodesThere with ⟨after, ran, blocksAfter⟩
          refine ⟨after, (bind_of_ok (Heap.free_of_block isNode)).trans ran, ?_⟩
          rw [blocksAfter, blocks, released_some]

/-- `hash_destroy` frees the blocks of the table and no others. -/
theorem hashDestroy_run (owns : Owns heap hm table others) :
    Exists fun after => hashDestroy hm heap = (.ok (), after) ∧ after.block = others := by
  rcases owns with ⟨ht, slots, represents, apart, frame⟩
  have nodes : forall address, some address ∈ slots ->
      Exists fun node => heap.block address = some (.node node) := by
    intro address isMember
    rcases List.mem_iff_getElem?.mp isMember with ⟨h, atSlot⟩
    rcases represents.node_of_pointer atSlot with ⟨_, node, _, isNode, _⟩
    exact ⟨node, isNode⟩
  have notPointer : forall address block, heap.block address = some block ->
      (forall node, block ≠ .node node) -> some address ∉ slots := by
    intro address block isBlock notNode isMember
    rcases nodes address isMember with ⟨node, isNode⟩
    rw [isBlock] at isNode
    exact notNode node (Option.some.inj isNode)
  rcases freeNodes_run represents.separate cap 0 (by rw [represents.length, Nat.zero_add]) heap
    represents.array nodes with ⟨middle, ran, blocks⟩
  rw [List.drop_zero] at blocks
  have arrayThere : middle.block ht = some (.array slots) := by
    rw [blocks]
    unfold released
    rw [if_neg (notPointer _ _ represents.array (by simp))]
    exact represents.array
  have blocksNext := Heap.block_put arrayThere none
  have mapThere : (middle.put ht none).block hm = some (.map ht cap table.size) := by
    rw [blocksNext, Function.update_of_ne represents.hm_ne_ht, blocks]
    unfold released
    rw [if_neg (notPointer _ _ represents.map (by simp))]
    exact represents.map
  refine ⟨(middle.put ht none).put hm none, ?_, ?_⟩
  · unfold hashDestroy
    rw [bind_of_ok (loadMap_of_block represents.map)]
    simp only [Int.toNat_natCast]
    rw [bind_of_ok ran, bind_of_ok (Heap.free_of_block arrayThere)]
    exact Heap.free_of_block mapThere
  · funext address
    rw [Heap.block_put mapThere, blocksNext, blocks]
    by_cases isMap : address = hm
    · rw [isMap, Function.update_self]
      exact (apart _ (Or.inl rfl)).symm
    rw [Function.update_of_ne isMap]
    by_cases isArray : address = ht
    · rw [isArray, Function.update_self]
      exact (apart _ (Or.inr (Or.inl rfl))).symm
    rw [Function.update_of_ne isArray]
    unfold released
    by_cases isNode : some address ∈ slots
    · rw [if_pos isNode]
      exact (apart _ (Or.inr (Or.inr isNode))).symm
    · rw [if_neg isNode]
      apply frame
      rintro (same | same | same)
      · exact isMap same
      · exact isArray same
      · exact isNode same

end Whole

/-! ## Whole programs -/

section Programs

variable {cap : Nat} {session : Session cap Target}

theorem Represents.isSome_of_belongs {blocks : Nat -> Option (Block Target)} {hm ht : Nat}
    {slots : List (Option Nat)} {table : HashMap cap Target}
    (represents : Represents blocks hm ht slots table) {address : Nat}
    (belongs : Belongs hm ht slots address) : (blocks address).isSome := by
  rcases belongs with isMap | isArray | isNode
  · rw [isMap, represents.map]
    rfl
  · rw [isArray, represents.array]
    rfl
  · rcases List.mem_iff_getElem?.mp isNode with ⟨h, atSlot⟩
    rcases represents.node_of_pointer atSlot with ⟨_, node, _, isNode, _⟩
    rw [isNode]
    rfl

/-- Another block is changed. -/
theorem Represents.elsewhere {blocks : Nat -> Option (Block Target)} {hm ht : Nat}
    {slots : List (Option Nat)} {table : HashMap cap Target}
    (represents : Represents blocks hm ht slots table) {address : Nat}
    (outside : Not (Belongs hm ht slots address)) (content : Option (Block Target)) :
    Represents (Function.update blocks address content) hm ht slots table := by
  have kept : forall other, Belongs hm ht slots other ->
      Function.update blocks address content other = blocks other := by
    intro other belongs
    apply Function.update_of_ne
    intro same
    rw [same] at belongs
    exact outside belongs
  refine ⟨?_, ?_, represents.length, fun slot => ?_, represents.separate⟩
  · rw [kept hm (Or.inl rfl)]
    exact represents.map
  · rw [kept ht (Or.inr (Or.inl rfl))]
    exact represents.array
  · rcases represents.nodes slot with isEmpty | ⟨other, node, atSlot, isNode, inTable⟩
    · exact Or.inl isEmpty
    · refine Or.inr ⟨other, node, atSlot, ?_, inTable⟩
      rw [kept other (Or.inr (Or.inr (List.mem_of_getElem? atSlot)))]
      exact isNode

/-- A block that is not of the table is changed. -/
theorem Owns.elsewhere {heap after : Memory Target} {hm address : Nat} {table : HashMap cap Target}
    {others : Nat -> Option (Block Target)} {content : Option (Block Target)}
    (owns : Owns heap hm table others)
    (outside : heap.block address = none ∨ (others address).isSome)
    (isAfter : after.block = Function.update heap.block address content) :
    Owns after hm table (Function.update others address content) := by
  rcases owns with ⟨ht, slots, represents, apart, frame⟩
  have notBelongs : Not (Belongs hm ht slots address) := by
    intro belongs
    rcases outside with unused | isOther
    · have used := represents.isSome_of_belongs belongs
      rw [unused] at used
      cases used
    · rw [apart _ belongs] at isOther
      cases isOther
  refine ⟨ht, slots, ?_, fun other belongs => ?_, fun other otherNot => ?_⟩
  · rw [isAfter]
    exact represents.elsewhere notBelongs content
  · have different : other ≠ address := by
      intro same
      rw [same] at belongs
      exact notBelongs belongs
    rw [Function.update_of_ne different]
    exact apart other belongs
  · rw [isAfter]
    by_cases same : other = address
    · rw [same, Function.update_self, Function.update_self]
    · rw [Function.update_of_ne same, Function.update_of_ne same]
      exact frame other otherNot

theorem Owns.block_of_other {heap : Memory Target} {hm address : Nat} {table : HashMap cap Target}
    {others : Nat -> Option (Block Target)} {content : Block Target}
    (owns : Owns heap hm table others) (isOther : others address = some content) :
    heap.block address = some content := by
  rcases owns with ⟨ht, slots, _, apart, frame⟩
  rw [frame, isOther]
  intro belongs
  rw [apart _ belongs] at isOther
  cases isOther

/-- Memory consists of the table and of what the rest of the program has. -/
def Split (session : Session cap Target) : Prop :=
  Owns session.heap session.hm session.table session.others

theorem Split.step {session next : Session cap Target} {event : Event Target} (owns : Split session)
    (taken : step session event = some next) : Split next := by
  cases event with
  | call c =>
      unfold HashMemory.step at taken
      simp only [Option.ite_none_right_eq_some] at taken
      rcases taken with ⟨hashable, taken⟩
      have agrees := call_agrees owns hashable
      cases ran : call session.hm c session.heap with
      | mk outcome after =>
          rw [ran] at agrees taken
          cases called : callTable session.table c with
          | error fault =>
              rw [called] at agrees taken
              cases agrees
              cases taken
          | ok result =>
              rw [called] at agrees taken
              cases agrees with
              | returns owns =>
                  cases taken
                  exact owns
  | allocate content =>
      cases taken
      exact owns.elsewhere (Or.inl (Heap.block_fresh _)) (Heap.block_extend _ _)
  | change address content =>
      unfold HashMemory.step at taken
      simp only at taken
      split at taken
      · next isOther =>
          cases taken
          rcases Option.isSome_iff_exists.mp isOther with ⟨old, isOld⟩
          exact owns.elsewhere (Or.inr isOther) (Heap.block_put (owns.block_of_other isOld) content)
      · cases taken

/-- From `hash_init` on, whatever the program does with keys that have an
absolute value and with its own blocks, the table in memory behaves like the table with its nodes in the
slots, and `hash_destroy` gives back all that it allocated. -/
theorem faithful_from_hashInit (capPos : 0 < cap) (heap : Memory Target) :
    Exists fun hm => Exists fun after => hashInit cap heap = (.ok hm, after) ∧
      forall events, Run.Always step Faithful
        ⟨after, hm, HashMap.hashInit cap capPos, heap.block⟩ events := by
  rcases hashInit_owns capPos heap with ⟨hm, after, isInit, owns⟩
  refine ⟨hm, after, isInit, fun events => ?_⟩
  have split : Split ⟨after, hm, HashMap.hashInit cap capPos, heap.block⟩ := owns
  have keeps : forall (session : Session cap Target) event next, Split session ->
      step session event = some next -> Split next := fun _ _ _ => Split.step
  have always := Run.invariant split keeps events
  exact always.mono fun _ split => ⟨fun _ => call_agrees split, hashDestroy_run split⟩

/-- The table of the server. -/
theorem faithful_from_hashInit_server :
    Exists fun hm => Exists fun after =>
      hashInit 1024 (⟨[]⟩ : Memory Nat) = (.ok hm, after) ∧
        forall events, Run.Always step Faithful
          ⟨after, hm, HashMap.hashInit 1024 (by decide), (⟨[]⟩ : Memory Nat).block⟩ events :=
  faithful_from_hashInit (by decide) ⟨[]⟩

end Programs

end HashMemory
end ChatHub
