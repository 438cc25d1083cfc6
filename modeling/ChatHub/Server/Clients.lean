import Mathlib.Data.List.Nodup
import Mathlib.Data.List.Perm.Basic
import ChatHub.Lib.HashTableMap

namespace ChatHub

/-!
# Connections and the client table

`server/server.c` keeps every open connection in the hash table `clients`
under its descriptor.  `listener_cb` creates the connection's bufferevent and
stores it with `connectClient`; `eventcb` removes it with `disconnectClient`
and frees it.  The kernel chooses descriptors: any non-negative number that
no open connection has.

A bufferevent is identified by a serial number, so that two connections that
get the same descriptor one after the other stay distinguishable.
-/

/-- A connection's bufferevent with what `bufferevent_getfd` returns for it. -/
structure Bufferevent where
  serial : Nat
  fd : Int
  deriving DecidableEq, Repr

/-- The connections that are open and the table they are kept in. -/
structure Clients (cap : Nat) where
  /-- accepted by `listener_cb` and not yet freed by `eventcb` -/
  opened : List Bufferevent
  clients : HashMap cap Bufferevent
  /-- how many connections were accepted so far -/
  accepted : Nat

namespace Clients

variable {cap : Nat}

/-- No connection yet, and a fresh table. -/
def init (cap : Nat) (capPos : 0 < cap) : Clients cap where
  opened := []
  clients := HashMap.hashInit cap capPos
  accepted := 0

/-- `connectClient` -/
def connectClient (clients : HashMap cap Bufferevent) (bev : Bufferevent) :
    Except Fault (HashMap cap Bufferevent) :=
  clients.hashSet bev.fd (some bev)

/-- `disconnectClient`; the removed pointer is dropped. -/
def disconnectClient (clients : HashMap cap Bufferevent) (bev : Bufferevent) :
    Except Fault (HashMap cap Bufferevent) :=
  match clients.hashDelete bev.fd with
  | .error fault => .error fault
  | .ok (_, clients') => .ok clients'

/-- `listener_cb` for an accepted descriptor. -/
def listenerCb (state : Clients cap) (fd : Int) : Except Fault (Clients cap) :=
  let bev : Bufferevent := { serial := state.accepted, fd := fd }
  match connectClient state.clients bev with
  | .error fault => .error fault
  | .ok clients' => .ok
      { opened := bev :: state.opened, clients := clients', accepted := state.accepted + 1 }

/-- `eventcb` at end of file or on an error: `disconnectClient`, then
`bufferevent_free`. -/
def eventcb (state : Clients cap) (bev : Bufferevent) : Except Fault (Clients cap) :=
  match disconnectClient state.clients bev with
  | .error fault => .error fault
  | .ok clients' => .ok { state with opened := state.opened.erase bev, clients := clients' }

/-- What happens to connections. -/
inductive Event where
  | accept (fd : Int)
  | close (bev : Bufferevent)
  deriving DecidableEq

/-- A descriptor that the kernel may hand out. -/
def FreeFd (state : Clients cap) (fd : Int) : Prop :=
  0 ≤ fd ∧ forall bev, bev ∈ state.opened -> bev.fd ≠ fd

instance (state : Clients cap) (fd : Int) : Decidable (state.FreeFd fd) :=
  inferInstanceAs (Decidable (0 ≤ fd ∧ forall bev, bev ∈ state.opened -> bev.fd ≠ fd))

/-- One connection event.  A connection is closed only while it is open, and
there is no next state if a probing loop does not end. -/
def step (state : Clients cap) : Event -> Option (Clients cap)
  | .accept fd => if state.FreeFd fd then (state.listenerCb fd).toOption else none
  | .close bev => if bev ∈ state.opened then (state.eventcb bev).toOption else none

theorem step_accept {state next : Clients cap} {fd : Int}
    (taken : state.step (.accept fd) = some next) :
    state.FreeFd fd ∧ Exists fun clients' =>
      state.clients.hashSet fd (some ⟨state.accepted, fd⟩) = .ok clients' ∧
      next = ⟨⟨state.accepted, fd⟩ :: state.opened, clients', state.accepted + 1⟩ := by
  simp only [step] at taken
  split at taken
  · next free =>
      refine ⟨free, ?_⟩
      unfold listenerCb connectClient at taken
      cases ran : state.clients.hashSet fd (some ⟨state.accepted, fd⟩) with
      | error fault => simp [ran, Except.toOption] at taken
      | ok clients' =>
          simp only [ran, Except.toOption, Option.some.injEq] at taken
          exact ⟨clients', rfl, taken.symm⟩
  · cases taken

theorem step_close {state next : Clients cap} {bev : Bufferevent}
    (taken : state.step (.close bev) = some next) :
    bev ∈ state.opened ∧ Exists fun value => Exists fun clients' =>
      state.clients.hashDelete bev.fd = .ok (value, clients') ∧
      next = { state with opened := state.opened.erase bev, clients := clients' } := by
  simp only [step] at taken
  split at taken
  · next isOpen =>
      refine ⟨isOpen, ?_⟩
      unfold eventcb disconnectClient at taken
      cases ran : state.clients.hashDelete bev.fd with
      | error fault => simp [ran, Except.toOption] at taken
      | ok result =>
          simp only [ran, Except.toOption, Option.some.injEq] at taken
          exact ⟨result.1, result.2, rfl, taken.symm⟩
  · cases taken

/-! ## Descriptors of open connections -/

/-- Open connections have different descriptors and were accepted before now. -/
structure Distinct (state : Clients cap) : Prop where
  nodup : state.opened.Nodup
  sameFd : forall left right, left ∈ state.opened -> right ∈ state.opened ->
    left.fd = right.fd -> left = right
  serials : forall bev, bev ∈ state.opened -> bev.serial < state.accepted
  nonNegative : forall bev, bev ∈ state.opened -> 0 ≤ bev.fd

theorem distinct_init (capPos : 0 < cap) : (init cap capPos).Distinct where
  nodup := List.nodup_nil
  sameFd := fun _ _ member => absurd member List.not_mem_nil
  serials := fun _ member => absurd member List.not_mem_nil
  nonNegative := fun _ member => absurd member List.not_mem_nil

theorem Distinct.step {state next : Clients cap} {event : Event} (distinct : state.Distinct)
    (taken : state.step event = some next) : next.Distinct := by
  cases event with
  | accept fd =>
      rcases step_accept taken with ⟨free, clients', _, same⟩
      subst same
      have fresh : forall bev, bev ∈ state.opened -> bev ≠ ⟨state.accepted, fd⟩ := by
        intro bev member equal
        exact free.2 bev member (congrArg Bufferevent.fd equal)
      refine ⟨List.nodup_cons.mpr ⟨fun member => fresh _ member rfl, distinct.nodup⟩, ?_, ?_, ?_⟩
      · intro left right leftMember rightMember sameFd
        rcases List.mem_cons.mp leftMember with leftNew | leftOld <;>
        rcases List.mem_cons.mp rightMember with rightNew | rightOld
        · exact leftNew.trans rightNew.symm
        · rw [leftNew] at sameFd
          exact False.elim (free.2 right rightOld sameFd.symm)
        · rw [rightNew] at sameFd
          exact False.elim (free.2 left leftOld sameFd)
        · exact distinct.sameFd left right leftOld rightOld sameFd
      · intro bev member
        rcases List.mem_cons.mp member with new | old
        · rw [new]
          exact Nat.lt_succ_self _
        · exact Nat.lt_succ_of_lt (distinct.serials bev old)
      · intro bev member
        rcases List.mem_cons.mp member with new | old
        · rw [new]
          exact free.1
        · exact distinct.nonNegative bev old
  | close bev =>
      rcases step_close taken with ⟨_, value, clients', _, same⟩
      subst same
      have sub : forall other, other ∈ state.opened.erase bev -> other ∈ state.opened :=
        fun other member => List.mem_of_mem_erase member
      exact ⟨distinct.nodup.erase bev,
        fun left right leftMember rightMember =>
          distinct.sameFd left right (sub left leftMember) (sub right rightMember),
        fun other member => distinct.serials other (sub other member),
        fun other member => distinct.nonNegative other (sub other member)⟩

/-! ## Keys and descriptors -/

/-- Every slot holds a bufferevent under the descriptor of its connection,
whether it was freed or not. -/
def Keyed (state : Clients cap) : Prop :=
  forall slot node bev, state.clients.hashTable slot = some node -> node.value = some bev ->
    bev.fd = node.key

theorem keyed_init (capPos : 0 < cap) : (init cap capPos).Keyed := by
  intro slot node bev atSlot
  cases atSlot

theorem Keyed.step {state next : Clients cap} {event : Event} (keyed : state.Keyed)
    (taken : state.step event = some next) : next.Keyed := by
  cases event with
  | accept fd =>
      rcases step_accept taken with ⟨_, clients', ran, same⟩
      subst same
      -- an update at one slot, by the new bufferevent under its own descriptor
      have updated : forall target node', node'.key = fd -> node'.value = some ⟨state.accepted, fd⟩ ->
          clients'.hashTable = Function.update state.clients.hashTable target (some node') ->
          forall slot node bev, clients'.hashTable slot = some node -> node.value = some bev ->
            bev.fd = node.key := by
        intro target node' isKey isValue sameTable slot node bev atSlot value
        rw [sameTable] at atSlot
        by_cases isTarget : slot = target
        · rw [isTarget, Function.update_self] at atSlot
          cases atSlot
          rw [isValue] at value
          cases value
          exact isKey.symm
        · rw [Function.update_of_ne isTarget] at atSlot
          exact keyed slot node bev atSlot value
      rcases HashMap.hashSet_cases ran with ⟨_, sameTable⟩ | ⟨_, target, node, _, _, nodeKey, sameTable⟩ |
        ⟨_, target, _, _, sameTable⟩
      · subst sameTable
        exact keyed
      · exact updated target ⟨node.key, some ⟨state.accepted, fd⟩⟩ nodeKey rfl
          (congrArg HashMap.hashTable sameTable)
      · exact updated target ⟨fd, some ⟨state.accepted, fd⟩⟩ rfl rfl
          (congrArg HashMap.hashTable sameTable)
  | close bev =>
      rcases step_close taken with ⟨_, value, clients', ran, same⟩
      subst same
      rcases HashMap.hashDelete_cases ran with ⟨target, _, ⟨_, _, sameTable⟩ | ⟨_, _, _, _, sameTable⟩⟩
      · subst sameTable
        exact keyed
      · intro slot node other atSlot nodeValue
        simp only [sameTable] at atSlot
        by_cases isTarget : slot = target
        · rw [isTarget, Function.update_self] at atSlot
          cases atSlot
        · rw [Function.update_of_ne isTarget] at atSlot
          exact keyed slot node other atSlot nodeValue

/-- What is looked up is the value of a slot with the key. -/
theorem node_of_hashGet {clients : HashMap cap Bufferevent} {fd : Int} {bev : Bufferevent}
    (found : clients.hashGet fd = .ok (some bev)) :
    Exists fun slot => Exists fun node =>
      clients.hashTable slot = some node ∧ node.key = fd ∧ node.value = some bev := by
  unfold HashMap.hashGet HashMap.find at found
  cases probed : clients.probe fd cap with
  | none =>
      rw [probed] at found
      cases found
  | some slot =>
      rw [probed] at found
      cases atSlot : clients.hashTable slot with
      | none =>
          simp only [atSlot] at found
          cases found
      | some node =>
          simp only [atSlot, Except.ok.injEq] at found
          refine ⟨slot, node, atSlot, ?_, found⟩
          rcases ((clients.probe_eq_some_iff fd slot).mp probed).1 with empty | ⟨other, atOther, key⟩
          · rw [atSlot] at empty
            cases empty
          · rw [atSlot] at atOther
            cases atOther
            exact key

theorem Keyed.fd_of_hashGet {state : Clients cap} (keyed : state.Keyed) {fd : Int}
    {bev : Bufferevent} (found : state.clients.hashGet fd = .ok (some bev)) : bev.fd = fd := by
  rcases node_of_hashGet found with ⟨slot, node, atSlot, key, value⟩
  exact (keyed slot node bev atSlot value).trans key

/-! ## No freed bufferevent in the table -/

/-- No slot holds a freed bufferevent, and no descriptor is in two slots. -/
def NoDangling (state : Clients cap) : Prop :=
  (forall slot node, state.clients.hashTable slot = some node ->
    Exists fun bev => bev ∈ state.opened ∧ node.value = some bev) ∧
  (forall fd left right, state.clients.StoredAt fd left -> state.clients.StoredAt fd right ->
    left = right)

/-- Every slot holds an open connection under its own descriptor, and no
descriptor is in two slots. -/
structure Sound (state : Clients cap) : Prop where
  distinct : state.Distinct
  live : forall slot node, state.clients.hashTable slot = some node ->
    Exists fun bev => bev ∈ state.opened ∧ node.value = some bev ∧ node.key = bev.fd
  once : forall fd left right, state.clients.StoredAt fd left -> state.clients.StoredAt fd right ->
    left = right

theorem Sound.noDangling {state : Clients cap} (sound : state.Sound) : state.NoDangling := by
  refine ⟨fun slot node atSlot => ?_, sound.once⟩
  rcases sound.live slot node atSlot with ⟨bev, isOpen, value, _⟩
  exact ⟨bev, isOpen, value⟩

/-- A closing connection's slot, if it has one, can be probed: no slot
between the home slot of its descriptor and that slot is empty. -/
def CloseFindsSlot (state : Clients cap) : Event -> Prop
  | .accept _ => True
  | .close bev => forall slot, state.clients.StoredAt bev.fd slot ->
      state.clients.PathOccupied bev.fd slot

theorem sound_init (capPos : 0 < cap) : (init cap capPos).Sound where
  distinct := distinct_init capPos
  live := by
    intro slot node atSlot
    cases atSlot
  once := by
    rintro fd left right ⟨node, atLeft, _⟩
    cases atLeft

/-- A lookup that ends finds an open connection with that descriptor. -/
theorem Sound.open_of_hashGet {state : Clients cap} (sound : state.Sound) {fd : Int}
    {bev : Bufferevent} (found : state.clients.hashGet fd = .ok (some bev)) :
    bev ∈ state.opened ∧ bev.fd = fd := by
  rcases node_of_hashGet found with ⟨slot, node, atSlot, key, value⟩
  rcases sound.live slot node atSlot with ⟨owner, isOpen, ownerValue, keyFd⟩
  rw [value] at ownerValue
  cases ownerValue
  exact ⟨isOpen, keyFd.symm.trans key⟩

/-- A descriptor that the kernel may hand out is stored nowhere. -/
theorem Sound.not_stored_of_free {state : Clients cap} (sound : state.Sound) {fd : Int}
    (free : state.FreeFd fd) : Not (state.clients.Stored fd) := by
  rintro ⟨slot, node, atSlot, nodeKey⟩
  rcases sound.live slot node atSlot with ⟨bev, isOpen, _, keyFd⟩
  exact free.2 bev isOpen (keyFd.symm.trans nodeKey)

theorem Sound.accept {state next : Clients cap} {fd : Int} (sound : state.Sound)
    (taken : state.step (.accept fd) = some next) : next.Sound := by
  have distinct := sound.distinct.step taken
  rcases step_accept taken with ⟨free, clients', ran, same⟩
  have absent := sound.not_stored_of_free free
  subst same
  rcases HashMap.hashSet_cases ran with ⟨_, sameTable⟩ | ⟨_, slot, node, _, atSlot, nodeKey, _⟩ |
    ⟨_, target, _, empty, sameTable⟩
  · subst sameTable
    refine ⟨distinct, ?_, sound.once⟩
    intro slot node atSlot
    rcases sound.live slot node atSlot with ⟨bev, isOpen, value, keyFd⟩
    exact ⟨bev, List.mem_cons_of_mem _ isOpen, value, keyFd⟩
  · exact False.elim (absent ⟨slot, node, atSlot, nodeKey⟩)
  · have storedIff : forall other slot, clients'.StoredAt other slot ->
        (slot = target ∧ other = fd) ∨ (slot ≠ target ∧ state.clients.StoredAt other slot) := by
      rintro other slot ⟨node, atSlot, nodeKey⟩
      rw [sameTable] at atSlot
      by_cases isTarget : slot = target
      · rw [isTarget] at atSlot
        simp only [Function.update_self, Option.some.injEq] at atSlot
        rw [← atSlot] at nodeKey
        exact Or.inl ⟨isTarget, nodeKey.symm⟩
      · simp only [Function.update_of_ne isTarget] at atSlot
        exact Or.inr ⟨isTarget, node, atSlot, nodeKey⟩
    refine ⟨distinct, ?_, ?_⟩
    · intro slot node atSlot
      simp only [sameTable] at atSlot
      by_cases isTarget : slot = target
      · rw [isTarget, Function.update_self] at atSlot
        cases atSlot
        exact ⟨⟨state.accepted, fd⟩, List.mem_cons_self, rfl, rfl⟩
      · rw [Function.update_of_ne isTarget] at atSlot
        rcases sound.live slot node atSlot with ⟨bev, isOpen, value, keyFd⟩
        exact ⟨bev, List.mem_cons_of_mem _ isOpen, value, keyFd⟩
    · intro other left right storedLeft storedRight
      rcases storedIff other left storedLeft with ⟨leftEq, leftKey⟩ | ⟨_, oldLeft⟩ <;>
      rcases storedIff other right storedRight with ⟨rightEq, rightKey⟩ | ⟨_, oldRight⟩
      · exact leftEq.trans rightEq.symm
      · exact False.elim (absent ⟨right, leftKey ▸ oldRight⟩)
      · exact False.elim (absent ⟨left, rightKey ▸ oldLeft⟩)
      · exact sound.once other left right oldLeft oldRight

/-- The probe of a stored descriptor without a gap before it ends at its slot. -/
theorem Sound.probe_of_path {state : Clients cap} (sound : state.Sound) {fd : Int}
    {slot : Fin cap} (stored : state.clients.StoredAt fd slot)
    (path : state.clients.PathOccupied fd slot) : state.clients.probe fd cap = some slot := by
  rw [HashMap.probe_eq_some_iff]
  refine ⟨Or.inr stored, fun earlier closer => ⟨path earlier closer, fun storedEarlier => ?_⟩⟩
  rw [sound.once fd earlier slot storedEarlier stored] at closer
  exact Nat.lt_irrefl _ closer

theorem Sound.close {state next : Clients cap} {bev : Bufferevent} (sound : state.Sound)
    (finds : state.CloseFindsSlot (.close bev))
    (taken : state.step (.close bev) = some next) : next.Sound := by
  have distinct := sound.distinct.step taken
  rcases step_close taken with ⟨isOpen, value, clients', ran, same⟩
  subst same
  rcases HashMap.hashDelete_cases ran with ⟨target, probed, ⟨empty, _, sameTable⟩ |
    ⟨held, atTarget, heldKey, _, sameTable⟩⟩
  · have absent : Not (state.clients.Stored bev.fd) := by
      rintro ⟨slot, stored⟩
      have found := sound.probe_of_path stored (finds slot stored)
      rw [probed] at found
      cases found
      rcases stored with ⟨node, atSlot, _⟩
      rw [empty] at atSlot
      cases atSlot
    subst sameTable
    refine ⟨distinct, ?_, sound.once⟩
    intro slot node atSlot
    rcases sound.live slot node atSlot with ⟨other, otherOpen, nodeValue, keyFd⟩
    have different : other ≠ bev := by
      intro equal
      rw [equal] at keyFd
      exact absent ⟨slot, node, atSlot, keyFd⟩
    exact ⟨other, (List.mem_erase_of_ne different).mpr otherOpen, nodeValue, keyFd⟩
  · have keeps : forall slot node, clients'.hashTable slot = some node ->
        slot ≠ target ∧ state.clients.hashTable slot = some node := by
      intro slot node atSlot
      rw [sameTable] at atSlot
      by_cases isTarget : slot = target
      · rw [isTarget] at atSlot
        simp at atSlot
      · simp only [Function.update_of_ne isTarget] at atSlot
        exact ⟨isTarget, atSlot⟩
    refine ⟨distinct, ?_, ?_⟩
    · intro slot node atSlot
      rcases keeps slot node atSlot with ⟨slotNe, atOld⟩
      rcases sound.live slot node atOld with ⟨other, otherOpen, nodeValue, keyFd⟩
      have different : other ≠ bev := by
        intro equal
        rw [equal] at keyFd
        exact slotNe (sound.once bev.fd slot target ⟨node, atOld, keyFd⟩ ⟨held, atTarget, heldKey⟩)
      exact ⟨other, (List.mem_erase_of_ne different).mpr otherOpen, nodeValue, keyFd⟩
    · rintro other left right ⟨leftNode, atLeft, leftKey⟩ ⟨rightNode, atRight, rightKey⟩
      exact sound.once other left right ⟨leftNode, (keeps left leftNode atLeft).2, leftKey⟩
        ⟨rightNode, (keeps right rightNode atRight).2, rightKey⟩

theorem Sound.step {state next : Clients cap} {event : Event} (sound : state.Sound)
    (finds : state.CloseFindsSlot event) (taken : state.step event = some next) : next.Sound := by
  cases event with
  | accept fd => exact sound.accept taken
  | close bev => exact sound.close finds taken

/-- A close that meets a gap before the connection's slot leaves the freed
bufferevent in that slot. -/
theorem Sound.close_dangles {state next : Clients cap} {event : Event} (sound : state.Sound)
    (gap : Not (state.CloseFindsSlot event)) (taken : state.step event = some next) :
    Not next.NoDangling := by
  cases event with
  | accept fd => exact False.elim (gap trivial)
  | close bev =>
      unfold CloseFindsSlot at gap
      push Not at gap
      rcases gap with ⟨slot, ⟨node, atSlot, nodeKey⟩, notPath⟩
      rcases step_close taken with ⟨isOpen, value, clients', ran, same⟩
      subst same
      rcases sound.live slot node atSlot with ⟨owner, ownerOpen, nodeValue, keyFd⟩
      have isBev : owner = bev :=
        sound.distinct.sameFd owner bev ownerOpen isOpen (keyFd.symm.trans nodeKey)
      rw [isBev] at nodeValue
      have remains : clients'.hashTable slot = some node := by
        rcases HashMap.hashDelete_cases ran with ⟨target, probed, ⟨_, _, sameTable⟩ |
          ⟨held, atTarget, heldKey, _, _⟩⟩
        · rw [sameTable]
          exact atSlot
        · have sameSlot := sound.once bev.fd slot target ⟨node, atSlot, nodeKey⟩
            ⟨held, atTarget, heldKey⟩
          rw [sameSlot] at notPath
          exact False.elim (notPath (fun earlier closer =>
            (((state.clients.probe_eq_some_iff bev.fd target).mp probed).2 earlier closer).1))
      rintro ⟨live, _⟩
      rcases live slot node remains with ⟨found, foundOpen, foundValue⟩
      rw [nodeValue] at foundValue
      cases foundValue
      exact (sound.distinct.nodup.not_mem_erase) foundOpen

/-- Along every run of accepts and closes, the table never holds a freed
bufferevent and never a descriptor twice exactly when every close finds the
slot of its connection.  This needs no bound on the number of connections:
one that a full table rejected is in no slot. -/
theorem noDangling_iff_closes_find_slots (capPos : 0 < cap) (events : List Event) :
    Run.Always step NoDangling (init cap capPos) events <->
      Run.Guarded step CloseFindsSlot (init cap capPos) events := by
  refine Run.always_iff_guarded Sound (fun _ => True) (sound_init capPos) ?_ ?_ ?_
    (Run.invariant trivial (fun _ _ _ _ _ => trivial) events)
  · exact fun state sound _ => sound.noDangling
  · exact fun state event next sound _ _ finds taken => sound.step finds taken
  · exact fun state event next sound _ _ gap taken => sound.close_dangles gap taken

/-- Descriptors 5 and 1029 share their home slot in the server's table. -/
def collidingEvents : List Event :=
  [.accept 5, .accept 1029, .close ⟨0, 5⟩, .close ⟨1, 1029⟩]

theorem noDangling_iff_at_collidingEvents :
    Run.Always step NoDangling (init 1024 (by decide)) collidingEvents <->
      Run.Guarded step CloseFindsSlot (init 1024 (by decide)) collidingEvents :=
  noDangling_iff_closes_find_slots (by decide) collidingEvents

/-- The second close does not reach slot 6, which keeps the freed bufferevent. -/
theorem collidingEvents_dangle :
    Run.Always step (fun state => state.opened.length < 1024)
        (init 1024 (by decide)) collidingEvents ∧
      Not (Run.Always step NoDangling (init 1024 (by decide)) collidingEvents) := by
  constructor
  · refine Run.always_cons (by decide) rfl (Run.always_cons (by decide) rfl
      (Run.always_cons (by decide) rfl (Run.always_cons (by decide) rfl ?_)))
    exact (by decide : 0 < 1024)
  · intro always
    rcases (always.finish rfl).1 6 ⟨1029, some ⟨1, 1029⟩⟩ rfl with ⟨bev, isOpen, _⟩
    exact absurd isOpen List.not_mem_nil

/-! ## When lookups and removals end -/

theorem disconnectClient_returns_iff (clients : HashMap cap Bufferevent) (bev : Bufferevent) :
    (Exists fun clients' => disconnectClient clients bev = .ok clients') <->
      (clients.probe bev.fd cap).isSome := by
  rw [← HashMap.hashDelete_returns_iff]
  unfold disconnectClient
  constructor
  · rintro ⟨clients', returned⟩
    cases ran : clients.hashDelete bev.fd with
    | error fault => simp only [ran, reduceCtorEq] at returned
    | ok result => exact ⟨result, rfl⟩
  · rintro ⟨result, returned⟩
    exact ⟨result.2, by simp only [returned]⟩

/-- In every table that calls can reach, the probing loop, `hash_get`,
`hash_delete` and `disconnectClient` end for a descriptor exactly when the
table is not full or the descriptor is stored. -/
theorem loops_end_iff (capPos : 0 < cap) {clients : HashMap cap Bufferevent}
    (reached : Run.Reachable HashMap.stepTable (HashMap.hashInit cap capPos) clients)
    (bev : Bufferevent) (_nonNegative : 0 ≤ bev.fd) :
    ((Exists fun steps => (clients.probe bev.fd steps).isSome) ∧
      (Exists fun value => clients.hashGet bev.fd = .ok value) ∧
      (Exists fun result => clients.hashDelete bev.fd = .ok result) ∧
      (Exists fun clients' => disconnectClient clients bev = .ok clients')) <->
    clients.size < cap ∨ clients.Stored bev.fd := by
  have counted := HashMap.counted_of_reachable reached
  rw [HashMap.hashGet_returns_iff, HashMap.hashDelete_returns_iff,
    disconnectClient_returns_iff, HashMap.probe_terminates_iff, ← HashMap.probe_isSome_iff,
    counted.probe_isSome_iff]
  exact ⟨fun ends => ends.1, fun condition => ⟨condition, condition, condition, condition⟩⟩

/-- A table of one slot that holds descriptor 4. -/
def fullTable : HashMap 1 Bufferevent where
  hashTable := Function.update (fun _ => none) 0 (some ⟨4, some ⟨0, 4⟩⟩)
  size := 1
  capPos := by decide

theorem fullTable_reachable :
    Run.Reachable HashMap.stepTable (HashMap.hashInit 1 (by decide)) fullTable :=
  ⟨[.set 4 (some ⟨0, 4⟩)], rfl⟩

theorem loops_end_iff_at_fullTable :
    ((Exists fun steps => (fullTable.probe 4 steps).isSome) ∧
      (Exists fun value => fullTable.hashGet 4 = .ok value) ∧
      (Exists fun result => fullTable.hashDelete 4 = .ok result) ∧
      (Exists fun clients' => disconnectClient fullTable ⟨0, 4⟩ = .ok clients')) <->
    fullTable.size < 1 ∨ fullTable.Stored 4 :=
  loops_end_iff (by decide) fullTable_reachable ⟨0, 4⟩ (by decide)

/-- The connection with descriptor 5 that this table rejected makes the
lookup and the removal run forever, and with them `disconnectClient`. -/
theorem fullTable_loops_forever :
    Run.Reachable HashMap.stepTable (HashMap.hashInit 1 (by decide)) fullTable ∧
      connectClient fullTable ⟨1, 5⟩ = .ok fullTable ∧
      (forall steps, fullTable.probe 5 steps = none) ∧
      fullTable.hashGet 5 = .error .endlessLoop ∧
      fullTable.hashDelete 5 = .error .endlessLoop ∧
      disconnectClient fullTable ⟨1, 5⟩ = .error .endlessLoop :=
  ⟨fullTable_reachable, rfl, (fullTable.probe_eq_none_iff 5).mp rfl, rfl, rfl, rfl⟩

end Clients
end ChatHub
