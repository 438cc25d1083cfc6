import ChatHub.Server.ExactlyOnce

namespace ChatHub

/-!
# What a chat message stores

The loop of `handleChat` saves the message in every round that does not lead
back to the sender.  So the number of records does not follow the messages
but the descriptors that are looked up: there is one for each of them, and
none if nobody else is online.
-/

namespace Dao

open ChatHub.Action

/-- The message is saved again and again, each time as the last time left it. -/
def saveTimes : Nat -> Message -> Action Db Message
  | 0, message => pure message
  | count + 1, message => do
      let saved <- saveMessage message.groupId message
      saveTimes count saved.2

/-- The counter of the chatroom moved on, and a record of the message was
added, maybe with a new send time.  Nothing else changed. -/
def AddsRecord (before after : Redis.Store) (message : Message) : Prop :=
  Exists fun last => Exists fun msgId => Exists fun time =>
    Redis.counterAt before (nextMsgIdKey message.groupId) = some last ∧
    Redis.counterAt after (nextMsgIdKey message.groupId) = some (last + 1) ∧
    before.lookup (messageKey message.groupId msgId) = none ∧
    after.lookup (messageKey message.groupId msgId) =
      some (.hash (recordOf { message with sendTime := time })) ∧
    forall key, key ≠ nextMsgIdKey message.groupId -> key ≠ messageKey message.groupId msgId ->
      after.lookup key = before.lookup key

/-- The counter is not at the end of its range, and its next number is not
the error code and has no record. -/
def NextUnused (store : Redis.Store) (chatroomId : Int) : Prop :=
  Exists fun last => Redis.counterAt store (nextMsgIdKey chatroomId) = some last ∧
    last < 2 ^ 63 - 1 ∧ toInt32 (last + 1) ≠ errorNormal ∧
    store.lookup (messageKey chatroomId (zeroExtended (toInt32 (last + 1)))) = none

/-- What saving a message a number of times does to the keys of its chatroom:
the counter moves on as often, if its range allows it, and no record is added
at the end of the range. -/
structure Draws (before after : Redis.Store) (chatroomId last : Int) (count : Nat) : Prop where
  counter : Redis.counterAt after (nextMsgIdKey chatroomId) = some (min (last + count) (2 ^ 63 - 1))
  vain : 2 ^ 63 - 2 ≤ last -> forall msgId,
    after.lookup (messageKey chatroomId msgId) = before.lookup (messageKey chatroomId msgId)

/-- Commands are answered normally, and every key holds its kind of value. -/
structure Kinded (db : Db) : Prop where
  normal : db.Normal
  kinds : Redis.WellKinded kindOf db.store

section Saving

variable {db : Db} {message : Message}

theorem Kinded.counter (kinded : Kinded db) (chatroomId : Int) :
    Exists fun last => Redis.counterAt db.store (nextMsgIdKey chatroomId) = some last := by
  have isCounter : kindOf (nextMsgIdKey chatroomId) = .counter :=
    kindOf_room chatroomId (Or.inr ⟨_, rfl⟩)
  have holds := kinded.kinds (nextMsgIdKey chatroomId)
  rw [isCounter] at holds
  exact Option.isSome_iff_exists.mp holds

theorem Kinded.record (kinded : Kinded db) (chatroomId msgId : Int) :
    Exists fun fields => Redis.hashAt db.store (messageKey chatroomId msgId) = some fields := by
  have holds := kinded.kinds (messageKey chatroomId msgId)
  rw [kindOf_messageKey] at holds
  exact Option.isSome_iff_exists.mp holds

theorem Kinded.saveMessage (kinded : Kinded db) (chatroomId : Int) (message : Message) :
    Kinded (saveMessage chatroomId message db).2 := by
  have preserved : forall store command, Saves chatroomId command ->
      Redis.WellKinded kindOf store -> Redis.WellKinded kindOf (Redis.exec store command).2 := by
    intro store command saves holds
    refine holds.exec (fun key kind isNeeded => ?_)
    have uses : Uses (fun _ => True) (fun _ => True) key kind := saves.uses trivial isNeeded
    exact uses.kindOf
  have kept := (saveMessage_composed chatroomId message).keeps preserved kinded.kinds
  exact ⟨kinded.normal.of_outcome kept.1, kept.2⟩

theorem lookup_counted (store : Redis.Store) (chatroomId other msgId next : Int) :
    (counted store chatroomId next).lookup (messageKey other msgId) =
      store.lookup (messageKey other msgId) :=
  AList.lookup_insert_ne (messageKey_ne_nextMsgIdKey chatroomId other msgId)

/-- One save. -/
theorem saveMessage_draws (kinded : Kinded db) {last : Int}
    (counter : Redis.counterAt db.store (nextMsgIdKey message.groupId) = some last) :
    Exists fun result => Exists fun left => Exists fun after =>
      saveMessage message.groupId message db = (.ok (result, left), after) ∧
      left.groupId = message.groupId ∧ Draws db.store after.store message.groupId last 1 := by
  have range := Redis.counterAt_range counter
  by_cases full : last = 2 ^ 63 - 1
  · subst full
    refine ⟨_, _, _, saveMessage_full kinded.normal counter message, rfl, ?_, fun _ _ => rfl⟩
    rw [counter]
    rfl
  have room : last < 2 ^ 63 - 1 := by omega
  have next : min (last + (1 : Nat)) (2 ^ 63 - 1) = last + 1 := by omega
  have moved := @counted_counter db.store message.groupId (last + 1) (by omega) (by omega)
  by_cases bad : toInt32 (last + 1) = errorNormal
  · refine ⟨_, _, _, saveMessage_refused kinded.normal counter room bad message, rfl, ?_, ?_⟩
    · rw [next]
      exact moved
    · exact fun _ msgId => lookup_counted db.store message.groupId message.groupId msgId (last + 1)
  · rcases kinded.record message.groupId (zeroExtended (toInt32 (last + 1))) with ⟨fields, record⟩
    rcases saveMessage_stores kinded.normal counter room bad record message with
      ⟨after, left, ran, ⟨isMessage, _⟩, _, store⟩
    refine ⟨_, left, after, ran, ?_, ?_, fun atEnd => ?_⟩
    · rw [isMessage]
    · rw [store, next,
        Redis.counterAt_congr (AList.lookup_insert_ne (messageKey_ne_nextMsgIdKey _ _ _).symm)]
      exact moved
    · -- the last number of all reads as the error code
      have isLast : last = 2 ^ 63 - 2 := by omega
      subst isLast
      exact absurd (by decide) bad

/-- The saves of a loop, one after the other. -/
theorem saveTimes_draws (count : Nat) (kinded : Kinded db) {last : Int}
    (counter : Redis.counterAt db.store (nextMsgIdKey message.groupId) = some last) :
    Exists fun left => Exists fun after => saveTimes count message db = (.ok left, after) ∧
      Draws db.store after.store message.groupId last count := by
  induction count generalizing db message last with
  | zero =>
      have range := Redis.counterAt_range counter
      refine ⟨message, db, rfl, ?_, fun _ _ => rfl⟩
      rw [counter, Option.some.injEq]
      omega
  | succ count inductionHypothesis =>
      rcases saveMessage_draws kinded counter with ⟨result, left, middle, ran, sameRoom, first⟩
      have kindedMiddle := kinded.saveMessage message.groupId message
      rw [ran] at kindedMiddle
      have counterMiddle := first.counter
      rw [← sameRoom] at counterMiddle
      rcases inductionHypothesis kindedMiddle counterMiddle with ⟨final, after, ranRest, rest⟩
      rw [sameRoom] at rest
      refine ⟨final, after, ?_, ?_, fun atEnd msgId => ?_⟩
      · unfold saveTimes
        rw [bind_of_ok ran]
        exact ranRest
      · rw [rest.counter, Option.some.injEq]
        omega
      · rw [rest.vain (by omega) msgId, first.vain atEnd msgId]

theorem saveTimes_one {left : Message} {after : Db}
    (ran : saveTimes 1 message db = (.ok left, after)) :
    Exists fun result => saveMessage message.groupId message db = (.ok (result, left), after) := by
  unfold saveTimes at ran
  rcases ok_of_bind ran with ⟨⟨result, saved⟩, middle, saving, returned⟩
  cases returned
  exact ⟨result, saving⟩

/-- If a save adds a record, the next number was unused. -/
theorem nextUnused_of_adds (kinded : Kinded db) {result : Int} {left : Message} {after : Db}
    (ran : saveMessage message.groupId message db = (.ok (result, left), after)) {last msgId : Int}
    (counter : Redis.counterAt db.store (nextMsgIdKey message.groupId) = some last)
    (room : last < 2 ^ 63 - 1)
    (absent : db.store.lookup (messageKey message.groupId msgId) = none)
    (present : after.store.lookup (messageKey message.groupId msgId) ≠ none) :
    NextUnused db.store message.groupId := by
  by_cases bad : toInt32 (last + 1) = errorNormal
  · rw [saveMessage_refused kinded.normal counter room bad message] at ran
    cases ran
    rw [lookup_counted] at present
    exact absurd absent present
  rcases kinded.record message.groupId (zeroExtended (toInt32 (last + 1))) with ⟨fields, record⟩
  rcases saveMessage_stores kinded.normal counter room bad record message with
    ⟨_, _, ranAgain, _, _, store⟩
  rw [ran] at ranAgain
  cases ranAgain
  refine ⟨last, counter, room, bad, ?_⟩
  by_cases isNew : messageKey message.groupId msgId =
      messageKey message.groupId (zeroExtended (toInt32 (last + 1)))
  · rw [← isNew]
    exact absent
  · rw [store, AList.lookup_insert_ne isNew, lookup_counted] at present
    exact absurd absent present

/-- One save under an unused number adds a record. -/
theorem saveMessage_adds (kinded : Kinded db) {result : Int} {left : Message} {after : Db}
    (ran : saveMessage message.groupId message db = (.ok (result, left), after))
    (unused : NextUnused db.store message.groupId) :
    AddsRecord db.store after.store message := by
  rcases unused with ⟨last, counter, room, good, absent⟩
  have range := Redis.counterAt_range counter
  have record : Redis.hashAt db.store
      (messageKey message.groupId (zeroExtended (toInt32 (last + 1)))) = some ∅ := by
    unfold Redis.hashAt
    rw [absent]
  rcases saveMessage_stores kinded.normal counter room good record message with
    ⟨_, _, ranAgain, ⟨isMessage, _⟩, _, store⟩
  rw [ran] at ranAgain
  cases ranAgain
  refine ⟨last, zeroExtended (toInt32 (last + 1)), left.sendTime, counter, ?_, absent, ?_,
    fun key notCounter notNew => ?_⟩
  · rw [store, Redis.counterAt_congr (AList.lookup_insert_ne (messageKey_ne_nextMsgIdKey _ _ _).symm)]
    exact counted_counter db.store message.groupId (by omega) (by omega)
  · rw [store, AList.lookup_insert, ← isMessage]
    rfl
  · rw [store, AList.lookup_insert_ne notNew]
    exact AList.lookup_insert_ne notCounter

/-- Saving adds one record exactly if it is done once and the next number is
unused. -/
theorem saveTimes_adds_iff (kinded : Kinded db) {count : Nat} {left : Message} {after : Db}
    (ran : saveTimes count message db = (.ok left, after)) :
    AddsRecord db.store after.store message <-> count = 1 ∧ NextUnused db.store message.groupId := by
  constructor
  · rintro ⟨last, msgId, time, counter, moved, absent, present, others⟩
    rcases saveTimes_draws count kinded counter with ⟨_, _, ranAgain, draws⟩
    rw [ran] at ranAgain
    cases ranAgain
    have notEnd : last < 2 ^ 63 - 2 := by
      by_contra atEnd
      rw [draws.vain (by omega) msgId, absent] at present
      cases present
    rw [draws.counter, Option.some.injEq] at moved
    have isOne : count = 1 := by omega
    subst isOne
    rcases saveTimes_one ran with ⟨result, saving⟩
    refine ⟨rfl, nextUnused_of_adds kinded saving counter (by omega) absent ?_⟩
    rw [present]
    exact Option.some_ne_none _
  · rintro ⟨isOne, unused⟩
    subst isOne
    rcases saveTimes_one ran with ⟨result, saving⟩
    exact saveMessage_adds kinded saving unused

end Saving

end Dao

namespace World

open ChatHub.Action

/-! ## What the loop saves -/

/-- The loop saves the message in the round of the descriptor, since it does
not lead back to the sender. -/
def savesFor (conns : Clients 1024) (sender : Bufferevent) (fd : Int) : Bool :=
  match conns.clients.hashGet fd with
  | .ok (some bev) => bev != sender
  | _ => true

theorem savesFor_eq_false_iff {conns : Clients 1024} {sender : Bufferevent} {fd : Int} :
    savesFor conns sender fd = false <-> conns.clients.hashGet fd = .ok (some sender) := by
  unfold savesFor
  cases conns.clients.hashGet fd with
  | error fault => simp
  | ok receiver =>
      cases receiver with
      | none => simp
      | some bev => simp

/-- A loop that gets past every descriptor saves the message once for each of
those that it does not skip. -/
theorem sendCopies_saves {world : World} (normal : world.db.Normal) {sender : Bufferevent}
    {fds : List Int} (deliverable : forall fd, fd ∈ fds -> Deliverable world.conns sender fd)
    (message : Message) :
    Exists fun left => Dao.saveTimes (fds.countP (savesFor world.conns sender)) message world.db =
      (.ok left, (sendCopies sender fds message world).2.db) := by
  induction fds generalizing world message with
  | nil => exact ⟨message, rfl⟩
  | cons fd rest inductionHypothesis =>
      rcases sendCopies_cons normal (deliverable fd List.mem_cons_self) rest message with
        ⟨copies, time, db, same, _, _, outcome, saves⟩
      rcases @inductionHypothesis { world with db := db, written := world.written ++ copies }
        (normal.of_outcome outcome)
        (fun other member => deliverable other (List.mem_cons_of_mem _ member))
        { message with sendTime := time } with ⟨left, ran⟩
      refine ⟨left, ?_⟩
      rw [same, List.countP_cons]
      rcases saves with ⟨isSender, isMessage, isDb⟩ | ⟨notSender, result, saved⟩
      · rw [savesFor_eq_false_iff.mpr isSender, if_neg Bool.false_ne_true]
        rw [isMessage] at ran ⊢
        subst isDb
        exact ran
      · have isSaved : savesFor world.conns sender fd = true := by
          rw [← Bool.not_eq_false, savesFor_eq_false_iff]
          exact notSender
        rw [if_pos isSaved]
        unfold Dao.saveTimes
        rw [bind_of_ok saved]
        exact ran

/-! ## The kinds of the keys -/

theorem EventCommands.uses {event : Event} {command : Redis.Command}
    (isSo : EventCommands event command) {key : Bytes} {kind : Redis.Kind}
    (isNeeded : Redis.needs command = some (key, kind)) :
    Dao.Uses (fun _ => True) (fun _ => True) key kind := by
  cases isSo with
  | read received isSo =>
      cases isSo with
      | register isType parsed enrols => exact enrols.uses isNeeded
      | login isType admits =>
          cases admits with
          | reads isRead =>
              rw [isRead.needs_nothing] at isNeeded
              cases isNeeded
          | record positive time =>
              cases isNeeded
              exact Dao.Uses.user _
      | logout isType presence => exact presence.uses isNeeded
      | chat isType posts =>
          cases posts with
          | reads isRead =>
              rw [isRead.needs_nothing] at isNeeded
              cases isNeeded
          | saves isSave => exact isSave.uses trivial isNeeded
  | createChatroom isUser1 isUser2 creates => exact creates.uses (fun _ => trivial) isNeeded
  | leaveChatrooom chatroomId username =>
      cases isNeeded
      exact Dao.Uses.chatroom trivial
  | delChatrooom deletes =>
      rw [deletes.needs_nothing] at isNeeded
      cases isNeeded

/-- Events use the keys as they are meant. -/
theorem kinded_step {world next : World} {event : Event} (kinded : Dao.Kinded world.db)
    (taken : step world event = some next) : Dao.Kinded next.db := by
  have preserved : forall store command, EventCommands event command ->
      Redis.WellKinded Dao.kindOf store ->
      Redis.WellKinded Dao.kindOf (Redis.exec store command).2 := by
    intro store command isSo holds
    exact holds.exec (fun key kind isNeeded => (isSo.uses isNeeded).kindOf)
  have kept := step_keeps taken preserved kinded.kinds
  exact ⟨kinded.normal.of_outcome kept.1, kept.2⟩

theorem kinded_start (clock : Nat -> Int) : Dao.Kinded (start clock).db where
  normal := fun _ => rfl
  kinds := Redis.wellKinded_empty Dao.kindOf

/-! ## When a message is stored once -/

/-- The handler returns, and one record of the message was added. -/
def StoredOnce (world : World) (sender : Bufferevent) (message : Message) : Prop :=
  (handleChat sender message world).1 = .ok () ∧
    Dao.AddsRecord world.db.store (handleChat sender message world).2.db.store message

/-- Every member that is looked up has a descriptor, the handler gets past the
positive ones, it skips all of them but one, and the next number of the
chatroom is unused. -/
structure OneSave (world : World) (sender : Bufferevent) (message : Message) : Prop where
  known : forall userId, userId ∈ Dao.roomMembers world.db.store message.groupId ->
    (Dao.sockfdOf world.db.store userId).isSome
  deliverable : forall fd, fd ∈ Dao.roomFds world.db.store message.groupId ->
    Deliverable world.conns sender fd
  single : (Dao.roomFds world.db.store message.groupId).countP (savesFor world.conns sender) = 1
  unused : Dao.NextUnused world.db.store message.groupId

/-- If the handler gets past the members, what it stores depends on the number
of descriptors that it does not skip. -/
theorem adds_iff {world : World} (sane : Sane world) (kinded : Dao.Kinded world.db)
    {sender : Bufferevent} {message : Message}
    (known : forall userId, userId ∈ Dao.roomMembers world.db.store message.groupId ->
      (Dao.sockfdOf world.db.store userId).isSome)
    (deliverable : forall fd, fd ∈ Dao.roomFds world.db.store message.groupId ->
      Deliverable world.conns sender fd) :
    Dao.AddsRecord world.db.store (handleChat sender message world).2.db.store message <->
      (Dao.roomFds world.db.store message.groupId).countP (savesFor world.conns sender) = 1 ∧
      Dao.NextUnused world.db.store message.groupId := by
  rcases handleChat_run sane sender known with ⟨db, normal, store, same⟩
  rcases @sendCopies_saves { world with db := db } normal sender
    (Dao.roomFds world.db.store message.groupId) deliverable message with ⟨left, ran⟩
  have kindedDb : Dao.Kinded db := ⟨normal, by rw [store]; exact kinded.kinds⟩
  have adds := Dao.saveTimes_adds_iff kindedDb ran
  rw [store] at adds
  rw [same]
  exact adds

theorem storedOnce_iff {world : World} (sane : Sane world) (kinded : Dao.Kinded world.db)
    (sender : Bufferevent) (message : Message) :
    StoredOnce world sender message <-> OneSave world sender message := by
  constructor
  · rintro ⟨returned, adds⟩
    have known : forall userId, userId ∈ Dao.roomMembers world.db.store message.groupId ->
        (Dao.sockfdOf world.db.store userId).isSome := by
      intro userId lookedUp
      by_contra unknown
      have faulted := handleChat_faults sane sender lookedUp (Option.not_isSome_iff_eq_none.mp unknown)
      rw [faulted.1] at returned
      cases returned
    have deliverable := (handleChat_returns sane sender known).1.mp returned
    rcases (adds_iff sane kinded known deliverable).mp adds with ⟨single, unused⟩
    exact ⟨known, deliverable, single, unused⟩
  · intro once
    exact ⟨(handleChat_returns sane sender once.known).1.mpr once.deliverable,
      (adds_iff sane kinded once.known once.deliverable).mpr ⟨once.single, once.unused⟩⟩

/-- In every world that a run reaches, a message is stored once if and only if
the handler gets past the members of the chatroom and skips all of their
descriptors but one, and the next number is unused. -/
theorem stored_once_iff (clock : Nat -> Int) (events : List Event) :
    Run.Always step (fun world => forall sender message,
      StoredOnce world sender message <-> OneSave world sender message) (start clock) events := by
  have kept := @Run.invariant _ _ step (fun world => Sane world ∧ Dao.Kinded world.db) (start clock)
    ⟨sane_start clock, kinded_start clock⟩
    (fun _ _ _ holds taken => ⟨holds.1.step taken, kinded_step holds.2 taken⟩) events
  exact kept.mono (fun world holds sender message => storedOnce_iff holds.1 holds.2 sender message)

/-- Every chat message that a connection sends is stored exactly once. -/
def StoresOnce (world : World) : Prop :=
  forall sender, sender ∈ world.conns.opened -> forall message : Message,
    message.type = MessageType.text.code ∨ message.type = MessageType.image.code ->
      StoredOnce world sender message

theorem not_storedOnce {world : World} {sender : Bufferevent} {message : Message} {last next : Int}
    (before : Redis.counterAt world.db.store (nextMsgIdKey message.groupId) = some last)
    (after : Redis.counterAt (handleChat sender message world).2.db.store
      (nextMsgIdKey message.groupId) = some next) (wrong : next ≠ last + 1) :
    Not (StoredOnce world sender message) := by
  rintro ⟨_, other, msgId, time, counter, moved, _⟩
  rw [before, Option.some.injEq] at counter
  rw [after, Option.some.injEq] at moved
  rw [moved, counter] at wrong
  exact absurd rfl wrong

/-- A chatroom's counter before and after a message to it, if the run gets to
an end where the sender is connected. -/
def counters (events : List Event) (sender : Bufferevent) (message : Message) :
    Option (Option Int × Option Int) :=
  (Run.after step (start (fun _ => 0)) events).bind (fun world =>
    if sender ∈ world.conns.opened then
      some (Redis.counterAt world.db.store (nextMsgIdKey message.groupId),
        Redis.counterAt (handleChat sender message world).2.db.store
          (nextMsgIdKey message.groupId))
    else none)

theorem not_storesOnce {events : List Event} {sender : Bufferevent} {message : Message}
    {last next : Int} (isText : message.type = MessageType.text.code)
    (moves : counters events sender message = some (some last, some next))
    (wrong : next ≠ last + 1) :
    Not (Run.Always step StoresOnce (start (fun _ => 0)) events) := by
  intro always
  unfold counters at moves
  rcases Option.bind_eq_some_iff.mp moves with ⟨world, leads, facts⟩
  rw [Option.ite_none_right_eq_some, Option.some.injEq, Prod.mk.injEq] at facts
  rcases facts with ⟨isOpen, before, after⟩
  exact not_storedOnce before after wrong
    (always.finish leads sender isOpen message (Or.inl isText))

/-- Two users share a chatroom, and one of them has logged out. -/
def loggedOut : List Event :=
  separateConnections ++ [arrival ⟨1, 6⟩ (request .logout 0 "eve secret")]

/-- Two users share a chatroom, and there is a third connection. -/
def thirdConnection : List Event :=
  separateConnections ++ [.accept 7]

/-- A message that the other member is not online for is not stored at all, and
a message for two members who are online is stored twice. -/
theorem not_stored_once :
    Not (Run.Always step StoresOnce (start (fun _ => 0)) loggedOut) ∧
    Not (Run.Always step StoresOnce (start (fun _ => 0)) thirdConnection) := by
  constructor
  · have moves : counters loggedOut ⟨0, 5⟩ (request .text 1 "hello") = some (some 0, some 0) := by
      decide +kernel
    exact not_storesOnce rfl moves (by decide)
  · have moves : counters thirdConnection ⟨2, 7⟩ (request .text 1 "hello") =
        some (some 0, some 2) := by
      decide +kernel
    exact not_storesOnce rfl moves (by decide)

end World
end ChatHub
