import ChatHub.Server.Effects
import ChatHub.Server.Saving

namespace ChatHub

/-!
# Delivery of a chat message

The loop of `handleChat` goes through the descriptors of the chatroom.  It
gets past a descriptor if the lookup ends and, unless it leads back to the
sender, what is found may be written to.  `sendCopies_run` says where the
loop gets to and what it has written there.
-/

namespace World

open ChatHub.Action

/-- A text of the message, with its own send time or a new one. -/
def IsCopy (message : Message) (text : Bytes) : Prop :=
  Exists fun time => text = Message.packMessage { message with sendTime := time }

/-- The loop gets past the descriptor. -/
def Deliverable (conns : Clients 1024) (sender : Bufferevent) (fd : Int) : Prop :=
  Exists fun receiver => conns.clients.hashGet fd = .ok receiver ∧
    forall bev, receiver = some bev -> bev ≠ sender -> bev ∈ conns.opened

/-- The connection that gets a copy for a descriptor. -/
def receiverOf (conns : Clients 1024) (sender : Bufferevent) (fd : Int) : Option Bufferevent :=
  match conns.clients.hashGet fd with
  | .ok (some bev) => if bev = sender then none else some bev
  | _ => none

theorem receiverOf_eq_some_iff {conns : Clients 1024} {sender bev : Bufferevent} {fd : Int} :
    receiverOf conns sender fd = some bev <->
      conns.clients.hashGet fd = .ok (some bev) ∧ bev ≠ sender := by
  unfold receiverOf
  cases found : conns.clients.hashGet fd with
  | error fault => simp
  | ok receiver =>
      cases receiver with
      | none => simp
      | some other =>
          by_cases isSender : other = sender
          · simp only [if_pos isSender, reduceCtorEq, Except.ok.injEq, Option.some.injEq, false_iff,
              not_and, not_not]
            intro same
            rw [← same]
            exact isSender
          · simp only [if_neg isSender, Option.some.injEq, Except.ok.injEq]
            constructor
            · intro same
              rw [← same]
              exact ⟨rfl, isSender⟩
            · exact fun both => both.1

theorem hashGet_fault {conns : Clients 1024} {fd : Int} {fault : Fault}
    (failed : conns.clients.hashGet fd = .error fault) : fault = .endlessLoop := by
  unfold HashMap.hashGet HashMap.find at failed
  cases probed : conns.clients.probe fd 1024 with
  | none =>
      rw [probed] at failed
      cases failed
      rfl
  | some slot =>
      rw [probed] at failed
      cases atSlot : conns.clients.hashTable slot with
      | none =>
          simp only [atSlot] at failed
          cases failed
      | some node =>
          simp only [atSlot] at failed
          cases failed

/-- `save_message` returns, whatever the replies, and may change the send
time. -/
theorem saveMessage_run {db : Db} (normal : db.Normal) (chatroomId : Int) (message : Message) :
    Exists fun result => Exists fun time => Exists fun after =>
      saveMessage chatroomId message db = (.ok (result, { message with sendTime := time }), after) ∧
      after.outcome = db.outcome := by
  rcases Dao.nextId_answers normal (nextMsgIdKey chatroomId) with ⟨msgId, counted⟩
  unfold saveMessage getNextMsgid
  rw [bind_of_ok counted]
  split
  · exact ⟨_, message.sendTime, _, rfl, rfl⟩
  · rcases Dao.stampMessage_run message (db.issue (.incr (nextMsgIdKey chatroomId))) with
      ⟨after, left, ran, ⟨isMessage, _⟩, outcome, _⟩
    rw [isMessage] at ran
    rw [bind_of_ok ran, Dao.ask_bind (normal.of_outcome outcome)]
    split
    · exact ⟨_, left.sendTime, _, rfl, outcome⟩
    · exact ⟨_, left.sendTime, _, rfl, outcome⟩

/-- One round of the loop. -/
theorem sendCopies_round (sender : Bufferevent) (fd : Int) (rest : List Int) (message : Message) :
    sendCopies sender (fd :: rest) message = hashGet fd >>= fun receiver =>
      if receiver = some sender then sendCopies sender rest message
      else writeCopy receiver message >>= fun _ =>
        dao (saveMessage message.groupId message) >>= fun saved =>
          sendCopies sender rest saved.2 :=
  rfl

theorem hashGet_of_lookup {world : World} {fd : Int} {result : Except Fault (Option Bufferevent)}
    (found : world.conns.clients.hashGet fd = result) : hashGet fd world = (result, world) := by
  unfold hashGet
  rw [found]

theorem write_of_open {world : World} {bev : Bufferevent} (isOpen : bev ∈ world.conns.opened)
    (json : Bytes) (size : Nat) : buffereventWrite bev json size world =
      (.ok (), { world with written := world.written ++ [⟨bev, json, size⟩] }) :=
  if_pos isOpen

theorem write_of_freed {world : World} {bev : Bufferevent} (freed : bev ∉ world.conns.opened)
    (json : Bytes) (size : Nat) :
    buffereventWrite bev json size world = (.error .useAfterFree, world) :=
  if_neg freed

/-- A round leaves the message and the database alone if its descriptor leads
back to the sender, and saves the message otherwise. -/
def RoundSaves (world : World) (sender : Bufferevent) (fd : Int) (message left : Message)
    (after : Db) : Prop :=
  world.conns.clients.hashGet fd = .ok (some sender) ∧ left = message ∧ after = world.db ∨
  world.conns.clients.hashGet fd ≠ .ok (some sender) ∧ Exists fun result =>
    saveMessage message.groupId message world.db = (.ok (result, left), after)

/-- Behind a descriptor that it gets past, the loop goes on with the copy
written, if there is one, and the message saved. -/
theorem sendCopies_cons {world : World} (normal : world.db.Normal) {sender : Bufferevent} {fd : Int}
    (deliverable : Deliverable world.conns sender fd) (rest : List Int) (message : Message) :
    Exists fun copies => Exists fun time => Exists fun db =>
      sendCopies sender (fd :: rest) message world =
        sendCopies sender rest { message with sendTime := time }
          { world with db := db, written := world.written ++ copies } ∧
      copies.map Write.bev = (receiverOf world.conns sender fd).toList ∧
      (forall entry, entry ∈ copies -> IsCopy message entry.json) ∧
      db.outcome = world.db.outcome ∧
      RoundSaves world sender fd message { message with sendTime := time } db := by
  rcases deliverable with ⟨receiver, found, isOpen⟩
  rcases saveMessage_run normal message.groupId message with ⟨result, time, db, saved, outcome⟩
  rw [sendCopies_round, bind_of_ok (hashGet_of_lookup found)]
  unfold receiverOf
  rw [found]
  by_cases isSender : receiver = some sender
  · rw [if_pos isSender]
    refine ⟨[], message.sendTime, world.db, ?_, ?_, ?_, rfl, Or.inl ⟨?_, rfl, rfl⟩⟩
    · rw [List.append_nil]
    · rw [isSender]
      simp
    · exact fun entry member => absurd member List.not_mem_nil
    · rw [found, isSender]
  rw [if_neg isSender]
  have saves : RoundSaves world sender fd message { message with sendTime := time } db := by
    refine Or.inr ⟨?_, result, saved⟩
    rw [found]
    exact fun same => isSender (Except.ok.inj same)
  cases receiver with
  | none =>
      refine ⟨[], time, db, ?_, rfl, fun entry member => absurd member List.not_mem_nil, outcome,
        saves⟩
      have written : writeCopy none message world = (.ok (), world) := rfl
      rw [bind_of_ok written, bind_of_ok (dao_of_run saved), List.append_nil]
  | some bev =>
      have notSender : bev ≠ sender := fun same => isSender (congrArg some same)
      refine ⟨[.ofMessage bev message], time, db, ?_, ?_, ?_, outcome, saves⟩
      · have written : writeCopy (some bev) message world =
            (.ok (), { world with written := world.written ++ [.ofMessage bev message] }) :=
          write_of_open (isOpen bev rfl notSender) message.packMessage maxBuff
        have save := @dao_of_run _ (saveMessage message.groupId message)
          { world with written := world.written ++ [.ofMessage bev message] } _ _ saved
        rw [bind_of_ok written, bind_of_ok save]
      · simp [if_neg notSender, Write.ofMessage]
      · intro entry member
        rw [List.mem_singleton.mp member]
        exact ⟨message.sendTime, rfl⟩

/-- The loop stops with a fault at a descriptor that it does not get past. -/
theorem sendCopies_stops {world : World} {sender : Bufferevent} {fd : Int}
    (stuck : Not (Deliverable world.conns sender fd)) (rest : List Int) (message : Message) :
    Exists fun fault => sendCopies sender (fd :: rest) message world = (.error fault, world) ∧
      (fault = .useAfterFree -> Exists fun bev =>
        world.conns.clients.hashGet fd = .ok (some bev) ∧ bev ∉ world.conns.opened) := by
  rw [sendCopies_round]
  cases found : world.conns.clients.hashGet fd with
  | error fault =>
      refine ⟨fault, bind_of_error (hashGet_of_lookup found), fun isUse => ?_⟩
      rw [hashGet_fault found] at isUse
      cases isUse
  | ok receiver =>
      unfold Deliverable at stuck
      push Not at stuck
      rcases stuck receiver found with ⟨bev, isBev, notSender, freed⟩
      subst isBev
      have written : writeCopy (some bev) message world = (.error .useAfterFree, world) :=
        write_of_freed freed message.packMessage maxBuff
      refine ⟨.useAfterFree, ?_, fun _ => ⟨bev, rfl, freed⟩⟩
      rw [bind_of_ok (hashGet_of_lookup found),
        if_neg (fun same => notSender (Option.some.inj same)), bind_of_error written]

/-- One copy for the receiver of each of the descriptors was written. -/
structure Sent (world after : World) (sender : Bufferevent) (fds : List Int) (message : Message)
    (copies : List Write) : Prop where
  written : after.written = world.written ++ copies
  receivers : copies.map Write.bev = fds.filterMap (receiverOf world.conns sender)
  isCopy : forall entry, entry ∈ copies -> IsCopy message entry.json

theorem Sent.nothing (world : World) (sender : Bufferevent) (message : Message) :
    Sent world world sender [] message [] where
  written := (List.append_nil _).symm
  receivers := rfl
  isCopy := fun _ member => absurd member List.not_mem_nil

/-- The loop stopped at a descriptor that it did not get past. -/
def Stopped (conns : Clients 1024) (sender : Bufferevent) (fds : List Int)
    (result : Except Fault Unit) : Prop :=
  Exists fun fd => Exists fun fault => fd ∈ fds ∧ Not (Deliverable conns sender fd) ∧
    result = .error fault ∧ (fault = .useAfterFree -> Exists fun bev =>
      conns.clients.hashGet fd = .ok (some bev) ∧ bev ∉ conns.opened)

/-- The loop gets to the end, or to the first descriptor that it does not get
past, with the copies for the descriptors before written. -/
theorem sendCopies_run {world : World} (normal : world.db.Normal) (sender : Bufferevent)
    (fds : List Int) (message : Message) :
    Exists fun done => Exists fun rest => Exists fun copies =>
      fds = done ++ rest ∧ (forall fd, fd ∈ done -> Deliverable world.conns sender fd) ∧
      Sent world (sendCopies sender fds message world).2 sender done message copies ∧
      (rest = [] ∧ (sendCopies sender fds message world).1 = .ok () ∨
        Stopped world.conns sender rest (sendCopies sender fds message world).1) := by
  induction fds generalizing world message with
  | nil =>
      exact ⟨[], [], [], rfl, fun fd member => absurd member List.not_mem_nil,
        Sent.nothing world sender message, Or.inl ⟨rfl, rfl⟩⟩
  | cons fd fds inductionHypothesis =>
      by_cases deliverable : Deliverable world.conns sender fd
      · rcases sendCopies_cons normal deliverable fds message with
          ⟨first, time, db, same, receivers, isCopy, outcome, _⟩
        rcases @inductionHypothesis { world with db := db, written := world.written ++ first }
          (normal.of_outcome outcome) { message with sendTime := time } with
          ⟨done, rest, copies, split, delivered, sent, ending⟩
        rw [same]
        refine ⟨fd :: done, rest, first ++ copies, ?_, ?_, ⟨?_, ?_, ?_⟩, ending⟩
        · rw [split, List.cons_append]
        · intro other member
          rcases List.mem_cons.mp member with isFirst | isLater
          · rw [isFirst]
            exact deliverable
          · exact delivered other isLater
        · rw [sent.written, List.append_assoc]
        · rw [List.map_append, receivers, sent.receivers]
          cases receiver : receiverOf world.conns sender fd with
          | none => rw [List.filterMap_cons_none receiver, Option.toList_none, List.nil_append]
          | some bev => rw [List.filterMap_cons_some receiver, Option.toList_some, List.singleton_append]
        · intro entry member
          rcases List.mem_append.mp member with isFirst | isLater
          · exact isCopy entry isFirst
          · exact sent.isCopy entry isLater
      · rcases sendCopies_stops deliverable fds message with ⟨fault, same, use⟩
        rw [same]
        exact ⟨[], fd :: fds, [], rfl, fun other member => absurd member List.not_mem_nil,
          Sent.nothing world sender message,
          Or.inr ⟨fd, fault, List.mem_cons_self, deliverable, rfl, use⟩⟩

/-! ## From the message to the loop -/

/-- If every member that is looked up has a descriptor, the loop runs over
the descriptors of the chatroom. -/
theorem handleChat_run {world : World} (sane : Sane world) (sender : Bufferevent) {message : Message}
    (known : forall userId, userId ∈ Dao.roomMembers world.db.store message.groupId ->
      (Dao.sockfdOf world.db.store userId).isSome) :
    Exists fun db => db.Normal ∧ db.store = world.db.store ∧ handleChat sender message world =
      sendCopies sender (Dao.roomFds world.db.store message.groupId) message
        { world with db := db } := by
  rcases Dao.getFdByid_run sane.normal known with
    ⟨fds, db, ran, either, outcome, store⟩
  refine ⟨db, sane.normal.of_outcome outcome, store, ?_⟩
  unfold handleChat
  rw [bind_of_ok (dao_of_run ran)]
  rcases either with all | ⟨isNull, nobody⟩
  · rw [all]
    simp only [List.take_length]
  · rw [isNull, nobody]
    rfl

/-- At a member without a descriptor the handler faults before it writes. -/
theorem handleChat_faults {world : World} (sane : Sane world) (sender : Bufferevent)
    {message : Message} {userId : Int}
    (member : userId ∈ Dao.roomMembers world.db.store message.groupId)
    (unknown : Dao.sockfdOf world.db.store userId = none) :
    (handleChat sender message world).1 = .error .nullPointer ∧
      (handleChat sender message world).2.written = world.written := by
  have faulted := Dao.getFdByid_faults sane.normal sane.records member unknown
  cases ran : getFdByid message.groupId world.db with
  | mk result db =>
      rw [ran] at faulted
      change result = .error .nullPointer at faulted
      rw [faulted] at ran
      unfold handleChat
      rw [bind_of_error (dao_of_run ran)]
      exact ⟨rfl, rfl⟩

end World
end ChatHub
