import ChatHub.Server.RoomKeys

namespace ChatHub

/-!
# What saving a message stores

`save_message` draws the next number of the chatroom's counter, gives the
message a send time if it has none, and writes its fields under a key made of
both numbers.  Only the low 32 bits of the counter become the message's
number, and a number that reads as the error code stores nothing.
-/

namespace Dao

open ChatHub.Action

/-- The fields of a message in its record. -/
def messageFields (message : Message) : List (Bytes × Bytes) :=
  [(ascii "msg", message.msgString), (ascii "senderName", message.senderNameString),
    (ascii "sendTime", intText message.sendTime),
    (ascii "type", intText (toInt32 message.type.toNat))]

/-- The record of a message under a new key. -/
def recordOf (message : Message) : Redis.Table Bytes :=
  Redis.setFields ∅ (messageFields message)

/-- The message that `save_message` leaves: it has the time of the clock if it
had no send time. -/
def Stamps (message : Message) (db : Db) (left : Message) : Prop :=
  left = { message with sendTime := left.sendTime } ∧
    ((forall index, 0 < db.clock index) -> 0 < left.sendTime)

theorem stampMessage_run (message : Message) (db : Db) :
    Exists fun after => Exists fun left => stampMessage message db = (.ok left, after) ∧
      Stamps message db left ∧ after.outcome = db.outcome ∧ after.store = db.store := by
  unfold stampMessage
  by_cases unset : message.sendTime ≤ 0
  · rw [if_pos unset]
    exact ⟨db.tick, { message with sendTime := db.clock db.ticks }, rfl,
      ⟨rfl, fun positive => positive db.ticks⟩, rfl, rfl⟩
  · rw [if_neg unset]
    exact ⟨db, message, rfl, ⟨rfl, fun _ => Int.not_le.mp unset⟩, rfl, rfl⟩

/-- The store after the counter of a chatroom went on to a number. -/
def counted (store : Redis.Store) (chatroomId next : Int) : Redis.Store :=
  store.insert (nextMsgIdKey chatroomId) (.string (intText next))

theorem counted_counter (store : Redis.Store) (chatroomId : Int) {next : Int} (low : -2 ^ 63 ≤ next)
    (high : next < 2 ^ 63) :
    Redis.counterAt (counted store chatroomId next) (nextMsgIdKey chatroomId) = some next :=
  Redis.counterAt_insert store _ low high

section Save

variable {db : Db} {chatroomId last : Int}

/-- Drawing an id moves the counter of the chatroom. -/
theorem getNextMsgid_run (normal : db.Normal)
    (counter : Redis.counterAt db.store (nextMsgIdKey chatroomId) = some last)
    (room : last < 2 ^ 63 - 1) :
    getNextMsgid chatroomId db = (.ok (toInt32 (last + 1)), { db with
      store := counted db.store chatroomId (last + 1), issued := db.issued + 1 }) :=
  nextId_run normal counter room

/-- A record and the counter of a chatroom have different keys. -/
theorem messageKey_ne_nextMsgIdKey (chatroomId other msgId : Int) :
    messageKey other msgId ≠ nextMsgIdKey chatroomId := by
  intro same
  have left : kindOf (messageKey other msgId) = .hash := kindOf_messageKey other msgId
  have right : kindOf (nextMsgIdKey chatroomId) = .counter :=
    kindOf_room chatroomId (Or.inr ⟨_, rfl⟩)
  rw [same, right] at left
  cases left

/-- Saving writes the counter and one record. -/
theorem saveMessage_stores (normal : db.Normal)
    (counter : Redis.counterAt db.store (nextMsgIdKey chatroomId) = some last)
    (room : last < 2 ^ 63 - 1) (good : toInt32 (last + 1) ≠ errorNormal) {fields : Redis.Table Bytes}
    (record : Redis.hashAt db.store (messageKey chatroomId (zeroExtended (toInt32 (last + 1)))) = some fields)
    (message : Message) :
    Exists fun after => Exists fun left =>
      saveMessage chatroomId message db = (.ok (toInt32 (last + 1), left), after) ∧
      Stamps message db left ∧ after.outcome = db.outcome ∧
      after.store = (counted db.store chatroomId (last + 1)).insert
        (messageKey chatroomId (zeroExtended (toInt32 (last + 1))))
        (.hash (Redis.setFields fields (messageFields left))) := by
  let drawn : Db :=
    { db with store := counted db.store chatroomId (last + 1), issued := db.issued + 1 }
  have drawing : getNextMsgid chatroomId db = (.ok (toInt32 (last + 1)), drawn) :=
    getNextMsgid_run normal counter room
  rcases stampMessage_run message drawn with ⟨middle, left, stamping, stamps, outcome, store⟩
  have normalMiddle : middle.Normal := fun index => by rw [outcome]; exact normal index
  have recordMiddle : Redis.hashAt middle.store (messageKey chatroomId (zeroExtended (toInt32 (last + 1)))) =
      some fields := by
    have apart : drawn.store.lookup (messageKey chatroomId (zeroExtended (toInt32 (last + 1)))) =
        db.store.lookup (messageKey chatroomId (zeroExtended (toInt32 (last + 1)))) :=
      AList.lookup_insert_ne (messageKey_ne_nextMsgIdKey _ _ _)
    rw [store, Redis.hashAt_congr apart, record]
  have writes := Redis.exec_hmset_of_hash recordMiddle (messageFields left)
  refine ⟨middle.issue (.hmset (messageKey chatroomId (zeroExtended (toInt32 (last + 1)))) (messageFields left)),
    left, ?_, stamps, outcome, ?_⟩
  · unfold saveMessage
    rw [bind_of_ok drawing, if_neg good, bind_of_ok stamping]
    change (ask (.hmset (messageKey chatroomId (zeroExtended (toInt32 (last + 1)))) (messageFields left)) >>=
      fun reply => if reply.isError then pure (errorNormal, left)
        else pure (toInt32 (last + 1), left)) middle = _
    rw [ask_bind normalMiddle, writes]
    rfl
  · change (Redis.exec middle.store _).2 = _
    rw [writes, store]

/-- A number that reads as the error code is drawn in vain. -/
theorem saveMessage_refused (normal : db.Normal)
    (counter : Redis.counterAt db.store (nextMsgIdKey chatroomId) = some last)
    (room : last < 2 ^ 63 - 1) (bad : toInt32 (last + 1) = errorNormal) (message : Message) :
    saveMessage chatroomId message db = (.ok (errorNormal, message), { db with
      store := counted db.store chatroomId (last + 1), issued := db.issued + 1 }) := by
  unfold saveMessage
  rw [bind_of_ok (getNextMsgid_run normal counter room), if_pos bad]
  rfl

/-- No number is drawn from a counter at the end of its range. -/
theorem saveMessage_full (normal : db.Normal)
    (counter : Redis.counterAt db.store (nextMsgIdKey chatroomId) = some (2 ^ 63 - 1))
    (message : Message) :
    saveMessage chatroomId message db =
      (.ok (errorNormal, message), { db with issued := db.issued + 1 }) := by
  have fails : Redis.exec db.store (.incr (nextMsgIdKey chatroomId)) =
      (.error (ascii "ERR increment or decrement would overflow"), db.store) := by
    simp only [Redis.exec, counter, if_pos]
  have drawing : getNextMsgid chatroomId db = (.ok errorNormal, { db with issued := db.issued + 1 }) := by
    unfold getNextMsgid nextId
    rw [bind_of_ok (ask_of_exec db normal fails)]
    rfl
  unfold saveMessage
  rw [bind_of_ok drawing]
  rfl

end Save

end Dao
end ChatHub
