import ChatHub.Base.Run
import ChatHub.Lib.Message
import ChatHub.Server.Saving

namespace ChatHub

/-!
# The log of messages

The messages that were saved and not deleted since, in the order in which they
were saved, beside the database that stores them.  A run applies the
operations of the data access layer in any order to an empty database.

The ids of a chatroom come from a counter that is read into an `int`.  Every
operation that draws an id is therefore counted, and a run draws fewer than
`2 ^ 31` ids for each chatroom.  Counting only the messages is not enough,
since `get_next_msgid` moves the same counter.
-/

/-- A message that was saved: its chatroom, its id and the message as
`save_message` left it. -/
structure Saved where
  chatroomId : Int
  msgId : Int
  message : Message

/-- The database, the messages in the log, and the chatrooms of the calls that
were counted. -/
structure Log where
  db : Db
  saved : List Saved
  calls : List Int

namespace MessageLog

open ChatHub.Action Dao

/-- The key of the record. -/
def key (entry : Saved) : Bytes :=
  messageKey entry.chatroomId entry.msgId

/-- A save that succeeds appends to the log.  Deleting a chatroom removes the
messages of the chatrooms that its pattern covers. -/
def entries (saved : List Saved) : Operation -> Answer -> List Saved
  | .saveMessage chatroomId _, .saved msgId left =>
      if msgId < 0 then saved else saved ++ [⟨chatroomId, msgId, left⟩]
  | .delChatrooom chatroomId, _ =>
      saved.filter (fun entry => Not (intText chatroomId <+: intText entry.chatroomId))
  | _, _ => saved

/-- Count a call for a chatroom, if there are few enough. -/
def charge (calls : List Int) : Option Int -> Option (List Int)
  | none => some calls
  | some chatroomId =>
      if calls.count chatroomId + 1 < 2 ^ 31 then some (chatroomId :: calls) else none

/-- The arguments have their types, and the call is not one too many. -/
def Allowed (counted : Operation -> Option Int) (log : Log) (operation : Operation) : Prop :=
  operation.Typed ∧ (charge log.calls (counted operation)).isSome = true

/-- One call that returns, where `counted` says which calls are counted for
which chatroom. -/
def step (counted : Operation -> Option Int) (log : Log) (operation : Operation) : Option Log :=
  if operation.Typed then
    match charge log.calls (counted operation), operation.perform log.db with
    | some calls, some (answer, after) => some ⟨after, entries log.saved operation answer, calls⟩
    | _, _ => none
  else none

/-- The log of an empty database. -/
def empty (clock : Nat -> Int) : Log :=
  ⟨Db.empty clock, [], []⟩

/-- Saving the message succeeds.  It stores the message as it leaves it, under
a key that did not exist and an id above all ids of the chatroom in the log. -/
def Appends (log : Log) (chatroomId : Int) (message : Message) : Prop :=
  Exists fun msgId => Exists fun left => Exists fun after =>
    saveMessage chatroomId message log.db = (.ok (msgId, left), after) ∧ 0 < msgId ∧
    Stamps message log.db left ∧
    log.db.store.lookup (messageKey chatroomId msgId) = none ∧
    after.store.lookup (messageKey chatroomId msgId) = some (.hash (recordOf left)) ∧
    forall entry, entry ∈ log.saved -> entry.chatroomId = chatroomId -> entry.msgId < msgId

/-- The log is append-only: its records are stored as they were saved, the ids
of a chatroom increase, and the next message is appended. -/
structure AppendOnly (counted : Operation -> Option Int) (log : Log) : Prop where
  stored : forall entry, entry ∈ log.saved ->
    log.db.store.lookup (key entry) = some (.hash (recordOf entry.message))
  increasing : log.saved.Pairwise
    (fun earlier later => earlier.chatroomId = later.chatroomId -> earlier.msgId < later.msgId)
  next : forall chatroomId message, Allowed counted log (.saveMessage chatroomId message) ->
    Appends log chatroomId message

/-! ## What an operation does to the keys of the log -/

/-- The counter and the messages of a chatroom. -/
inductive LogKey (chatroomId : Int) : Bytes -> Prop where
  | counter : LogKey chatroomId (nextMsgIdKey chatroomId)
  | message (msgId : Int) : LogKey chatroomId (messageKey chatroomId msgId)

theorem LogKey.room {chatroomId : Int} {key : Bytes} (isLog : LogKey chatroomId key) :
    RoomKey chatroomId key := by
  cases isLog with
  | counter => exact RoomKey.counter
  | message msgId => exact RoomKey.message msgId

theorem LogKey.shape {chatroomId : Int} {key : Bytes} (isLog : LogKey chatroomId key) :
    Exists fun rest => key = chatroomKey chatroomId ++ 0x3A :: rest := by
  cases isLog with
  | counter => exact ⟨_, rfl⟩
  | message msgId => exact ⟨_, messageKey_eq chatroomId msgId⟩

/-- The keys of a log are used for nothing else. -/
theorem LogKey.uses {room log : Int -> Prop} {chatroomId : Int} {key : Bytes} {kind : Redis.Kind}
    (isLog : LogKey chatroomId key) (uses : Uses room log key kind) : log chatroomId := by
  have isRoom := isLog.room
  rcases isLog.shape with ⟨rest, same⟩
  cases uses with
  | users => exact absurd same.symm (chatroomKey_append_ne chatroomId _ (by decide))
  | nextUserId => exact absurd same.symm (chatroomKey_append_ne chatroomId _ (by decide))
  | user userId =>
      exact absurd same.symm
        (chatroomKey_append_ne chatroomId _ (by change some 0x75 ≠ some 0x63; decide))
  | nextChatroomId => exact absurd same.symm (chatroomKey_append_ne chatroomId _ (by decide))
  | @chatroom other _ =>
      have left := (room_parts other (Or.inl rfl)).2
      have right := (room_parts chatroomId (Or.inr ⟨rest, rfl⟩)).2
      rw [List.append_nil] at left
      rw [← same, left] at right
      exact absurd right (List.cons_ne_nil _ _).symm
  | nextMsgId isUsed => exact isRoom.unique RoomKey.counter ▸ isUsed
  | message isUsed _ => exact isRoom.unique (RoomKey.message _) ▸ isUsed

/-- Only the deletion of a chatroom deletes keys. -/
theorem deletes_of_del {operation : Operation} {key : Bytes}
    (isIssued : operation.Commands (.del key)) :
    Exists fun chatroomId => operation = .delChatrooom chatroomId := by
  cases operation with
  | delChatrooom chatroomId => exact ⟨chatroomId, rfl⟩
  | logoutUser user => cases isIssued with | reads isRead => cases isRead
  | setOnline user fd => cases isIssued with | reads isRead => cases isRead
  | setOffline user => cases isIssued with | reads isRead => cases isRead
  | _ => cases isIssued

section Operations

variable {db after : Db} {operation : Operation} {answer : Answer} {chatroomId : Int}

/-- An operation that neither deletes nor draws an id for the chatroom leaves
the log of the chatroom alone. -/
theorem keeps_log (typed : operation.Typed) (ran : operation.perform db = some (answer, after))
    (noDraw : operation.draws ≠ some chatroomId)
    (noDeletion : forall other, operation ≠ .delChatrooom other) {key : Bytes}
    (isLog : LogKey chatroomId key) : after.store.lookup key = db.store.lookup key := by
  have preserved : forall store command, operation.Commands command ->
      store.lookup key = db.store.lookup key ->
      (Redis.exec store command).2.lookup key = db.store.lookup key := by
    intro store command isIssued same
    have unwritten : Not (Redis.Writes command key) := by
      intro writes
      rcases Redis.writes_cases writes with ⟨kind, isNeeded⟩ | deletes
      · exact noDraw (isLog.uses (Operation.uses typed isIssued isNeeded))
      · rcases deletes_of_del (deletes ▸ isIssued) with ⟨other, isDeletion⟩
        exact noDeletion other isDeletion
    rw [Redis.exec_frame store unwritten, same]
  exact (Operation.perform_keeps ran preserved rfl).2

/-- Commands are answered normally, and every key holds its kind of value. -/
structure Sound (db : Db) : Prop where
  normal : db.Normal
  kinds : Redis.WellKinded kindOf db.store
  brief : Redis.Within Brief db.store

theorem Sound.perform (sound : Sound db) (typed : operation.Typed)
    (ran : operation.perform db = some (answer, after)) : Sound after := by
  have preserved : forall store command, operation.Commands command ->
      Redis.WellKinded kindOf store ∧ Redis.Within Brief store ->
      Redis.WellKinded kindOf (Redis.exec store command).2 ∧
        Redis.Within Brief (Redis.exec store command).2 := by
    intro store command isIssued holds
    have uses := fun key kind isNeeded => @Operation.uses operation typed command isIssued key kind isNeeded
    exact ⟨holds.1.exec (fun key kind isNeeded => (uses key kind isNeeded).kindOf),
      holds.2.exec (fun key kind isNeeded =>
        (uses key kind isNeeded).brief (Operation.draws_typed typed))⟩
  have kept := Operation.perform_keeps ran preserved ⟨sound.kinds, sound.brief⟩
  exact ⟨fun index => by rw [kept.1]; exact sound.normal index, kept.2.1, kept.2.2⟩

/-- The counter of a chatroom is between zero and a number of calls, and no
message has an id above the counter. -/
def Counts (store : Redis.Store) (chatroomId : Int) (calls : Nat) : Prop :=
  Exists fun last => Redis.counterAt store (nextMsgIdKey chatroomId) = some last ∧
    0 ≤ last ∧ last ≤ calls ∧
    forall msgId, (store.lookup (messageKey chatroomId msgId)).isSome = true ->
      0 < msgId ∧ msgId ≤ last

theorem Counts.congr {left right : Redis.Store} {calls : Nat} (counts : Counts left chatroomId calls)
    (same : forall key, LogKey chatroomId key -> right.lookup key = left.lookup key) :
    Counts right chatroomId calls := by
  rcases counts with ⟨last, counter, low, high, ids⟩
  refine ⟨last, ?_, low, high, ?_⟩
  · rw [Redis.counterAt_congr (same _ LogKey.counter), counter]
  · intro msgId found
    rw [same _ (LogKey.message msgId)] at found
    exact ids msgId found

/-- The counter moved on by one, and at most its number was added to the ids. -/
theorem Counts.advance {left right : Redis.Store} {calls : Nat} {last : Int}
    (counts : Counts left chatroomId calls)
    (before : Redis.counterAt left (nextMsgIdKey chatroomId) = some last)
    (moved : Redis.counterAt right (nextMsgIdKey chatroomId) = some (last + 1))
    (added : forall msgId, msgId ≠ last + 1 ->
      right.lookup (messageKey chatroomId msgId) = left.lookup (messageKey chatroomId msgId)) :
    Counts right chatroomId (calls + 1) := by
  rcases counts with ⟨other, counter, low, high, ids⟩
  rw [before, Option.some.injEq] at counter
  subst counter
  refine ⟨last + 1, moved, by omega, by omega, fun msgId found => ?_⟩
  by_cases isNew : msgId = last + 1
  · omega
  · rw [added msgId isNew] at found
    have old := ids msgId found
    omega

/-- Drawing an id moves the counter and nothing else. -/
theorem getNextMsgid_performs (normal : db.Normal) {last : Int}
    (counter : Redis.counterAt db.store (nextMsgIdKey chatroomId) = some last)
    (high : last < 2 ^ 63 - 1) :
    (Operation.getNextMsgid chatroomId).perform db = some (.number (toInt32 (last + 1)), { db with
      store := counted db.store chatroomId (last + 1), issued := db.issued + 1 }) :=
  Operation.perform_of_run (Operation.number_of_run (getNextMsgid_run normal counter high))

/-- Saving moves the counter and adds the record of its number. -/
theorem saveMessage_adds (normal : db.Normal) {last : Int}
    (counter : Redis.counterAt db.store (nextMsgIdKey chatroomId) = some last) (low : 0 ≤ last)
    (high : last + 1 < 2 ^ 31)
    (absent : db.store.lookup (messageKey chatroomId (last + 1)) = none) (message : Message) :
    Exists fun after => Exists fun left =>
      saveMessage chatroomId message db = (.ok (last + 1, left), after) ∧ Stamps message db left ∧
      after.store = (counted db.store chatroomId (last + 1)).insert
        (messageKey chatroomId (last + 1)) (.hash (recordOf left)) := by
  have number : toInt32 (last + 1) = last + 1 := toInt32_eq_self (by omega) (by omega)
  have good : toInt32 (last + 1) ≠ errorNormal := by
    rw [number]
    unfold errorNormal
    omega
  have printed : zeroExtended (last + 1) = last + 1 := zeroExtended_eq_self (by omega) (by omega)
  have record : Redis.hashAt db.store
      (messageKey chatroomId (zeroExtended (toInt32 (last + 1)))) = some ∅ := by
    unfold Redis.hashAt
    rw [number, printed, absent]
  rcases saveMessage_stores normal counter (by omega) good record message with
    ⟨after, left, ran, stamps, _, store⟩
  rw [number] at ran store
  rw [printed] at store
  exact ⟨after, left, ran, stamps, store⟩

theorem saveMessage_performs {message left : Message} {msgId : Int}
    (saving : saveMessage chatroomId message db = (.ok (msgId, left), after)) :
    (Operation.saveMessage chatroomId message).perform db = some (.saved msgId left, after) := by
  have returned : (Operation.saveMessage chatroomId message).run db =
      (.ok (.saved msgId left), after) := by
    change (saveMessage chatroomId message >>= fun saved =>
      pure (Answer.saved saved.1 saved.2)) db = _
    rw [bind_of_ok saving]
    rfl
  exact Operation.perform_of_run returned

end Operations

/-! ## Every run -/

/-- What all states of a run have in common. -/
structure Kept (log : Log) : Prop where
  sound : Sound log.db
  few : forall chatroomId, log.calls.count chatroomId < 2 ^ 31
  counts : forall chatroomId, Counts log.db.store chatroomId (log.calls.count chatroomId)
  stored : forall entry, entry ∈ log.saved ->
    log.db.store.lookup (key entry) = some (.hash (recordOf entry.message))
  increasing : log.saved.Pairwise
    (fun earlier later => earlier.chatroomId = later.chatroomId -> earlier.msgId < later.msgId)

theorem kept_empty (clock : Nat -> Int) : Kept (empty clock) where
  sound := ⟨fun _ => rfl, Redis.wellKinded_empty kindOf, Redis.within_empty Brief⟩
  few _ := (by decide : 0 < 2 ^ 31)
  counts _ := ⟨0, rfl, Int.le_refl 0, Int.le_refl 0, fun _ found => nomatch found⟩
  stored _ member := nomatch member
  increasing := List.Pairwise.nil

section Steps

variable {log next : Log} {operation : Operation} {chatroomId : Int} {message : Message}

/-- The messages of a chatroom in the log have ids up to the counter. -/
theorem Kept.ids (kept : Kept log) {last : Int}
    (counter : Redis.counterAt log.db.store (nextMsgIdKey chatroomId) = some last) {entry : Saved}
    (member : entry ∈ log.saved) (same : entry.chatroomId = chatroomId) : entry.msgId ≤ last := by
  rcases kept.counts chatroomId with ⟨other, isCounter, _, _, ids⟩
  rw [counter, Option.some.injEq] at isCounter
  subst isCounter
  have found := kept.stored entry member
  unfold key at found
  rw [same] at found
  exact (ids entry.msgId (by rw [found]; rfl)).2

/-- A save that is not one too many finds its number unused. -/
theorem Kept.saves (kept : Kept log) (room : log.calls.count chatroomId + 1 < 2 ^ 31)
    (message : Message) :
    Exists fun last => Exists fun after => Exists fun left =>
      Redis.counterAt log.db.store (nextMsgIdKey chatroomId) = some last ∧
      0 ≤ last ∧ last + 1 < 2 ^ 31 ∧
      log.db.store.lookup (messageKey chatroomId (last + 1)) = none ∧
      saveMessage chatroomId message log.db = (.ok (last + 1, left), after) ∧
      Stamps message log.db left ∧
      after.store = (counted log.db.store chatroomId (last + 1)).insert
        (messageKey chatroomId (last + 1)) (.hash (recordOf left)) := by
  rcases kept.counts chatroomId with ⟨last, counter, low, high, ids⟩
  have small : last + 1 < 2 ^ 31 := by omega
  have absent : log.db.store.lookup (messageKey chatroomId (last + 1)) = none := by
    rw [← Option.not_isSome_iff_eq_none]
    intro found
    have bound := (ids (last + 1) found).2
    omega
  rcases saveMessage_adds kept.sound.normal counter low small absent message with
    ⟨after, left, ran, stamps, store⟩
  exact ⟨last, after, left, counter, low, small, absent, ran, stamps, store⟩

theorem charge_some {calls after : List Int} (charged : charge calls (some chatroomId) = some after) :
    calls.count chatroomId + 1 < 2 ^ 31 ∧ after = chatroomId :: calls := by
  simp only [charge, Option.ite_none_right_eq_some, Option.some.injEq] at charged
  exact ⟨charged.1, charged.2.symm⟩

theorem step_cases {counted : Operation -> Option Int} (taken : step counted log operation = some next) :
    operation.Typed ∧ charge log.calls (counted operation) = some next.calls ∧
      Exists fun answer => operation.perform log.db = some (answer, next.db) ∧
        next.saved = entries log.saved operation answer := by
  unfold step at taken
  split at taken
  · next typed =>
      split at taken
      · next calls answer after charged ran =>
          cases taken
          exact ⟨typed, charged, answer, ran, rfl⟩
      · cases taken
  · cases taken

/-- Operations that neither draw ids nor delete leave the log as it is. -/
theorem Kept.other {answer : Answer} (kept : Kept log) (typed : operation.Typed)
    (ran : operation.perform log.db = some (answer, next.db)) (noDraw : operation.draws = none)
    (noDeletion : forall other, operation ≠ .delChatrooom other) (sameSaved : next.saved = log.saved)
    (sameCalls : next.calls = log.calls) : Kept next := by
  have same : forall chatroomId key, LogKey chatroomId key ->
      next.db.store.lookup key = log.db.store.lookup key := by
    intro chatroomId key isLog
    apply keeps_log typed ran _ noDeletion isLog
    rw [noDraw]
    exact fun some => nomatch some
  refine ⟨kept.sound.perform typed ran, ?_, ?_, ?_, ?_⟩
  · rw [sameCalls]
    exact kept.few
  · intro chatroomId
    rw [sameCalls]
    exact (kept.counts chatroomId).congr (same chatroomId)
  · intro entry member
    rw [sameSaved] at member
    exact (same entry.chatroomId _ (LogKey.message entry.msgId)).trans (kept.stored entry member)
  · rw [sameSaved]
    exact kept.increasing

/-- An operation that draws an id moves one counter. -/
theorem Kept.draw {answer : Answer} {last : Int} (kept : Kept log) (typed : operation.Typed)
    (ran : operation.perform log.db = some (answer, next.db)) (draws : operation.draws = some chatroomId)
    (noDeletion : forall other, operation ≠ .delChatrooom other)
    (room : log.calls.count chatroomId + 1 < 2 ^ 31) (called : next.calls = chatroomId :: log.calls)
    (counter : Redis.counterAt log.db.store (nextMsgIdKey chatroomId) = some last)
    (moved : Redis.counterAt next.db.store (nextMsgIdKey chatroomId) = some (last + 1))
    (added : forall msgId, msgId ≠ last + 1 -> next.db.store.lookup (messageKey chatroomId msgId) =
      log.db.store.lookup (messageKey chatroomId msgId)) :
    forall other, next.calls.count other < 2 ^ 31 ∧
      Counts next.db.store other (next.calls.count other) := by
  intro other
  rw [called]
  by_cases isRoom : other = chatroomId
  · subst isRoom
    rw [List.count_cons_self]
    exact ⟨room, (kept.counts other).advance counter moved added⟩
  · rw [List.count_cons_of_ne (fun same => isRoom same.symm)]
    refine ⟨kept.few other, (kept.counts other).congr (fun key isLog => ?_)⟩
    apply keeps_log typed ran _ noDeletion isLog
    rw [draws]
    exact fun same => isRoom (Option.some.inj same).symm

theorem Kept.getNextMsgid {answer : Answer} (kept : Kept log)
    (typed : (Operation.getNextMsgid chatroomId).Typed)
    (ran : (Operation.getNextMsgid chatroomId).perform log.db = some (answer, next.db))
    (room : log.calls.count chatroomId + 1 < 2 ^ 31) (called : next.calls = chatroomId :: log.calls)
    (sameSaved : next.saved = log.saved) : Kept next := by
  rcases kept.saves room Message.sample with ⟨last, _, _, counter, low, small, _⟩
  have returned := getNextMsgid_performs kept.sound.normal counter (by omega)
  have store : next.db.store = counted log.db.store chatroomId (last + 1) := by
    rw [returned, Option.some.injEq, Prod.mk.injEq] at ran
    rw [← ran.2]
  have others : forall other msgId, next.db.store.lookup (messageKey other msgId) =
      log.db.store.lookup (messageKey other msgId) := by
    intro other msgId
    rw [store]
    exact AList.lookup_insert_ne (messageKey_ne_nextMsgIdKey chatroomId other msgId)
  have moved : Redis.counterAt next.db.store (nextMsgIdKey chatroomId) = some (last + 1) := by
    rw [store]
    exact counted_counter log.db.store chatroomId (by omega) (by omega)
  have drawn := kept.draw typed ran rfl (fun _ same => nomatch same) room called counter moved
    (fun msgId _ => others chatroomId msgId)
  refine ⟨kept.sound.perform typed ran, fun other => (drawn other).1, fun other => (drawn other).2,
    ?_, ?_⟩
  · intro entry member
    rw [sameSaved] at member
    unfold key
    rw [others]
    exact kept.stored entry member
  · rw [sameSaved]
    exact kept.increasing

theorem Kept.saveMessage {answer : Answer} (kept : Kept log)
    (typed : (Operation.saveMessage chatroomId message).Typed)
    (ran : (Operation.saveMessage chatroomId message).perform log.db = some (answer, next.db))
    (room : log.calls.count chatroomId + 1 < 2 ^ 31) (called : next.calls = chatroomId :: log.calls)
    (appended : next.saved = entries log.saved (.saveMessage chatroomId message) answer) :
    Kept next := by
  rcases kept.saves room message with ⟨last, after, left, counter, low, small, absent, saving, _, store⟩
  have returned := saveMessage_performs saving
  rw [returned] at ran
  cases ran
  have positive : Not (last + 1 < 0) := by omega
  have extended : next.saved = log.saved ++ [⟨chatroomId, last + 1, left⟩] := by
    rw [appended]
    exact if_neg positive
  have others : forall other msgId, messageKey other msgId ≠ messageKey chatroomId (last + 1) ->
      next.db.store.lookup (messageKey other msgId) =
        log.db.store.lookup (messageKey other msgId) := by
    intro other msgId different
    rw [store, AList.lookup_insert_ne different]
    exact AList.lookup_insert_ne (messageKey_ne_nextMsgIdKey chatroomId other msgId)
  have moved : Redis.counterAt next.db.store (nextMsgIdKey chatroomId) = some (last + 1) := by
    rw [store, Redis.counterAt_congr
      (AList.lookup_insert_ne (messageKey_ne_nextMsgIdKey chatroomId chatroomId (last + 1)).symm)]
    exact counted_counter log.db.store chatroomId (by omega) (by omega)
  have drawn := kept.draw typed returned rfl (fun _ same => nomatch same) room called counter moved
    (fun msgId different => others chatroomId msgId
      (fun same => different (messageKey_injective same).2))
  refine ⟨kept.sound.perform typed returned, fun other => (drawn other).1,
    fun other => (drawn other).2, ?_, ?_⟩
  · intro entry member
    rw [extended] at member
    rcases List.mem_append.mp member with isOld | isNew
    · have found := kept.stored entry isOld
      -- an old record is found and the new key is not
      have different : key entry ≠ messageKey chatroomId (last + 1) := by
        intro same
        rw [same, absent] at found
        cases found
      unfold key at different found ⊢
      rw [others _ _ different, found]
    · rw [List.mem_singleton.mp isNew, store]
      exact AList.lookup_insert _
  · rw [extended, List.pairwise_append]
    refine ⟨kept.increasing, List.pairwise_singleton _ _, ?_⟩
    intro earlier member later isNew same
    rw [List.mem_singleton.mp isNew] at same ⊢
    have bound := kept.ids counter member same
    change earlier.msgId < last + 1
    omega

/-- A deletion takes whole chatrooms out of the log. -/
theorem Kept.delChatrooom {answer : Answer} (kept : Kept log)
    (typed : (Operation.delChatrooom chatroomId).Typed)
    (ran : (Operation.delChatrooom chatroomId).perform log.db = some (answer, next.db))
    (sameCalls : next.calls = log.calls)
    (removed : next.saved = entries log.saved (.delChatrooom chatroomId) answer) : Kept next := by
  rcases delChatrooom_run chatroomId kept.sound.normal kept.sound.brief with
    ⟨after, deleting, _, lookups⟩
  have returned : (Operation.delChatrooom chatroomId).perform log.db =
      some (.number chatroomId, after) :=
    Operation.perform_of_run (Operation.number_of_run deleting)
  rw [returned] at ran
  cases ran
  have covered : forall other key, intText chatroomId <+: intText other -> RoomKey other key ->
      next.db.store.lookup key = none := by
    intro other key covers isKey
    rw [lookups key, if_pos (isKey.prefix_iff.mpr covers)]
  have uncovered : forall other key, Not (intText chatroomId <+: intText other) -> RoomKey other key ->
      next.db.store.lookup key = log.db.store.lookup key := by
    intro other key covers isKey
    rw [lookups key, if_neg (fun starts => covers (isKey.prefix_iff.mp starts))]
  refine ⟨kept.sound.perform typed returned, ?_, ?_, ?_, ?_⟩
  · rw [sameCalls]
    exact kept.few
  · intro other
    rw [sameCalls]
    by_cases covers : intText chatroomId <+: intText other
    · refine ⟨0, ?_, Int.le_refl 0, Int.natCast_nonneg _, ?_⟩
      · unfold Redis.counterAt
        rw [covered other _ covers RoomKey.counter]
      · intro msgId found
        rw [covered other _ covers (RoomKey.message msgId)] at found
        cases found
    · exact (kept.counts other).congr (fun key isLog => uncovered other key covers isLog.room)
  · intro entry member
    rw [removed] at member
    rcases List.mem_filter.mp member with ⟨isOld, covers⟩
    rw [decide_eq_true_eq] at covers
    exact (uncovered entry.chatroomId _ covers (RoomKey.message entry.msgId)).trans
      (kept.stored entry isOld)
  · rw [removed]
    exact kept.increasing.filter _

theorem Kept.step (kept : Kept log) (taken : step Operation.draws log operation = some next) :
    Kept next := by
  rcases step_cases taken with ⟨typed, charged, answer, ran, saved⟩
  have uncharged : operation.draws = none -> next.calls = log.calls := by
    intro noDraw
    rw [noDraw] at charged
    exact (Option.some.inj charged).symm
  cases operation with
  | getNextMsgid chatroomId =>
      rcases charge_some charged with ⟨room, called⟩
      exact kept.getNextMsgid typed ran room called saved
  | saveMessage chatroomId message =>
      rcases charge_some charged with ⟨room, called⟩
      exact kept.saveMessage typed ran room called saved
  | delChatrooom chatroomId => exact kept.delChatrooom typed ran (uncharged rfl) saved
  | _ => exact kept.other typed ran rfl (fun _ same => nomatch same) saved (uncharged rfl)

theorem Kept.appendOnly (kept : Kept log) : AppendOnly Operation.draws log := by
  refine ⟨kept.stored, kept.increasing, ?_⟩
  rintro chatroomId message ⟨_, charged⟩
  rcases Option.isSome_iff_exists.mp charged with ⟨calls, isCalls⟩
  rcases kept.saves (charge_some isCalls).1 message with
    ⟨last, after, left, counter, low, _, absent, saving, stamps, store⟩
  refine ⟨last + 1, left, after, saving, by omega, stamps, absent, ?_, ?_⟩
  · rw [store]
    exact AList.lookup_insert _
  · intro entry member same
    have bound := kept.ids counter member same
    omega

end Steps

/-- The log is append-only in every state of every run that draws fewer than
`2 ^ 31` ids for each chatroom. -/
theorem log_appends (clock : Nat -> Int) (operations : List Operation) :
    Run.Always (step Operation.draws) (AppendOnly Operation.draws) (empty clock) operations := by
  have kept := @Run.invariant _ _ (step Operation.draws) Kept (empty clock) (kept_empty clock)
    (fun _ _ _ kept taken => kept.step taken) operations
  exact kept.mono (fun _ kept => kept.appendOnly)

/-! ## Counting the messages only -/

/-- Only the calls of `save_message` are counted. -/
def saves : Operation -> Option Int
  | .saveMessage chatroomId _ => some chatroomId
  | _ => none

theorem step_of_performs {counted : Operation -> Option Int} {log : Log} {operation : Operation}
    {calls : List Int} {answer : Answer} {after : Db} (typed : operation.Typed)
    (charged : charge log.calls (counted operation) = some calls)
    (ran : operation.perform log.db = some (answer, after)) :
    step counted log operation = some ⟨after, entries log.saved operation answer, calls⟩ := by
  unfold step
  rw [if_pos typed, charged, ran]

/-- Drawing ids many times moves the counter as far, and no call is counted. -/
theorem draw_again (count : Nat) {log : Log} {last : Int} (normal : log.db.Normal)
    (counter : Redis.counterAt log.db.store (nextMsgIdKey 1) = some last) (low : 0 ≤ last)
    (high : last + count < 2 ^ 63 - 1) :
    Exists fun next =>
      Run.after (step saves) log (List.replicate count (.getNextMsgid 1)) = some next ∧
      next.db.Normal ∧ next.calls = log.calls ∧
      Redis.counterAt next.db.store (nextMsgIdKey 1) = some (last + count) ∧
      forall msgId, next.db.store.lookup (messageKey 1 msgId) =
        log.db.store.lookup (messageKey 1 msgId) := by
  refine @Run.after_replicate _ _ (step saves) (.getNextMsgid 1) (fun index state =>
      state.db.Normal ∧ state.calls = log.calls ∧
      Redis.counterAt state.db.store (nextMsgIdKey 1) = some (last + index) ∧
      forall msgId, state.db.store.lookup (messageKey 1 msgId) =
        log.db.store.lookup (messageKey 1 msgId)) count (fun index state isLess holds => ?_) log
    ⟨normal, rfl, counter.trans (congrArg some (Int.add_zero last).symm), fun _ => rfl⟩
  rcases holds with ⟨normalState, calls, counterState, others⟩
  have returned := getNextMsgid_performs normalState counterState (by omega)
  refine ⟨_, step_of_performs (by decide) (congrArg some calls) returned, normalState, rfl, ?_,
    fun msgId => ?_⟩
  · rw [Nat.cast_add, ← Int.add_assoc]
    exact Redis.counterAt_insert state.db.store _ (by omega) (by omega)
  · rw [← others msgId]
    exact AList.lookup_insert_ne (messageKey_ne_nextMsgIdKey 1 1 msgId)

/-- After one message and `2 ^ 32 - 1` further draws the next message is
written over the first one. -/
theorem overwrites (count : Nat) (around : count + 1 = 2 ^ 32) :
    Not (Run.Always (step saves) (AppendOnly saves) (empty (fun _ => 1))
      (.saveMessage 1 Message.sample :: List.replicate count (.getNextMsgid 1))) := by
  intro always
  rcases @Kept.saves (empty (fun _ => 1)) 1 (kept_empty _) (by decide) Message.sample with
    ⟨last, after, left, counter, _, _, _, saving, _, store⟩
  have isFirst : 0 = last := Option.some.inj counter
  subst isFirst
  -- the first message has id 1
  have taken : step saves (empty (fun _ => 1)) (.saveMessage 1 Message.sample) =
      some ⟨after, [⟨1, 1, left⟩], [1]⟩ :=
    step_of_performs (by decide) rfl (saveMessage_performs saving)
  have counterAfter : Redis.counterAt after.store (nextMsgIdKey 1) = some 1 := by
    rw [store, Redis.counterAt_congr
      (AList.lookup_insert_ne (messageKey_ne_nextMsgIdKey 1 1 _).symm)]
    exact counted_counter _ 1 (by decide) (by decide)
  have normal : after.Normal := by
    have kept := (kept_empty (fun _ => 1)).sound.perform (by decide) (saveMessage_performs saving)
    exact kept.normal
  rcases @draw_again count ⟨after, [⟨1, 1, left⟩], [1]⟩ 1 normal counterAfter (by decide) (by omega)
    with ⟨next, leads, normalNext, calls, counterNext, others⟩
  have found : next.db.store.lookup (messageKey 1 1) = some (.hash (recordOf left)) := by
    rw [others 1]
    change after.store.lookup (messageKey 1 1) = _
    rw [store]
    exact AList.lookup_insert _
  -- the counter stands at `2 ^ 32`, so the next id is 1 again
  have number : toInt32 (1 + (count : Int) + 1) = 1 := by
    unfold toInt32
    omega
  have record : Redis.hashAt next.db.store
      (messageKey 1 (zeroExtended (toInt32 (1 + (count : Int) + 1)))) = some (recordOf left) := by
    rw [number]
    change Redis.hashAt next.db.store (messageKey 1 1) = _
    unfold Redis.hashAt
    rw [found]
  have allowed : Allowed saves next (.saveMessage 1 Message.sample) := by
    refine ⟨by decide, ?_⟩
    rw [calls]
    exact (by decide : (charge [1] (some 1)).isSome = true)
  rcases ((always.2 _ taken).finish leads).next 1 Message.sample allowed with
    ⟨msgId, _, _, savingAgain, _, _, absent, _⟩
  rcases saveMessage_stores normalNext counterNext (by omega) (by rw [number]; decide) record
    Message.sample with ⟨_, _, overwriting, _⟩
  rw [overwriting, number] at savingAgain
  cases savingAgain
  rw [found] at absent
  cases absent

/-- Fewer than `2 ^ 31` messages do not suffice. -/
theorem overwrites_after_draws :
    Not (Run.Always (step saves) (AppendOnly saves) (empty (fun _ => 1))
      (.saveMessage 1 Message.sample :: List.replicate (2 ^ 32 - 1) (.getNextMsgid 1))) :=
  overwrites (2 ^ 32 - 1) (by norm_num)

end MessageLog
end ChatHub
