import ChatHub.Lib.Message
import ChatHub.Server.RoomKeys

namespace ChatHub

/-!
# What deleting a chatroom deletes

`del_chatrooom` is to delete a chatroom and all its messages.  It searches
for `chatroom:` with the number and a `*`, and this pattern also finds the
chatrooms whose number continues the digits: with 1 go 10, 11 and 100.
-/

namespace Deletion

open ChatHub.Action Dao

/-- Deleting the chatroom removes its keys, and nothing that is kept for
another chatroom, for a user or for a counter of ids. -/
structure DeletesExactly (db : Db) (chatroomId : Int) : Prop where
  returns : (delChatrooom chatroomId db).1 = .ok chatroomId
  own : forall key, RoomKey chatroomId key ->
    (delChatrooom chatroomId db).2.store.lookup key = none
  others : forall other key, other ≠ chatroomId -> RoomKey other key ->
    (delChatrooom chatroomId db).2.store.lookup key = db.store.lookup key
  users : forall key, UserKey key ->
    (delChatrooom chatroomId db).2.store.lookup key = db.store.lookup key
  counter : (delChatrooom chatroomId db).2.store.lookup nextChatroomIdKey =
    db.store.lookup nextChatroomIdKey

/-- No chatroom is kept whose number continues the number of this one. -/
def Alone (db : Db) (chatroomId : Int) : Prop :=
  forall other key, other ≠ chatroomId -> intText chatroomId <+: intText other ->
    RoomKey other key -> db.store.lookup key = none

/-- An operation keeps the keys of chatrooms short, whatever the replies. -/
theorem step_brief {db next : Db} {operation : Operation} (brief : Redis.Within Brief db.store)
    (taken : Operation.step db operation = some next) : Redis.Within Brief next.store := by
  have preserved : operation.Typed -> forall store command, operation.Commands command ->
      Redis.Within Brief store -> Redis.Within Brief (Redis.exec store command).2 :=
    fun typed _ _ isIssued within => within.exec
      (fun _ _ isNeeded => (Operation.uses typed isIssued isNeeded).brief (Operation.draws_typed typed))
  exact (Operation.step_keeps taken preserved brief).2

/-- The pattern finds no key of a user and no counter of ids. -/
theorem not_prefix_of_head {chatroomId : Int} {key : Bytes} (head : key.head? ≠ some 0x63) :
    Not (chatroomKey chatroomId <+: key) := by
  rintro ⟨behind, same⟩
  rw [← same] at head
  exact head rfl

theorem userKey_head {key : Bytes} (isUser : UserKey key) : key.head? ≠ some 0x63 := by
  rcases isUser with same | same | ⟨userId, same⟩
  · rw [same]
    decide
  · rw [same]
    decide
  · rw [same]
    change some 0x75 ≠ some 0x63
    decide

theorem deletesExactly_iff {db : Db} (normal : db.Normal) (brief : Redis.Within Brief db.store)
    (chatroomId : Int) : DeletesExactly db chatroomId <-> Alone db chatroomId := by
  rcases delChatrooom_run chatroomId normal brief with ⟨after, ran, _, lookups⟩
  have returned : (delChatrooom chatroomId db).1 = .ok chatroomId := congrArg Prod.fst ran
  have store : (delChatrooom chatroomId db).2 = after := congrArg Prod.snd ran
  constructor
  · intro exactly other key different continues isKey
    have same := exactly.others other key different isKey
    rw [store, lookups key, if_pos ((isKey.prefix_iff).mpr continues)] at same
    exact same.symm
  · intro alone
    refine ⟨returned, ?_, ?_, ?_, ?_⟩
    · intro key isKey
      rw [store, lookups key, if_pos ((isKey.prefix_iff).mpr List.prefix_rfl)]
    · intro other key different isKey
      rw [store, lookups key]
      by_cases continues : intText chatroomId <+: intText other
      · rw [if_pos ((isKey.prefix_iff).mpr continues), alone other key different continues isKey]
      · rw [if_neg (fun starts => continues ((isKey.prefix_iff).mp starts))]
    · intro key isUser
      rw [store, lookups key, if_neg (not_prefix_of_head (userKey_head isUser))]
    · rw [store, lookups _, if_neg (not_prefix_of_head (by decide))]

/-- In every database that the operations lead to, however the commands were
answered, a deletion whose commands are answered normally is exact if and
only if no chatroom continues the number. -/
theorem deletes_exactly_iff_alone (outcome : Nat -> Redis.Outcome) (clock : Nat -> Int)
    (operations : List Operation) :
    Run.Always Operation.step
      (fun db => forall chatroomId, DeletesExactly db.answering chatroomId <-> Alone db chatroomId)
      { Db.empty clock with outcome := outcome } operations := by
  have brief := @Run.invariant _ _ Operation.step (fun db => Redis.Within Brief db.store)
    { Db.empty clock with outcome := outcome } (Redis.within_empty Brief)
    (fun _ _ _ brief taken => step_brief brief taken) operations
  exact brief.mono (fun db brief chatroomId =>
    @deletesExactly_iff db.answering (fun _ => rfl) brief chatroomId)

/-- Deleting chatroom 1 deletes the first message of chatroom 10. -/
theorem roomTen_not_deletesExactly :
    Not (Run.Always Operation.step
      (fun db => forall chatroomId, Operation.LongLong chatroomId ->
        DeletesExactly db.answering chatroomId)
      (Db.empty (fun _ => 1)) [.saveMessage 10 Message.sample]) := by
  have reached : (Run.after Operation.step (Db.empty (fun _ => 1))
      [.saveMessage 10 Message.sample]).map (fun db =>
        ((db.store.lookup (messageKey 10 1)).isSome,
          ((delChatrooom 1 db.answering).2.store.lookup (messageKey 10 1)).isSome)) = some (true, false) := by
    decide +kernel
  intro always
  rcases Option.map_eq_some_iff.mp reached with ⟨db, leads, found⟩
  rw [Prod.mk.injEq] at found
  have same := (always.finish leads 1 (by decide)).others 10 _ (by decide) (RoomKey.message 1)
  change (delChatrooom 1 db.answering).2.store.lookup (messageKey 10 1) =
    db.store.lookup (messageKey 10 1) at same
  rw [same, found.1] at found
  exact absurd found.2 (by decide)

end Deletion
end ChatHub
