import ChatHub.Base.Kinds
import ChatHub.Server.Operations
import ChatHub.Server.Registration

namespace ChatHub

/-!
# The keys of users and chatrooms

All users, chatrooms, counters and messages share one flat space of keys.
The number of a chatroom ends at the next colon, so a key belongs to at most
one chatroom, and what stands behind the number tells its kind.  The pattern
of `del_chatrooom` does not look for that colon: it finds the keys of every
chatroom whose number begins with the same digits.
-/

namespace Dao

open ChatHub.Action

/-! ## The parts of a key -/

/-- The number in the key of a chatroom. -/
def roomText (key : Bytes) : Bytes :=
  (key.drop 9).takeWhile (fun c => c != 0x3A)

/-- What stands behind the number in the key of a chatroom. -/
def behindRoom (key : Bytes) : Bytes :=
  (key.drop 9).dropWhile (fun c => c != 0x3A)

/-- Nothing, or a colon and something. -/
def Tail (tail : Bytes) : Prop :=
  tail = [] ∨ Exists fun rest => tail = 0x3A :: rest

theorem intText_noColon (z : Int) : 0x3A ∉ intText z :=
  not_mem_intText z (by decide) (by decide)

theorem room_parts (chatroomId : Int) {tail : Bytes} (isTail : Tail tail) :
    roomText (chatroomKey chatroomId ++ tail) = intText chatroomId ∧
      behindRoom (chatroomKey chatroomId ++ tail) = tail := by
  have dropped : (chatroomKey chatroomId ++ tail).drop 9 = intText chatroomId ++ tail := rfl
  have number : forall c, c ∈ intText chatroomId -> (c != 0x3A) = true := by
    intro c member
    have notColon : c ≠ 0x3A := fun colon => intText_noColon chatroomId (colon ▸ member)
    simpa using notColon
  have stops : tail.takeWhile (fun c => c != 0x3A) = [] ∧
      tail.dropWhile (fun c => c != 0x3A) = tail := by
    rcases isTail with nothing | ⟨rest, colon⟩
    · rw [nothing]
      exact ⟨rfl, rfl⟩
    · rw [colon]
      exact ⟨rfl, rfl⟩
  unfold roomText behindRoom
  rw [dropped, List.takeWhile_append_of_pos number, List.dropWhile_append_of_pos number, stops.1,
    stops.2, List.append_nil]
  exact ⟨rfl, rfl⟩

/-- The keys of a chatroom: its members, its counter and its messages. -/
inductive RoomKey (chatroomId : Int) : Bytes -> Prop where
  | members : RoomKey chatroomId (chatroomKey chatroomId)
  | counter : RoomKey chatroomId (nextMsgIdKey chatroomId)
  | message (msgId : Int) : RoomKey chatroomId (messageKey chatroomId msgId)

theorem messageKey_eq (chatroomId msgId : Int) :
    messageKey chatroomId msgId = chatroomKey chatroomId ++ 0x3A :: intText msgId := by
  unfold messageKey
  rw [List.append_assoc]
  rfl

section RoomKeys

variable {chatroomId other : Int} {key : Bytes}

theorem RoomKey.shape (isKey : RoomKey chatroomId key) :
    Exists fun tail => key = chatroomKey chatroomId ++ tail ∧ Tail tail := by
  cases isKey with
  | members => exact ⟨[], (List.append_nil _).symm, Or.inl rfl⟩
  | counter => exact ⟨ascii ":next_msg_id", rfl, Or.inr ⟨_, rfl⟩⟩
  | message msgId => exact ⟨_, messageKey_eq chatroomId msgId, Or.inr ⟨_, rfl⟩⟩

theorem RoomKey.roomText (isKey : RoomKey chatroomId key) : roomText key = intText chatroomId := by
  rcases isKey.shape with ⟨tail, same, isTail⟩
  rw [same]
  exact (room_parts chatroomId isTail).1

/-- A key belongs to one chatroom. -/
theorem RoomKey.unique (left : RoomKey chatroomId key) (right : RoomKey other key) :
    chatroomId = other :=
  intText_injective (left.roomText.symm.trans right.roomText)

theorem messageKey_injective {msgId otherId : Int}
    (same : messageKey chatroomId msgId = messageKey other otherId) :
    chatroomId = other ∧ msgId = otherId := by
  have rooms := RoomKey.unique (@RoomKey.message chatroomId msgId)
    (same ▸ RoomKey.message otherId)
  subst rooms
  rw [messageKey_eq, messageKey_eq] at same
  exact ⟨rfl, intText_injective (List.cons.inj (List.append_cancel_left same)).2⟩

/-- The pattern of a chatroom finds the keys of the chatrooms whose number
begins with its number. -/
theorem RoomKey.prefix_iff (isKey : RoomKey other key) :
    chatroomKey chatroomId <+: key <-> intText chatroomId <+: intText other := by
  rcases isKey.shape with ⟨tail, same, isTail⟩
  have stripped : chatroomKey chatroomId <+: key <-> intText chatroomId <+: intText other ++ tail := by
    rw [same]
    unfold chatroomKey
    rw [List.append_assoc]
    exact List.prefix_append_right_inj (ascii "chatroom:")
  rw [stripped]
  constructor
  · intro starts
    rcases List.prefix_or_prefix_of_prefix starts (List.prefix_append (intText other) tail) with
      shorter | ⟨more, longer⟩
    · exact shorter
    · -- what is left over would begin with the colon
      rw [← longer] at starts
      have leftOver : more <+: tail := (List.prefix_append_right_inj (intText other)).mp starts
      cases more with
      | nil =>
          rw [← longer, List.append_nil]
      | cons c rest =>
          rcases isTail with nothing | ⟨behind, colon⟩
          · rw [nothing] at leftOver
            exact absurd (List.prefix_nil.mp leftOver) (List.cons_ne_nil _ _)
          · rw [colon] at leftOver
            have isColon : c = 0x3A := (List.cons_prefix_cons.mp leftOver).1
            have member : 0x3A ∈ intText chatroomId := by
              rw [← longer, isColon]
              exact List.mem_append_right _ List.mem_cons_self
            exact absurd member (intText_noColon chatroomId)
  · exact fun starts => starts.trans (List.prefix_append _ tail)

end RoomKeys

/-! ## What the keys are used for -/

/-- The kind of value that a key is used for. -/
def kindOf (key : Bytes) : Redis.Kind :=
  if key = nextUserIdKey ∨ key = nextChatroomIdKey then .counter
  else if (ascii "chatroom:").isPrefixOf key then
    if behindRoom key = [] then .set
    else if behindRoom key = ascii ":next_msg_id" then .counter
    else .hash
  else .hash

/-- The keys that functions write, with the kinds of their values: those of
the users, of the members of certain chatrooms and of the messages of certain
chatrooms. -/
inductive Uses (room log : Int -> Prop) : Bytes -> Redis.Kind -> Prop where
  | users : Uses room log usersKey .hash
  | nextUserId : Uses room log nextUserIdKey .counter
  | user (userId : Int) : Uses room log (userKey userId) .hash
  | nextChatroomId : Uses room log nextChatroomIdKey .counter
  | chatroom {chatroomId : Int} (isRoom : room chatroomId) :
      Uses room log (chatroomKey chatroomId) .set
  | nextMsgId {chatroomId : Int} (isLog : log chatroomId) :
      Uses room log (nextMsgIdKey chatroomId) .counter
  | message {chatroomId : Int} (isLog : log chatroomId) (msgId : Int) :
      Uses room log (messageKey chatroomId (zeroExtended msgId)) .hash

theorem chatroomKey_append_ne (chatroomId : Int) (tail : Bytes) {key : Bytes}
    (head : key.head? ≠ some 0x63) : chatroomKey chatroomId ++ tail ≠ key := by
  intro same
  rw [← same] at head
  exact head rfl

theorem kindOf_room (chatroomId : Int) {tail : Bytes} (isTail : Tail tail) :
    kindOf (chatroomKey chatroomId ++ tail) =
      if tail = [] then .set else if tail = ascii ":next_msg_id" then .counter else .hash := by
  have notCounter : Not (chatroomKey chatroomId ++ tail = nextUserIdKey ∨
      chatroomKey chatroomId ++ tail = nextChatroomIdKey) := by
    rintro (same | same)
    · exact chatroomKey_append_ne chatroomId tail (by decide) same
    · exact chatroomKey_append_ne chatroomId tail (by decide) same
  have starts : (ascii "chatroom:").isPrefixOf (chatroomKey chatroomId ++ tail) = true := by
    rw [List.isPrefixOf_iff_prefix]
    unfold chatroomKey
    rw [List.append_assoc]
    exact List.prefix_append _ _
  unfold kindOf
  rw [if_neg notCounter, if_pos starts, (room_parts chatroomId isTail).2]

theorem kindOf_messageKey (chatroomId msgId : Int) :
    kindOf (messageKey chatroomId msgId) = .hash := by
  rw [messageKey_eq, kindOf_room chatroomId (Or.inr ⟨_, rfl⟩), if_neg (List.cons_ne_nil _ _)]
  apply if_neg
  intro same
  have member : 0x6E ∈ intText msgId := by
    rw [(List.cons.inj same).2]
    decide
  exact absurd member (not_mem_intText msgId (by decide) (by decide))

theorem Uses.kindOf {room log : Int -> Prop} {key : Bytes} {kind : Redis.Kind}
    (uses : Uses room log key kind) : kindOf key = kind := by
  cases uses with
  | users => decide
  | nextUserId => decide
  | user userId =>
      have notCounter : Not (userKey userId = nextUserIdKey ∨ userKey userId = nextChatroomIdKey) := by
        rintro (same | same)
        · exact userKey_ne_nextUserIdKey userId same
        · have heads := congrArg List.head? same
          exact absurd heads (by change Not (some 0x75 = some 0x6E); decide)
      unfold Dao.kindOf
      rw [if_neg notCounter]
      rfl
  | nextChatroomId => decide
  | @chatroom chatroomId =>
      have kind := kindOf_room chatroomId (Or.inl rfl)
      rw [List.append_nil] at kind
      exact kind
  | @nextMsgId chatroomId => exact kindOf_room chatroomId (Or.inr ⟨_, rfl⟩)
  | @message chatroomId isLog msgId => exact kindOf_messageKey chatroomId (zeroExtended msgId)

section Commands

variable {room log : Int -> Prop} {command : Redis.Command} {key : Bytes} {kind : Redis.Kind}

theorem Reads.needs_nothing (reads : Reads command) : Redis.needs command = none := by
  cases reads <;> rfl

theorem Enrols.uses {user : User} (enrols : Enrols user command)
    (isNeeded : Redis.needs command = some (key, kind)) : Uses room log key kind := by
  cases enrols with
  | hexists => cases isNeeded
  | count =>
      cases isNeeded
      exact Uses.nextUserId
  | record isUser time =>
      cases isNeeded
      exact Uses.user _
  | index isUser =>
      cases isNeeded
      exact Uses.users

theorem Presence.uses {isOnline sockfd : Int} (presence : Presence isOnline sockfd command)
    (isNeeded : Redis.needs command = some (key, kind)) : Uses room log key kind := by
  cases presence with
  | reads isRead =>
      rw [isRead.needs_nothing] at isNeeded
      cases isNeeded
  | record userId time =>
      cases isNeeded
      exact Uses.user _

theorem Creates.uses {userId1 userId2 : Int} (creates : Creates userId1 userId2 command)
    (ids : forall chatroomId, room (zeroExtended chatroomId))
    (isNeeded : Redis.needs command = some (key, kind)) : Uses room log key kind := by
  cases creates with
  | count =>
      cases isNeeded
      exact Uses.nextChatroomId
  | sadd chatroomId =>
      cases isNeeded
      exact Uses.chatroom (ids chatroomId)

theorem Saves.uses {chatroomId : Int} (saves : Saves chatroomId command) (isLog : log chatroomId)
    (isNeeded : Redis.needs command = some (key, kind)) : Uses room log key kind := by
  cases saves with
  | count =>
      cases isNeeded
      exact Uses.nextMsgId isLog
  | record msgId pairs =>
      cases isNeeded
      exact Uses.message isLog msgId

theorem Deletes.needs_nothing {chatroomId : Int} (deletes : Deletes chatroomId command) :
    Redis.needs command = none := by
  cases deletes <;> rfl

end Commands

/-- The operations use the keys as they are meant. -/
theorem Operation.uses {operation : Operation} (typed : operation.Typed) {command : Redis.Command}
    (isIssued : operation.Commands command) {key : Bytes} {kind : Redis.Kind}
    (isNeeded : Redis.needs command = some (key, kind)) :
    Uses Operation.LongLong (fun chatroomId => operation.draws = some chatroomId) key kind := by
  have nothing : Redis.needs command = none ->
      Uses Operation.LongLong (fun chatroomId => operation.draws = some chatroomId) key kind := by
    intro none
    rw [none] at isNeeded
    cases isNeeded
  have ids : forall chatroomId, Operation.LongLong (zeroExtended chatroomId) := by
    intro chatroomId
    have range := zeroExtended_range chatroomId
    unfold Operation.LongLong
    omega
  cases operation with
  | registerUser user => exact Enrols.uses isIssued isNeeded
  | loginUser user => exact nothing (Reads.needs_nothing isIssued)
  | logoutUser user => exact Presence.uses isIssued isNeeded
  | setOnline user fd => exact Presence.uses isIssued isNeeded
  | setOffline user => exact Presence.uses isIssued isNeeded
  | getNextUserid =>
      cases isIssued
      cases isNeeded
      exact Uses.nextUserId
  | getUseridByName username => exact nothing (Reads.needs_nothing isIssued)
  | isUserExists username =>
      cases isIssued
      cases isNeeded
  | getFdByid chatroomId => exact nothing (Reads.needs_nothing isIssued)
  | getNextChatroomid =>
      cases isIssued
      cases isNeeded
      exact Uses.nextChatroomId
  | createChatroom userId1 userId2 => exact Creates.uses isIssued ids isNeeded
  | delChatrooom chatroomId => exact nothing (Deletes.needs_nothing isIssued)
  | leaveChatrooom chatroomId username =>
      cases isIssued
      cases isNeeded
      exact Uses.chatroom typed
  | isUserExistsInchatroom chatroomId username =>
      cases isIssued
      cases isNeeded
  | getNextMsgid chatroomId =>
      cases isIssued
      cases isNeeded
      exact Uses.nextMsgId rfl
  | saveMessage chatroomId message => exact Saves.uses isIssued rfl isNeeded

theorem Operation.draws_typed {operation : Operation} (typed : operation.Typed) :
    forall chatroomId, operation.draws = some chatroomId -> Operation.LongLong chatroomId := by
  intro chatroomId draws
  cases operation with
  | getNextMsgid other =>
      cases draws
      exact typed
  | saveMessage other message =>
      cases draws
      exact typed.1
  | _ => cases draws

/-- An operation keeps every key to its kind, whatever the replies. -/
theorem Operation.step_kinds {db next : Db} {operation : Operation}
    (kinds : Redis.WellKinded kindOf db.store) (taken : Operation.step db operation = some next) :
    next.outcome = db.outcome ∧ Redis.WellKinded kindOf next.store := by
  have preserved : operation.Typed -> forall store command, operation.Commands command ->
      Redis.WellKinded kindOf store -> Redis.WellKinded kindOf (Redis.exec store command).2 :=
    fun typed _ _ isIssued held => held.exec
      (fun _ _ isNeeded => (Operation.uses typed isIssued isNeeded).kindOf)
  exact Operation.step_keeps taken preserved kinds

/-- In every database that the operations lead to, every key holds its kind. -/
theorem Operation.kinds_always (outcome : Nat -> Redis.Outcome) (clock : Nat -> Int)
    (operations : List Operation) :
    Run.Always Operation.step
      (fun db => db.outcome = outcome ∧ Redis.WellKinded kindOf db.store)
      { Db.empty clock with outcome := outcome } operations := by
  refine Run.invariant ⟨rfl, Redis.wellKinded_empty kindOf⟩ (fun db _ next held taken => ?_) operations
  rcases Operation.step_kinds held.2 taken with ⟨same, kinds⟩
  exact ⟨same.trans held.1, kinds⟩

theorem userKey_holdsHash {store : Redis.Store} (kinds : Redis.WellKinded kindOf store)
    (userId : Int) : (Redis.hashAt store (userKey userId)).isSome = true := by
  have holds := kinds (userKey userId)
  rw [Uses.kindOf (@Uses.user (fun _ => True) (fun _ => True) userId)] at holds
  exact holds

theorem usersKey_holdsHash {store : Redis.Store} (kinds : Redis.WellKinded kindOf store) :
    (Redis.hashAt store usersKey).isSome = true :=
  kinds usersKey

theorem chatroomKey_holdsSet {store : Redis.Store} (kinds : Redis.WellKinded kindOf store)
    (chatroomId : Int) : (Redis.setAt store (chatroomKey chatroomId)).isSome = true := by
  have holds := kinds (chatroomKey chatroomId)
  rw [Uses.kindOf (@Uses.chatroom (fun _ => True) (fun _ => True) chatroomId trivial)] at holds
  exact holds

/-! ## Deleting a chatroom -/

/-- Keys of chatrooms fit into the arrays of `del_chatrooom`. -/
def Brief (key : Bytes) : Prop :=
  ascii "chatroom:" <+: key -> key.length < 100

theorem brief_of_head {key : Bytes} (head : key.head? ≠ some 0x63) : Brief key := by
  rintro ⟨behind, same⟩
  rw [← same] at head
  exact absurd rfl head

theorem chatroomKey_length {chatroomId : Int} (isRoom : Operation.LongLong chatroomId) :
    (chatroomKey chatroomId).length ≤ 29 := by
  have digits := intText_length_le isRoom.1 isRoom.2
  unfold chatroomKey
  rw [List.length_append]
  change 9 + _ ≤ 29
  omega

theorem Uses.brief {log : Int -> Prop} {key : Bytes} {kind : Redis.Kind}
    (uses : Uses Operation.LongLong log key kind)
    (logs : forall chatroomId, log chatroomId -> Operation.LongLong chatroomId) : Brief key := by
  cases uses with
  | users => exact brief_of_head (by decide)
  | nextUserId => exact brief_of_head (by decide)
  | user userId => exact brief_of_head (by change some 0x75 ≠ some 0x63; decide)
  | nextChatroomId => exact brief_of_head (by decide)
  | chatroom isRoom =>
      intro _
      have short := chatroomKey_length isRoom
      omega
  | nextMsgId isLog =>
      intro _
      have short := chatroomKey_length (logs _ isLog)
      unfold nextMsgIdKey
      rw [List.length_append]
      change _ + 12 < 100
      omega
  | message isLog msgId =>
      intro _
      have short := chatroomKey_length (logs _ isLog)
      have range := zeroExtended_range msgId
      have digits := intText_length_le (z := zeroExtended msgId) (by omega) (by omega)
      rw [messageKey_eq, List.length_append, List.length_cons]
      omega

theorem copyKeys_run {keys : List Bytes} (short : forall key, key ∈ keys -> key.length < 100)
    (db : Db) : copyKeys (keys.map Redis.Reply.string) db = (.ok keys, db) := by
  induction keys with
  | nil => rfl
  | cons key rest inductionHypothesis =>
      have copied := inductionHypothesis (fun other member => short other (List.mem_cons_of_mem _ member))
      change (if 100 ≤ key.length then fail .overflow else
        copyKeys (rest.map Redis.Reply.string) >>= fun others => pure (key :: others)) db = _
      rw [if_neg (Nat.not_le.mpr (short key List.mem_cons_self)), bind_of_ok copied]
      rfl

theorem deleteKeys_run (keys : List Bytes) {db : Db} (normal : db.Normal) :
    Exists fun after => deleteKeys keys db = (.ok (), after) ∧ after.outcome = db.outcome ∧
      forall key, after.store.lookup key = if key ∈ keys then none else db.store.lookup key := by
  induction keys generalizing db with
  | nil => exact ⟨db, rfl, rfl, fun key => (if_neg List.not_mem_nil).symm⟩
  | cons first rest inductionHypothesis =>
      rcases @inductionHypothesis (db.issue (.del first)) (normal.issue _) with
        ⟨after, ran, outcome, lookups⟩
      refine ⟨after, ?_, outcome, fun key => ?_⟩
      · unfold deleteKeys
        rw [ask_bind normal]
        exact ran
      · rw [lookups key]
        change (if key ∈ rest then none else (db.store.erase first).lookup key) = _
        by_cases isFirst : key = first
        · rw [isFirst, AList.lookup_erase, if_pos List.mem_cons_self]
          exact ite_self _
        · rw [AList.lookup_erase_ne isFirst]
          by_cases inRest : key ∈ rest
          · rw [if_pos inRest, if_pos (List.mem_cons_of_mem _ inRest)]
          · rw [if_neg inRest, if_neg (fun member => (List.mem_cons.mp member).elim isFirst inRest)]

/-- Deleting a chatroom removes the keys that its pattern finds and leaves
all others, if the keys that it finds are short. -/
theorem delChatrooom_found {chatroomId : Int} {db : Db} (normal : db.Normal)
    (short : forall key, key ∈ Redis.keysFrom db.store (chatroomKey chatroomId) -> key.length < 100) :
    Exists fun after => delChatrooom chatroomId db = (.ok chatroomId, after) ∧
      after.outcome = db.outcome ∧
      forall key, after.store.lookup key =
        if chatroomKey chatroomId <+: key then none else db.store.lookup key := by
  have searched := copyKeys_run short (db.issue (.keys (chatroomKey chatroomId)))
  rcases deleteKeys_run (Redis.keysFrom db.store (chatroomKey chatroomId))
    (normal.issue (.keys (chatroomKey chatroomId))) with ⟨after, deleted, outcome, lookups⟩
  refine ⟨after, ?_, outcome, fun key => ?_⟩
  · unfold delChatrooom
    rw [ask_bind normal]
    change (copyKeys ((Redis.keysFrom db.store (chatroomKey chatroomId)).map Redis.Reply.string) >>=
      fun keys => deleteKeys keys >>= fun _ => pure chatroomId) _ = _
    rw [bind_of_ok searched, bind_of_ok deleted]
    rfl
  · rw [lookups key]
    change (if key ∈ _ then none else db.store.lookup key) = _
    by_cases starts : chatroomKey chatroomId <+: key
    · rw [if_pos starts]
      by_cases found : (db.store.lookup key).isSome = true
      · exact if_pos (Redis.mem_keysFrom.mpr ⟨found, starts⟩)
      · rw [Option.not_isSome_iff_eq_none.mp found]
        exact ite_self _
    · rw [if_neg starts]
      exact if_neg (fun member => starts (Redis.mem_keysFrom.mp member).2)

/-- Keys that are copied fit. -/
theorem copyKeys_short {keys copied : List Bytes} {db after : Db}
    (ran : copyKeys (keys.map Redis.Reply.string) db = (.ok copied, after)) :
    forall key, key ∈ keys -> key.length < 100 := by
  induction keys generalizing copied after with
  | nil => exact fun _ member => absurd member List.not_mem_nil
  | cons first rest inductionHypothesis =>
      change (if 100 ≤ first.length then fail .overflow else
        copyKeys (rest.map Redis.Reply.string) >>= fun others => pure (first :: others)) db = _ at ran
      by_cases long : 100 ≤ first.length
      · rw [if_pos long] at ran
        cases ran
      · rw [if_neg long] at ran
        rcases ok_of_bind ran with ⟨others, middle, copiedRest, _⟩
        intro key member
        rcases List.mem_cons.mp member with isFirst | inRest
        · exact isFirst ▸ Nat.not_le.mp long
        · exact inductionHypothesis copiedRest key inRest

/-- What a deletion that returns removes. -/
theorem delChatrooom_lookups {db after : Db} (normal : db.Normal) {room result : Int}
    (ran : delChatrooom room db = (.ok result, after)) : forall key, after.store.lookup key =
      if chatroomKey room <+: key then none else db.store.lookup key := by
  have short : forall key, key ∈ Redis.keysFrom db.store (chatroomKey room) -> key.length < 100 := by
    have searched := ran
    unfold delChatrooom at searched
    rw [ask_bind normal] at searched
    rcases ok_of_bind searched with ⟨copied, middle, copies, _⟩
    exact copyKeys_short copies
  rcases delChatrooom_found normal short with ⟨other, ranOther, _, lookups⟩
  rw [ran] at ranOther
  cases ranOther
  exact lookups

/-- Deleting a chatroom removes the keys that its pattern finds and leaves
all others. -/
theorem delChatrooom_run (chatroomId : Int) {db : Db} (normal : db.Normal)
    (brief : Redis.Within Brief db.store) :
    Exists fun after => delChatrooom chatroomId db = (.ok chatroomId, after) ∧
      after.outcome = db.outcome ∧
      forall key, after.store.lookup key =
        if chatroomKey chatroomId <+: key then none else db.store.lookup key := by
  apply delChatrooom_found normal
  intro key member
  rcases Redis.mem_keysFrom.mp member with ⟨found, starts⟩
  exact brief key found ((List.prefix_append _ _).trans starts)

end Dao
end ChatHub
