import ChatHub.Server.Dao

namespace ChatHub

/-!
# What the data access layer issues

Every function of the data access layer is composed of commands of a few
known shapes, of readings of the clock and of computation.  `Composed` says
so, once for each function, and what the functions have in common is derived
from it by induction.  Most of all, whatever the commands preserve is
preserved by the function, however the connection answers and also if the
function faults on the way: facts about all states of the database follow
from facts about single commands.
-/

namespace Dao

open ChatHub.Action

variable {Value Result : Type}

/-- The connection's answers are given and the store has a property. -/
def Holds (outcome : Nat -> Redis.Outcome) (inv : Redis.Store -> Prop) (db : Db) : Prop :=
  db.outcome = outcome ∧ inv db.store

/-- The range of an `int`, in which all user ids lie. -/
def UserId (userId : Int) : Prop :=
  -2 ^ 31 ≤ userId ∧ userId < 2 ^ 31

instance (userId : Int) : Decidable (UserId userId) :=
  inferInstanceAs (Decidable (-2 ^ 31 ≤ userId ∧ userId < 2 ^ 31))

theorem userId_toInt32 (z : Int) : UserId (toInt32 z) := by
  unfold UserId toInt32
  omega

theorem atoll_userId {userId : Int} (isUser : UserId userId) : atoll (intText userId) = userId := by
  unfold UserId at isUser
  exact atoll_intText (by omega) (by omega)

/-- A command is answered normally, with an error or with a null pointer. -/
theorem ask_cases (command : Redis.Command) (db : Db) :
    (db.outcome db.issued = .normal ∧
      ask command db = (.ok (Redis.exec db.store command).1, db.issue command)) ∨
    (db.outcome db.issued ≠ .normal ∧
      Exists fun after => ask command db = (.ok (.error (ascii "ERR")), after)) ∨
    (db.outcome db.issued ≠ .normal ∧
      Exists fun after => ask command db = (.error .nullPointer, after)) := by
  unfold ask
  rw [bind_apply]
  cases answer : db.outcome db.issued with
  | normal => simp [redisCommand, answer]
  | error => simp [redisCommand, answer]
  | lost carriedOut => simp [redisCommand, answer]

theorem ask_answered {db : Db} (normal : db.outcome db.issued = .normal) (command : Redis.Command) :
    ask command db = (.ok (Redis.exec db.store command).1, db.issue command) := by
  unfold ask
  rw [bind_apply]
  unfold redisCommand
  rw [normal]
  rfl

theorem ask_refused {db : Db} (refused : db.outcome db.issued = .error) (command : Redis.Command) :
    ask command db = (.ok (.error (ascii "ERR")), { db with issued := db.issued + 1 }) := by
  unfold ask
  rw [bind_apply]
  unfold redisCommand
  rw [refused]
  rfl

theorem ask_lost {db : Db} {carriedOut : Bool} (lost : db.outcome db.issued = .lost carriedOut)
    (command : Redis.Command) : (ask command db).1 = .error .nullPointer := by
  unfold ask
  rw [bind_apply]
  unfold redisCommand
  rw [lost]
  rfl

/-- A command is counted, however it is answered. -/
theorem ask_issued (command : Redis.Command) (db : Db) :
    (ask command db).2.outcome = db.outcome ∧ (ask command db).2.issued = db.issued + 1 := by
  unfold ask
  rw [bind_apply]
  unfold redisCommand
  cases db.outcome db.issued with
  | normal => exact ⟨rfl, rfl⟩
  | error => exact ⟨rfl, rfl⟩
  | lost carriedOut => cases carriedOut <;> exact ⟨rfl, rfl⟩

/-- What the allowed commands preserve is preserved by the action. -/
def Issues (allowed : Redis.Command -> Prop) (action : Action Db Value) : Prop :=
  forall outcome inv,
    (forall store command, allowed command -> inv store -> inv (Redis.exec store command).2) ->
      Keeps (Holds outcome inv) action

/-- The action is composed of allowed commands, readings of the clock and
computation.  What follows an action has to be composed only for the values
that the action can return. -/
inductive Composed (allowed : Redis.Command -> Prop) :
    forall {Value : Type}, Action Db Value -> Prop where
  | pure {Value : Type} (value : Value) : Composed allowed (pure value)
  | fail {Value : Type} (fault : Fault) : Composed allowed (fail fault : Action Db Value)
  | ask {command : Redis.Command} (isAllowed : allowed command) : Composed allowed (ask command)
  | time : Composed allowed currentTimeMillis
  | bind {First Value : Type} {kind : First -> Prop} {first : Action Db First}
      {second : First -> Action Db Value} (composedFirst : Composed allowed first)
      (yields : Yields kind first)
      (composedSecond : forall value, kind value -> Composed allowed (second value)) :
      Composed allowed (first >>= second)

section Rules

variable {allowed : Redis.Command -> Prop}

theorem composed_bind {first : Action Db Value} {second : Value -> Action Db Result}
    (composedFirst : Composed allowed first)
    (composedSecond : forall value, Composed allowed (second value)) :
    Composed allowed (first >>= second) :=
  Composed.bind composedFirst (fun _ _ _ _ => trivial) (fun value _ => composedSecond value)

theorem composed_ite {condition : Prop} [Decidable condition] {left right : Action Db Value}
    (composedLeft : Composed allowed left) (composedRight : Composed allowed right) :
    Composed allowed (if condition then left else right) := by
  split
  · exact composedLeft
  · exact composedRight

theorem composed_str (reply : Redis.Reply) : Composed allowed (str reply) := by
  unfold str
  split
  · exact Composed.fail _
  · exact Composed.pure _

theorem Composed.mono {fewer : Redis.Command -> Prop} {action : Action Db Value}
    (composed : Composed fewer action)
    (implies : forall command, fewer command -> allowed command) : Composed allowed action := by
  induction composed with
  | pure value => exact Composed.pure value
  | fail fault => exact Composed.fail fault
  | ask isFewer => exact Composed.ask (implies _ isFewer)
  | time => exact Composed.time
  | bind _ yields _ inductionFirst inductionSecond =>
      exact Composed.bind inductionFirst yields inductionSecond

theorem issues_ask {command : Redis.Command} (isAllowed : allowed command) :
    Issues allowed (ask command) := by
  intro outcome inv preserved
  apply keeps_bind
  · intro db holds
    unfold redisCommand
    cases db.outcome db.issued with
    | normal => exact ⟨holds.1, preserved db.store command isAllowed holds.2⟩
    | error => exact holds
    | lost carriedOut =>
        cases carriedOut with
        | false => exact holds
        | true => exact ⟨holds.1, preserved db.store command isAllowed holds.2⟩
  · intro reply
    cases reply with
    | none => exact keeps_fail _ _
    | some found => exact keeps_pure _ _

theorem Composed.issues {action : Action Db Value} (composed : Composed allowed action) :
    Issues allowed action := by
  induction composed with
  | pure value => exact fun _ _ _ => keeps_pure _ value
  | fail fault => exact fun _ _ _ => keeps_fail _ fault
  | ask isAllowed => exact issues_ask isAllowed
  | time => exact fun _ _ _ _ holds => holds
  | bind _ yields _ inductionFirst inductionSecond =>
      intro outcome inv preserved
      exact keeps_bind_of_yields (inductionFirst outcome inv preserved) yields
        (fun value isKind => inductionSecond value isKind outcome inv preserved)

/-- What the commands preserve, the action preserves, however they are
answered. -/
theorem Composed.keeps {action : Action Db Value} (composed : Composed allowed action)
    {property : Redis.Store -> Prop}
    (preserved : forall store command, allowed command -> property store ->
      property (Redis.exec store command).2) {db : Db} (holds : property db.store) :
    (action db).2.outcome = db.outcome ∧ property (action db).2.store :=
  composed.issues db.outcome property preserved db ⟨rfl, holds⟩

end Rules

/-! ## The commands of each function -/

theorem isUserExists_composed (username : Bytes) :
    Composed (fun command => command = .hexists usersKey username) (isUserExists username) :=
  composed_bind (Composed.ask rfl) (fun _ => composed_ite (Composed.pure _) (Composed.pure _))

theorem nextId_composed (key : Bytes) :
    Composed (fun command => command = .incr key) (nextId key) :=
  composed_bind (Composed.ask rfl) (fun _ => composed_ite (Composed.pure _) (Composed.pure _))

/-- A counter is read into an `int`. -/
theorem nextId_yields (key : Bytes) : Yields UserId (nextId key) := by
  intro db value after ran
  unfold nextId at ran
  rw [bind_apply] at ran
  split at ran
  · next reply middle _ =>
      split at ran
      · cases ran
        decide
      · cases ran
        exact userId_toInt32 _
  · cases ran

/-- The commands that register a user. -/
inductive Enrols (user : User) : Redis.Command -> Prop where
  | hexists : Enrols user (.hexists usersKey user.usernameString)
  | count : Enrols user (.incr nextUserIdKey)
  | record {userId : Int} (isUser : UserId userId) (time : Int) :
      Enrols user (.hmset (userKey userId)
        [(ascii "username", user.usernameString), (ascii "pass", user.passString),
          (ascii "registerTime", intText time)])
  | index {userId : Int} (isUser : UserId userId) :
      Enrols user (.hset usersKey user.usernameString (intText userId))

theorem storeUser_composed (user : User) : Composed (Enrols user) (storeUser user) := by
  unfold storeUser
  apply Composed.bind ((nextId_composed nextUserIdKey).mono (fun _ same => same ▸ Enrols.count))
    (nextId_yields nextUserIdKey)
  intro userId isUser
  apply composed_bind Composed.time
  intro time
  apply composed_bind (Composed.ask (Enrols.record isUser time))
  intro reply
  apply composed_ite (Composed.pure _)
  apply composed_bind (Composed.ask (Enrols.index isUser))
  intro reply
  exact composed_ite (Composed.pure _) (Composed.pure _)

theorem registerUser_composed (user : User) : Composed (Enrols user) (registerUser user) := by
  unfold registerUser
  apply composed_bind
  · exact (isUserExists_composed _).mono (fun _ same => same ▸ Enrols.hexists)
  · intro present
    exact composed_ite (Composed.pure _) (composed_ite (Composed.pure _) (storeUser_composed user))

/-- The commands that register some user. -/
inductive Registers : Redis.Command -> Prop where
  | hexists (key field : Bytes) : Registers (.hexists key field)
  | count : Registers (.incr nextUserIdKey)
  | record (userId : Int) (username pass time : Bytes) :
      Registers (.hmset (userKey userId)
        [(ascii "username", username), (ascii "pass", pass), (ascii "registerTime", time)])
  | index (username userId : Bytes) : Registers (.hset usersKey username userId)

theorem Enrols.registers {user : User} {command : Redis.Command} (enrols : Enrols user command) :
    Registers command := by
  cases enrols with
  | hexists => exact Registers.hexists _ _
  | count => exact Registers.count
  | record isUser time => exact Registers.record _ _ _ _
  | index isUser => exact Registers.index _ _

/-- The commands that only read. -/
inductive Reads : Redis.Command -> Prop where
  | hexists (key field : Bytes) : Reads (.hexists key field)
  | hget (key field : Bytes) : Reads (.hget key field)
  | hmget (key : Bytes) (fields : List Bytes) : Reads (.hmget key fields)
  | smembers (key : Bytes) : Reads (.smembers key)

theorem Reads.unwritten {command : Redis.Command} (reads : Reads command) (key : Bytes) :
    Not (Redis.Writes command key) := by
  cases reads <;> exact fun writes => writes

theorem lookupUserid_composed (username : Bytes) : Composed Reads (lookupUserid username) := by
  unfold lookupUserid
  apply composed_bind (Composed.ask (Reads.hget _ _))
  intro reply
  apply composed_ite (Composed.pure _)
  exact composed_bind (composed_str reply) (fun _ => Composed.pure _)

theorem resolveUserid_composed (user : User) : Composed Reads (resolveUserid user) :=
  composed_ite (lookupUserid_composed _) (Composed.pure _)

theorem getUseridByName_composed (username : Bytes) : Composed Reads (getUseridByName username) := by
  unfold getUseridByName
  apply composed_bind (lookupUserid_composed username)
  intro found
  cases found with
  | none => exact Composed.pure _
  | some userId => exact Composed.pure _

theorem checkPassword_composed (user : User) (userId : Int) :
    Composed Reads (checkPassword user userId) := by
  unfold checkPassword
  apply composed_bind (Composed.ask (Reads.hmget _ _))
  intro reply
  apply composed_ite (Composed.pure _)
  split
  · apply composed_bind (composed_str _)
    intro username
    apply composed_ite (Composed.pure _)
    apply composed_bind (composed_str _)
    intro pass
    exact composed_ite (Composed.pure _) (Composed.pure _)
  · exact Composed.pure _

theorem loginUser_composed (user : User) : Composed Reads (loginUser user) := by
  unfold loginUser
  apply composed_bind
  · exact (isUserExists_composed _).mono (fun _ same => same ▸ Reads.hexists _ _)
  · intro present
    apply composed_ite (Composed.pure _)
    apply composed_ite (Composed.pure _)
    apply composed_bind (resolveUserid_composed user)
    intro found
    cases found with
    | none => exact Composed.pure _
    | some userId => exact checkPassword_composed user userId

/-- The command that sets the presence fields in the record of a user. -/
def presenceCommand (userId isOnline sockfd : Int) (time : Bytes) : Redis.Command :=
  .hmset (userKey userId)
    [(ascii "isOnline", intText isOnline), (ascii "sockfd", intText sockfd),
      (ascii "lastOnlineTime", time)]

/-- The commands that set a user's presence. -/
inductive Presence (isOnline sockfd : Int) : Redis.Command -> Prop where
  | reads {command : Redis.Command} (isRead : Reads command) : Presence isOnline sockfd command
  | record (userId : Int) (time : Bytes) :
      Presence isOnline sockfd (presenceCommand userId isOnline sockfd time)

theorem setPresence_composed (userId isOnline sockfd : Int) :
    Composed (fun command => Exists fun time => command = presenceCommand userId isOnline sockfd time)
      (setPresence userId isOnline sockfd) := by
  unfold setPresence
  apply composed_bind Composed.time
  intro time
  apply composed_bind (Composed.ask ⟨_, rfl⟩)
  intro reply
  exact composed_ite (Composed.pure _) (Composed.pure _)

theorem setPresence_presence (userId isOnline sockfd : Int) :
    Composed (Presence isOnline sockfd) (setPresence userId isOnline sockfd) := by
  apply (setPresence_composed userId isOnline sockfd).mono
  rintro command ⟨time, same⟩
  exact same ▸ Presence.record userId time

theorem setOffline_composed (user : User) : Composed (Presence 0 (-1)) (setOffline user) := by
  unfold setOffline
  apply composed_bind ((resolveUserid_composed user).mono (fun _ reads => Presence.reads reads))
  intro found
  cases found with
  | none => exact Composed.pure _
  | some userId => exact setPresence_presence userId 0 (-1)

theorem memberIds_composed (elements : List Redis.Reply) : Composed Reads (memberIds elements) := by
  induction elements with
  | nil => exact Composed.pure _
  | cons element rest inductionHypothesis =>
      apply composed_bind (composed_str element)
      intro text
      apply composed_bind inductionHypothesis
      intro others
      exact composed_ite (Composed.pure _) (Composed.pure _)

theorem collectFds_composed (fds users : List Int) : Composed Reads (collectFds fds users) := by
  induction users generalizing fds with
  | nil => exact Composed.pure _
  | cons userId rest inductionHypothesis =>
      apply composed_bind (Composed.ask (Reads.hget _ _))
      intro reply
      apply composed_ite (Composed.pure _)
      apply composed_bind (composed_str reply)
      intro text
      exact composed_ite (inductionHypothesis _) (inductionHypothesis _)

theorem getFdByid_composed (chatroomId : Int) : Composed Reads (getFdByid chatroomId) := by
  unfold getFdByid
  apply composed_bind (Composed.ask (Reads.smembers _))
  intro reply
  apply composed_ite (Composed.pure _)
  exact composed_bind (memberIds_composed _) (fun _ => collectFds_composed _ _)

theorem isUserExistsInchatroom_composed (chatroomId : Int) (username : Bytes) :
    Composed (fun command => command = .sismember (chatroomKey chatroomId) username)
      (isUserExistsInchatroom chatroomId username) :=
  composed_bind (Composed.ask rfl) (fun _ => composed_ite (Composed.pure _) (Composed.pure _))

/-- The commands that create a chatroom of two users. -/
inductive Creates (userId1 userId2 : Int) : Redis.Command -> Prop where
  | count : Creates userId1 userId2 (.incr nextChatroomIdKey)
  | sadd (chatroomId : Int) : Creates userId1 userId2
      (.sadd (chatroomKey (zeroExtended chatroomId)) [intText userId1, intText userId2])

theorem createChatroom_composed (userId1 userId2 : Int) :
    Composed (Creates userId1 userId2) (createChatroom userId1 userId2) := by
  unfold createChatroom
  apply composed_bind
    ((nextId_composed nextChatroomIdKey).mono (fun _ same => same ▸ Creates.count))
  intro chatroomId
  apply composed_ite (Composed.pure _)
  apply composed_bind (Composed.ask (Creates.sadd chatroomId))
  intro reply
  exact composed_ite (Composed.pure _) (Composed.pure _)

theorem leaveChatrooom_composed (chatroomId : Int) (username : Bytes) :
    Composed (fun command => command = .srem (chatroomKey chatroomId) username)
      (leaveChatrooom chatroomId username) :=
  composed_bind (Composed.ask rfl) (fun _ => composed_ite (Composed.pure _) (Composed.pure _))

/-- The commands that save a message in a chatroom. -/
inductive Saves (chatroomId : Int) : Redis.Command -> Prop where
  | count : Saves chatroomId (.incr (nextMsgIdKey chatroomId))
  | record (msgId : Int) (pairs : List (Bytes × Bytes)) :
      Saves chatroomId (.hmset (messageKey chatroomId (zeroExtended msgId)) pairs)

theorem stampMessage_composed {allowed : Redis.Command -> Prop} (message : Message) :
    Composed allowed (stampMessage message) :=
  composed_ite (composed_bind Composed.time (fun _ => Composed.pure _)) (Composed.pure _)

theorem saveMessage_composed (chatroomId : Int) (message : Message) :
    Composed (Saves chatroomId) (saveMessage chatroomId message) := by
  unfold saveMessage
  apply composed_bind ((nextId_composed (nextMsgIdKey chatroomId)).mono
    (fun _ same => same ▸ Saves.count))
  intro msgId
  apply composed_ite (Composed.pure _)
  apply composed_bind (stampMessage_composed message)
  intro stamped
  apply composed_bind (Composed.ask (Saves.record msgId _))
  intro reply
  exact composed_ite (Composed.pure _) (Composed.pure _)

/-- The message that is left belongs to the same group. -/
theorem saveMessage_yields (chatroomId : Int) (message : Message) :
    Yields (fun saved : Int × Message => saved.2.groupId = message.groupId)
      (saveMessage chatroomId message) := by
  have stamps : Yields (fun left : Message => left.groupId = message.groupId)
      (stampMessage message) := by
    refine yields_ite ?_ (yields_pure rfl)
    exact yields_bind (yields_any _) (fun time _ => yields_pure rfl)
  refine yields_bind (yields_any _) (fun msgId _ => ?_)
  refine yields_ite (yields_pure rfl) ?_
  refine yields_bind stamps (fun left sameGroup => ?_)
  refine yields_bind (yields_any _) (fun reply _ => ?_)
  exact yields_ite (yields_pure sameGroup) (yields_pure sameGroup)

/-- The commands that delete the keys of a chatroom. -/
inductive Deletes (chatroomId : Int) : Redis.Command -> Prop where
  | search : Deletes chatroomId (.keys (chatroomKey chatroomId))
  | del {key : Bytes} (starts : chatroomKey chatroomId <+: key) : Deletes chatroomId (.del key)

/-- A pattern search returns keys that start with its text. -/
theorem ask_keys_yields (start : Bytes) :
    Yields (fun reply => forall element, element ∈ reply.elementsField ->
      Exists fun key => element = .string key ∧ start <+: key) (ask (.keys start)) := by
  intro db reply after ran element member
  have either : reply = (Redis.exec db.store (.keys start)).1 ∨ reply = .error (ascii "ERR") := by
    rcases ask_cases (.keys start) db with ⟨_, normal⟩ | ⟨_, later, failed⟩ | ⟨_, later, lost⟩
    · rw [normal] at ran
      cases ran
      exact Or.inl rfl
    · rw [failed] at ran
      cases ran
      exact Or.inr rfl
    · rw [lost] at ran
      cases ran
  rcases either with normal | failed
  · rw [normal] at member
    rcases List.mem_map.mp member with ⟨key, found, same⟩
    exact ⟨key, same.symm, List.isPrefixOf_iff_prefix.mp (List.mem_filter.mp found).2⟩
  · rw [failed] at member
    exact absurd member List.not_mem_nil

theorem copyKeys_yields {kind : Bytes -> Prop} {elements : List Redis.Reply}
    (kinds : forall element, element ∈ elements ->
      Exists fun key => element = .string key ∧ kind key) :
    Yields (fun keys => forall key, key ∈ keys -> kind key) (copyKeys elements) := by
  induction elements with
  | nil =>
      intro db keys after ran key member
      cases ran
      exact absurd member List.not_mem_nil
  | cons element rest inductionHypothesis =>
      rcases kinds element List.mem_cons_self with ⟨first, same, isKind⟩
      have yieldsRest := inductionHypothesis
        (fun other member => kinds other (List.mem_cons_of_mem _ member))
      intro db keys after ran key member
      subst same
      change (if 100 ≤ first.length then fail .overflow else
        copyKeys rest >>= fun others => pure (first :: others)) db = (.ok keys, after) at ran
      split at ran
      · simp at ran
      · rw [bind_apply] at ran
        cases ranRest : copyKeys rest db with
        | mk result middle =>
            cases result with
            | error fault => simp [ranRest] at ran
            | ok others =>
                simp only [ranRest, pure_apply, Prod.mk.injEq, Except.ok.injEq] at ran
                rw [← ran.1] at member
                rcases List.mem_cons.mp member with isFirst | isOther
                · rw [isFirst]
                  exact isKind
                · exact yieldsRest db others middle ranRest key isOther

theorem copyKeys_composed {allowed : Redis.Command -> Prop} (elements : List Redis.Reply) :
    Composed allowed (copyKeys elements) := by
  induction elements with
  | nil => exact Composed.pure _
  | cons element rest inductionHypothesis =>
      apply composed_bind (composed_str element)
      intro key
      apply composed_ite (Composed.fail _)
      exact composed_bind inductionHypothesis (fun _ => Composed.pure _)

theorem deleteKeys_composed {chatroomId : Int} {keys : List Bytes}
    (starts : forall key, key ∈ keys -> chatroomKey chatroomId <+: key) :
    Composed (Deletes chatroomId) (deleteKeys keys) := by
  induction keys with
  | nil => exact Composed.pure _
  | cons key rest inductionHypothesis =>
      apply composed_bind (Composed.ask (Deletes.del (starts key List.mem_cons_self)))
      intro reply
      exact inductionHypothesis (fun other member => starts other (List.mem_cons_of_mem _ member))

theorem delChatrooom_composed (chatroomId : Int) :
    Composed (Deletes chatroomId) (delChatrooom chatroomId) := by
  unfold delChatrooom
  apply Composed.bind (Composed.ask Deletes.search) (ask_keys_yields _)
  intro reply found
  apply composed_ite (Composed.pure _)
  apply Composed.bind (copyKeys_composed _) (copyKeys_yields found)
  intro keys starts
  apply composed_bind (deleteKeys_composed starts)
  intro _
  exact Composed.pure _

/-! ## Keys of users and keys of chatrooms -/

/-- The key belongs to a chatroom. -/
def ChatroomKey (key : Bytes) : Prop :=
  Exists fun chatroomId => chatroomKey chatroomId <+: key

/-- The keys under which users are kept. -/
def UserKey (key : Bytes) : Prop :=
  key = usersKey ∨ key = nextUserIdKey ∨ Exists fun userId => key = userKey userId

/-- The commands that create, change and delete chatrooms of certain users. -/
inductive Chats (user : Int -> Prop) : Redis.Command -> Prop where
  | count : Chats user (.incr nextChatroomIdKey)
  | search (start : Bytes) : Chats user (.keys start)
  | incr {key : Bytes} (isChatroom : ChatroomKey key) : Chats user (.incr key)
  | sadd {key : Bytes} (isChatroom : ChatroomKey key) {userId1 userId2 : Int}
      (isUser1 : user userId1) (isUser2 : user userId2) :
      Chats user (.sadd key [intText userId1, intText userId2])
  | srem {key : Bytes} (isChatroom : ChatroomKey key) (member : Bytes) :
      Chats user (.srem key member)
  | hmset {key : Bytes} (isChatroom : ChatroomKey key) (pairs : List (Bytes × Bytes)) :
      Chats user (.hmset key pairs)
  | del {key : Bytes} (isChatroom : ChatroomKey key) : Chats user (.del key)

theorem ChatroomKey.head {key : Bytes} (isChatroom : ChatroomKey key) : key.head? = some 0x63 := by
  rcases isChatroom with ⟨chatroomId, behind, same⟩
  rw [← same]
  rfl

/-- No key of a user is the key of a chatroom or its counter. -/
theorem UserKey.not_chats {user : Int -> Prop} {key : Bytes} (isUser : UserKey key)
    {command : Redis.Command} (chats : Chats user command) : Not (Redis.Writes command key) := by
  have notChatroom : Not (ChatroomKey key) := by
    intro isChatroom
    have head := isChatroom.head
    rcases isUser with same | same | ⟨userId, same⟩
    · rw [same] at head
      exact absurd head (by decide)
    · rw [same] at head
      exact absurd head (by decide)
    · rw [same] at head
      exact absurd head (by change Not (some 0x75 = some 0x63); decide)
  cases chats with
  | count =>
      intro same
      change key = nextChatroomIdKey at same
      rcases isUser with other | other | ⟨userId, other⟩
      · exact absurd (other.symm.trans same) (by decide)
      · exact absurd (other.symm.trans same) (by decide)
      · have heads := congrArg List.head? (other.symm.trans same)
        exact absurd heads (by change Not (some 0x75 = some 0x6E); decide)
  | search start => exact fun writes => writes
  | incr isChatroom => exact fun same => notChatroom (same ▸ isChatroom)
  | sadd isChatroom _ _ => exact fun same => notChatroom (same ▸ isChatroom)
  | srem isChatroom member => exact fun same => notChatroom (same ▸ isChatroom)
  | hmset isChatroom pairs => exact fun same => notChatroom (same ▸ isChatroom)
  | del isChatroom => exact fun same => notChatroom (same ▸ isChatroom)

theorem chatroomKey_isChatroom (chatroomId : Int) : ChatroomKey (chatroomKey chatroomId) :=
  ⟨chatroomId, List.prefix_rfl⟩

theorem nextMsgIdKey_isChatroom (chatroomId : Int) : ChatroomKey (nextMsgIdKey chatroomId) :=
  ⟨chatroomId, List.prefix_append _ _⟩

theorem messageKey_isChatroom (chatroomId msgId : Int) : ChatroomKey (messageKey chatroomId msgId) := by
  refine ⟨chatroomId, ?_⟩
  unfold messageKey
  rw [List.append_assoc]
  exact List.prefix_append _ _

section Chatrooms

variable {user : Int -> Prop} {command : Redis.Command}

theorem Creates.chats {userId1 userId2 : Int} (isUser1 : user userId1) (isUser2 : user userId2)
    (creates : Creates userId1 userId2 command) : Chats user command := by
  cases creates with
  | count => exact Chats.count
  | sadd => exact Chats.sadd (chatroomKey_isChatroom _) isUser1 isUser2

theorem Saves.chats {chatroomId : Int} (saves : Saves chatroomId command) : Chats user command := by
  cases saves with
  | count => exact Chats.incr (nextMsgIdKey_isChatroom chatroomId)
  | record => exact Chats.hmset (messageKey_isChatroom chatroomId _) _

theorem Deletes.chats {chatroomId : Int} (deletes : Deletes chatroomId command) :
    Chats user command := by
  cases deletes with
  | search => exact Chats.search _
  | del starts => exact Chats.del ⟨chatroomId, starts⟩

theorem srem_chats (chatroomId : Int) (username : Bytes) :
    Chats user (.srem (chatroomKey chatroomId) username) :=
  Chats.srem (chatroomKey_isChatroom chatroomId) username

end Chatrooms

end Dao
end ChatHub
