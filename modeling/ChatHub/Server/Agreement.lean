import ChatHub.Client.Identity
import ChatHub.Server.Passwords

namespace ChatHub

/-!
# Whether a login happened

`handleLogin` decides by the result of `login_user` and sends it to the
client, which decides by it again.  In between `set_online` writes the
presence into the record, and nobody looks at its result.  Client and record
agree unless this last command is refused.
-/

namespace Agreement

open ChatHub.Action Dao

/-- A server on an empty database whose commands are answered like this. -/
def start (clock : Nat -> Int) (outcome : Nat -> Redis.Outcome) : World :=
  { World.start clock with db := { (World.start clock).db with outcome := outcome } }

/-- The message that `handleLogin` packs. -/
def answer (message : Message) (result : Int) : Message :=
  World.answering message .login result

/-- If the message is handled, the result of `login_user` is sent, and the
client that gets the reply is logged in exactly if the record of the id in the
reply says online on this connection.  What is sent decodes to such a reply, at
least if the request was well-formed. -/
def Agree (world : World) (this : Bufferevent) (message : Message) : Prop :=
  forall next, World.handleAllMessage this message world = (.ok (), next) ->
    Exists fun result => World.Answers world message result ∧
      next.written = world.written ++ [.ofMessage this (answer message result)] ∧
      Identity.IsReply result (answer message result) ∧
      (message.Wellformed -> Message.unpackMessage (answer message result).packMessage =
        .ok (answer message result)) ∧
      forall (client : Client) received, client.isLogin = false ->
        Identity.IsReply result received ->
        ((client.act received).isLogin = true <->
          Online next.db.store (atoll received.msgString) this.fd)

/-- The three commands of `login_user` are answered normally, and the name
leads to a positive id whose record has this name and password. -/
structure Admitted (db : Db) (user : User) (userId : Int) : Prop where
  normal : forall position, position < 3 -> db.outcome (db.issued + position) = .normal
  positive : 0 < userId
  isMatch : Matches db.store user userId

/-- If the fourth command is refused, every admitted user is online here
already. -/
def Harmless (world : World) (this : Bufferevent) (user : User) : Prop :=
  world.db.outcome (world.db.issued + 3) = .error ->
    forall userId, Admitted world.db user userId -> Online world.db.store userId this.fd

/-! ## What the database says in every state -/

/-- The index leads to numbers of type `int`, and who is online has a number
that is positive as an `int`. -/
structure Truthful (store : Redis.Store) : Prop where
  index : forall name text, Redis.fieldAt store usersKey name = some text ->
    Exists fun userId => UserId userId ∧ text = intText userId
  records : Records store
  positive : forall userId fd, Online store userId fd -> 0 < toInt32 userId

theorem truthful_empty : Truthful ∅ where
  index := fun _ _ found => nomatch found
  records := fun _ => rfl
  positive := fun _ _ online => nomatch online.1

section Commands

variable {store : Redis.Store} {command : Redis.Command}

/-- Who is online is read from the records. -/
theorem Truthful.positive_congr {other : Redis.Store} (truthful : Truthful store)
    (users : forall userId, other.lookup (userKey userId) = store.lookup (userKey userId)) :
    forall userId fd, Online other userId fd -> 0 < toInt32 userId := by
  intro userId fd online
  unfold Online HasPresence at online
  rw [Redis.fieldAt_congr (users userId), Redis.fieldAt_congr (users userId)] at online
  exact truthful.positive userId fd online

theorem Truthful.congr {other : Redis.Store} (truthful : Truthful store)
    (index : other.lookup usersKey = store.lookup usersKey)
    (users : forall userId, other.lookup (userKey userId) = store.lookup (userKey userId)) :
    Truthful other where
  index := fun name text found => by
    rw [Redis.fieldAt_congr index] at found
    exact truthful.index name text found
  records := fun userId => by
    rw [Redis.hashAt_congr (users userId)]
    exact truthful.records userId
  positive := truthful.positive_congr users

theorem Truthful.reads (truthful : Truthful store) (reads : Reads command) :
    Truthful (Redis.exec store command).2 := by
  rw [reads.exec_store]
  exact truthful

theorem Truthful.chats (truthful : Truthful store) (chats : Chats (fun _ => True) command) :
    Truthful (Redis.exec store command).2 :=
  truthful.congr (Redis.exec_frame store (UserKey.not_chats (Or.inl rfl) chats))
    (fun userId => Redis.exec_frame store ((userKey_isUser userId).not_chats chats))

/-- A record of a user is no part of the index. -/
theorem Truthful.index_hmset (truthful : Truthful store) (userId : Int)
    (pairs : List (Bytes × Bytes)) : forall name text,
      Redis.fieldAt (Redis.exec store (.hmset (userKey userId) pairs)).2 usersKey name = some text ->
      Exists fun userId => UserId userId ∧ text = intText userId := by
  intro name text found
  rw [Redis.fieldAt_congr (hmset_frame store pairs (userKey_ne_usersKey userId).symm)] at found
  exact truthful.index name text found

/-- A new name leads to the number that it is given. -/
theorem Truthful.index_hset (truthful : Truthful store) (username : Bytes) {userId : Int}
    (isUser : UserId userId) : forall name text,
      Redis.fieldAt (Redis.exec store (.hset usersKey username (intText userId))).2 usersKey name =
        some text -> Exists fun userId => UserId userId ∧ text = intText userId := by
  intro name text found
  rw [Redis.exec_hset_store, Redis.fieldAt_hmset, if_pos rfl] at found
  cases holds : Redis.hashAt store usersKey with
  | none =>
      rw [holds] at found
      cases found
  | some fields =>
      rw [holds, Option.bind_some] at found
      have single : ([(username, intText userId)].map Prod.fst).Nodup := List.nodup_singleton _
      by_cases isNew : name = username
      · rw [isNew, Redis.setFields_lookup_of_mem single List.mem_cons_self] at found
        exact ⟨userId, isUser, (Option.some.inj found).symm⟩
      · rw [Redis.setFields_lookup_of_not_mem (fun named => isNew (List.mem_singleton.mp named))]
          at found
        apply truthful.index name text
        unfold Redis.fieldAt
        rw [holds, Option.bind_some, found]

theorem Truthful.record (truthful : Truthful store) (userId : Int) {isOnline sockfd : Int}
    (time : Bytes) (good : isOnline = 1 -> 0 < toInt32 userId) :
    Truthful (Redis.exec store (presenceCommand userId isOnline sockfd time)).2 where
  index := truthful.index_hmset userId _
  records := hmset_records truthful.records _ _
  positive := fun other fd online => by
    rcases presence_cases truthful.records userId isOnline sockfd time other with
      same | ⟨isUser, set⟩
    · exact truthful.positive other fd (same.symm.hasPresence online)
    · subst isUser
      exact good (intText_injective (Option.some.inj (set.1.symm.trans online.1)))

theorem Truthful.enrols {user : User} (truthful : Truthful store) (enrols : Enrols user command) :
    Truthful (Redis.exec store command).2 := by
  cases enrols with
  | hexists => exact truthful.reads (Reads.hexists _ _)
  | count =>
      exact truthful.congr (Redis.exec_frame store usersKey_ne_nextUserIdKey)
        (fun userId => Redis.exec_frame store (userKey_ne_nextUserIdKey userId))
  | @record userId isUser time =>
      refine ⟨truthful.index_hmset userId _, hmset_records truthful.records _ _,
        fun other fd online => ?_⟩
      unfold Online HasPresence at online
      rw [Redis.fieldAt_hmset_of_not_mem, Redis.fieldAt_hmset_of_not_mem] at online
      · exact truthful.positive other fd online
      · exact (by decide : ascii "sockfd" ∉ [ascii "username", ascii "pass", ascii "registerTime"])
      · exact (by decide : ascii "isOnline" ∉ [ascii "username", ascii "pass", ascii "registerTime"])
  | @index userId isUser =>
      exact ⟨truthful.index_hset user.usernameString isUser,
        frame_records truthful.records userKey_ne_usersKey, truthful.positive_congr
          (fun other => Redis.exec_frame store (userKey_ne_usersKey other))⟩

theorem Truthful.event {event : World.Event} (truthful : Truthful store)
    (isSo : World.EventCommands event command) : Truthful (Redis.exec store command).2 := by
  cases isSo with
  | read _ isSo =>
      cases isSo with
      | register _ _ enrols => exact truthful.enrols enrols
      | login _ isSo =>
          cases isSo with
          | reads isRead => exact truthful.reads isRead
          | record positive time => exact truthful.record _ time (fun _ => positive)
      | logout _ isSo =>
          cases isSo with
          | reads isRead => exact truthful.reads isRead
          | record userId time => exact truthful.record userId time (fun never => nomatch never)
      | chat _ isSo =>
          cases isSo with
          | reads isRead => exact truthful.reads isRead
          | saves isSave => exact truthful.chats isSave.chats
  | createChatroom _ _ creates => exact truthful.chats (creates.chats trivial trivial)
  | leaveChatrooom chatroomId username => exact truthful.chats (srem_chats chatroomId username)
  | delChatrooom deletes => exact truthful.chats deletes.chats

end Commands

theorem Truthful.step {world next : World} {event : World.Event} (truthful : Truthful world.db.store)
    (taken : World.step world event = some next) : Truthful next.db.store :=
  (World.step_keeps taken (fun _ _ isSo kept => kept.event isSo) truthful).2

/-- An id in the index is an `int`. -/
theorem Truthful.isUser {store : Redis.Store} (truthful : Truthful store) {user : User} {userId : Int}
    (isMatch : Matches store user userId) : UserId userId := by
  rcases isMatch.indexed with ⟨text, found, isId⟩
  rcases truthful.index _ text found with ⟨other, isUser, isText⟩
  rw [isText, atoll_userId isUser] at isId
  exact isId ▸ isUser

/-! ## The commands of a login -/

section Logins

variable {db : Db} {user : User} {userId : Int}

theorem checkPassword_passes (normal : db.outcome db.issued = .normal)
    (isMatch : Matches db.store user userId) : checkPassword user userId db = (.ok userId,
      db.issue (.hmget (userKey userId) [ascii "username", ascii "pass"])) := by
  have answered : (Redis.exec db.store
      (.hmget (userKey userId) [ascii "username", ascii "pass"])).1 =
      .array [.string user.usernameString, .string user.passString] := by
    have named := isMatch.named
    have secret := isMatch.secret
    unfold Redis.fieldAt at named secret
    rw [Redis.exec_hmget]
    cases holds : Redis.hashAt db.store (userKey userId) with
    | none =>
        rw [holds] at named
        cases named
    | some fields =>
        rw [holds, Option.bind_some] at named secret
        change Redis.Reply.array [Redis.Reply.ofOption (fields.lookup (ascii "username")),
          Redis.Reply.ofOption (fields.lookup (ascii "pass"))] = _
        rw [named, secret]
        rfl
  unfold checkPassword
  rw [bind_of_ok (ask_answered normal _), answered]
  change (if user.usernameString ≠ user.usernameString then pure errorNormal
    else if user.passString ≠ user.passString then pure errorNormal
    else pure userId : Action Db Int) _ = _
  rw [if_neg (not_not.mpr rfl), if_neg (not_not.mpr rfl)]
  rfl

/-- Who is admitted gets the id after three commands, and nothing is changed. -/
theorem loginUser_admitted (byName : user.userId = 0) (admitted : Admitted db user userId) :
    Exists fun after => loginUser user db = (.ok userId, after) ∧ after.store = db.store ∧
      after.outcome = db.outcome ∧ after.issued = db.issued + 3 := by
  rcases admitted.isMatch.indexed with ⟨text, found, isId⟩
  have inIndex := found
  unfold Redis.fieldAt at inIndex
  rw [Option.bind_eq_some_iff] at inIndex
  rcases inIndex with ⟨fields, holds, present⟩
  -- the name, the id under the name, and the record are looked up
  let named := db.issue (.hexists usersKey user.usernameString)
  have namedStore : named.store = db.store := (Reads.hexists _ _).issue_store db
  let resolved := named.issue (.hget usersKey user.usernameString)
  have resolvedStore : resolved.store = db.store :=
    ((Reads.hget _ _).issue_store named).trans namedStore
  have naming := isUserExists_index (admitted.normal 0 (by decide)) holds user.usernameString
  rw [present, Option.isSome_some, if_pos rfl] at naming
  have resolving : lookupUserid user.usernameString named = (.ok (some userId), resolved) := by
    rw [← namedStore] at found
    rw [lookupUserid_index (admitted.normal 1 (by decide)) found, isId]
  have isMatch := admitted.isMatch
  rw [← resolvedStore] at isMatch
  have checking := checkPassword_passes (admitted.normal 2 (by decide)) isMatch
  let compared := resolved.issue (.hmget (userKey userId) [ascii "username", ascii "pass"])
  have comparedStore : compared.store = db.store :=
    ((Reads.hmget _ _).issue_store resolved).trans resolvedStore
  refine ⟨compared, ?_, comparedStore, rfl, rfl⟩
  unfold loginUser resolveUserid
  rw [bind_of_ok naming, if_neg (by decide), if_neg (by decide), if_pos byName,
    bind_of_ok resolving]
  exact checking

/-- The presence is set, or the command is refused and nothing is set, or it
is lost and its reply is missed. -/
theorem setPresence_cases (db : Db) (userId isOnline sockfd : Int) :
    (db.outcome db.issued = .normal ∧ Exists fun result => Exists fun after => Exists fun time =>
      setPresence userId isOnline sockfd db = (.ok result, after) ∧
      after.store = (Redis.exec db.store (presenceCommand userId isOnline sockfd time)).2) ∨
    (db.outcome db.issued = .error ∧ Exists fun result => Exists fun after =>
      setPresence userId isOnline sockfd db = (.ok result, after) ∧ after.store = db.store) ∨
    (Exists fun carriedOut => db.outcome db.issued = .lost carriedOut) ∧
      (setPresence userId isOnline sockfd db).1 = .error .nullPointer := by
  unfold setPresence
  rw [currentTimeMillis_bind]
  cases answer : db.outcome db.issued with
  | normal =>
      refine Or.inl ⟨rfl, ?_⟩
      rw [bind_of_ok (@ask_answered db.tick answer _)]
      split
      · exact ⟨_, _, _, rfl, rfl⟩
      · exact ⟨_, _, _, rfl, rfl⟩
  | error =>
      refine Or.inr (Or.inl ⟨rfl, ?_⟩)
      rw [bind_of_ok (@ask_refused db.tick answer _)]
      exact ⟨_, _, rfl, rfl⟩
  | lost carriedOut =>
      have lost := @ask_lost db.tick carriedOut answer (presenceCommand userId isOnline sockfd
        (intText (db.clock db.ticks)))
      refine Or.inr (Or.inr ⟨⟨carriedOut, rfl⟩, ?_⟩)
      rw [bind_apply]
      cases ran : ask (presenceCommand userId isOnline sockfd (intText (db.clock db.ticks))) db.tick with
      | mk result after =>
          rw [ran] at lost
          change result = _ at lost
          subst lost
          unfold presenceCommand at ran
          rw [ran]

end Logins

/-! ## The two decisions -/

section Messages

variable {world next : World} {this : Bufferevent} {message : Message} {user : User}

theorem loginUser_range (truthful : Truthful world.db.store) (byName : user.userId = 0) {db : Db}
    {result : Int} (ran : loginUser user world.db = (.ok result, db)) : UserId result := by
  rcases loginUser_cases byName ran with isError | isError | found
  · rw [isError]
    decide
  · rw [isError]
    decide
  · exact truthful.isUser found.2

theorem intText_fits {result : Int} (range : UserId result) :
    (intText result).length < maxMsgData := by
  unfold UserId at range
  have short := intText_length_le (z := result) (by omega) (by omega)
  unfold maxMsgData
  omega

theorem answer_text (message : Message) {result : Int} (range : UserId result) :
    (answer message result).msg.text = intText result :=
  CharArray.strncpy_of_fits (not_mem_intText result (by decide) (by decide))
    (Nat.le_of_lt (intText_fits range))

theorem answer_isReply (message : Message) {result : Int} (range : UserId result) :
    Identity.IsReply result (answer message result) := by
  have terminated := CharArray.strncpy_terminated (intText_fits range)
  refine ⟨rfl, ?_, ?_, ?_⟩
  · exact (CharArray.readThen_of_terminated terminated []).trans (answer_text message range)
  · unfold UserId at range
    omega
  · unfold UserId at range
    omega

/-- The reply to a well-formed request is well-formed. -/
theorem answer_wellformed (wellformed : message.Wellformed) {result : Int} (range : UserId result) :
    (answer message result).Wellformed where
  msgTerminated := CharArray.strncpy_terminated (intText_fits range)
  senderTerminated := wellformed.senderTerminated
  msgUtf8 := by
    rw [answer_text message range]
    exact Parson.utf8_intText result
  senderUtf8 := wellformed.senderUtf8
  msgIdExact := wellformed.msgIdExact
  groupIdExact := wellformed.groupIdExact
  sendTimeExact := wellformed.sendTimeExact
  typeKnown := ⟨.login, rfl⟩

theorem answer_arrives (wellformed : message.Wellformed) {result : Int} (range : UserId result) :
    Message.unpackMessage (answer message result).packMessage = .ok (answer message result) := by
  have unpacked := Message.unpackMessage_serialized (answer_wellformed wellformed range)
    Parson.delimited_nil
  rw [List.append_nil] at unpacked
  exact unpacked

/-- How a login is handled: the result is sent, and a positive one sets the
presence before. -/
theorem handleLogin_cases (parsed : msg2user message = .ok user)
    (ran : World.handleLogin this message world = (.ok (), next)) :
    Exists fun result => Exists fun db => loginUser user world.db = (.ok result, db) ∧
      next.written = world.written ++ [.ofMessage this (answer message result)] ∧
      if 0 < toInt32 result then
        Exists fun value => setPresence result 1 this.fd db = (.ok value, next.db)
      else next.db = db := by
  have performed : World.perform (World.handleLogin this message) world = some next := by
    unfold World.perform
    rw [ran]
  rcases World.perform_bind performed with ⟨other, sameAs, parsing, rest⟩
  have sameWorld : world = sameAs := congrArg Prod.snd parsing
  have sameUser : other = user := by
    have isOther : msg2user message = .ok other := congrArg Prod.fst parsing
    rw [parsed] at isOther
    exact (Except.ok.inj isOther).symm
  subst sameWorld sameUser
  rcases World.perform_dao_bind rest with ⟨result, db, answered, finished⟩
  refine ⟨result, db, answered, ?_⟩
  unfold World.finishLogin at finished
  by_cases positive : 0 < toInt32 result
  · rw [if_pos positive] at finished ⊢
    rcases World.perform_dao_bind finished with ⟨value, after, presence, logging⟩
    rcases World.perform_bind logging with ⟨_, middle, recorded, written⟩
    cases recorded
    rw [World.perform_write written]
    exact ⟨rfl, value, presence⟩
  · rw [if_neg positive] at finished ⊢
    rw [World.perform_write finished]
    exact ⟨rfl, rfl⟩

/-- With a refused presence command, a login that is admitted is handled to
the end, and the store is left as it is. -/
theorem handleLogin_refused (isOpen : this ∈ world.conns.opened)
    (parsed : msg2user message = .ok user) {userId : Int} (admitted : Admitted world.db user userId)
    (positive : 0 < toInt32 userId) (refused : world.db.outcome (world.db.issued + 3) = .error) :
    Exists fun after => World.handleLogin this message world = (.ok (), after) ∧
      after.db.store = world.db.store := by
  rcases loginUser_admitted (Passwords.msg2user_byName parsed) admitted with
    ⟨db, answered, store, outcome, issued⟩
  have refusedThere : db.outcome db.issued = .error := by
    rw [outcome, issued]
    exact refused
  rcases setPresence_cases db userId 1 this.fd with
    ⟨normal, _⟩ | ⟨_, value, after, setting, sameStore⟩ | ⟨⟨carriedOut, isLost⟩, _⟩
  · rw [normal] at refusedThere
    cases refusedThere
  · let set : World := { world with db := after }
    have setting' : World.dao (setOnline { user with userId := userId } this.fd)
        { world with db := db } = (.ok value, set) := World.dao_of_run setting
    refine ⟨{ set with
      logins := (this, userId) :: world.logins
      written := world.written ++ [.ofMessage this (answer message userId)] }, ?_,
      sameStore.trans store⟩
    unfold World.handleLogin
    rw [bind_ofExcept parsed, bind_of_ok (World.dao_of_run answered)]
    unfold World.finishLogin
    rw [if_pos positive, bind_of_ok setting']
    change World.buffereventWrite this _ _ { set with logins := (this, userId) :: world.logins } = _
    unfold World.buffereventWrite
    exact if_pos isOpen
  · rw [isLost] at refusedThere
    cases refusedThere

/-- The client that gets a reply with an `int` is logged in if it is positive. -/
theorem act_iff {result : Int} {received : Message} (isReply : Identity.IsReply result received)
    {client : Client} (loggedOut : client.isLogin = false) :
    (client.act received).isLogin = true <-> 0 < result := by
  by_cases positive : 0 < result
  · exact ⟨fun _ => positive, fun _ => (Identity.act_accepted isReply positive client).1⟩
  · refine ⟨fun loggedIn => ?_, fun isPositive => absurd isPositive positive⟩
    rw [(Identity.act_refused isReply positive client).1, loggedOut] at loggedIn
    cases loggedIn

theorem Truthful.agree (truthful : Truthful world.db.store) (isLogin : message.type = MessageType.login.code)
    (parsed : msg2user message = .ok user) (harmless : Harmless world this user) :
    Agree world this message := by
  intro next ran
  rw [World.handleAllMessage_login this isLogin] at ran
  have byName := Passwords.msg2user_byName parsed
  rcases handleLogin_cases parsed ran with ⟨result, db, answered, written, presence⟩
  have range := loginUser_range truthful byName answered
  have sameInt : toInt32 result = result := toInt32_eq_self range.1 range.2
  have sameStore : db.store = world.db.store := by
    have unchanged := ((loginUser_composed user).reads_only world.db).2
    rw [answered] at unchanged
    exact unchanged
  refine ⟨result, ⟨user, parsed, congrArg Prod.fst answered⟩, written,
    answer_isReply message range, fun wellformed => answer_arrives wellformed range, ?_⟩
  intro client received loggedOut isReply
  have number : atoll received.msgString = result := by
    rw [isReply.2.1, atoll_intText isReply.2.2.1 isReply.2.2.2]
  rw [act_iff isReply loggedOut, number]
  rw [sameInt] at presence
  by_cases positive : 0 < result
  · rw [if_pos positive] at presence
    rcases presence with ⟨value, setting⟩
    refine ⟨fun _ => ?_, fun _ => positive⟩
    have isMatch := loginUser_matches byName answered (sameInt.symm ▸ positive)
    have admitted : Admitted world.db user result := ⟨isMatch.1, positive, isMatch.2⟩
    rcases loginUser_admitted byName admitted with ⟨_, again, _, outcome, issued⟩
    rw [answered] at again
    cases again
    rcases setPresence_cases db result 1 this.fd with
      ⟨_, _, after, time, set, store⟩ | ⟨refused, _, after, set, store⟩ | ⟨_, lost⟩
    · rw [setting] at set
      cases set
      rw [store]
      exact hasPresence_of_record (sameStore ▸ truthful.records result) 1 this.fd time
    · rw [setting] at set
      cases set
      rw [outcome, issued] at refused
      rw [store, sameStore]
      exact harmless refused result admitted
    · rw [setting] at lost
      cases lost
  · rw [if_neg positive] at presence
    rw [presence, sameStore]
    refine ⟨fun isPositive => absurd isPositive positive, fun online => ?_⟩
    have isPositive := truthful.positive result this.fd online
    exact sameInt ▸ isPositive

/-- An admitted user whose presence is refused is told of a login that the
record does not know. -/
theorem Truthful.harmless (truthful : Truthful world.db.store) (isOpen : this ∈ world.conns.opened)
    (isLogin : message.type = MessageType.login.code) (parsed : msg2user message = .ok user)
    (agree : Agree world this message) : Harmless world this user := by
  intro refused userId admitted
  have range := truthful.isUser admitted.isMatch
  have sameInt : toInt32 userId = userId := toInt32_eq_self range.1 range.2
  rcases handleLogin_refused isOpen parsed admitted (sameInt.symm ▸ admitted.positive) refused with
    ⟨after, ran, store⟩
  rw [← World.handleAllMessage_login this isLogin] at ran
  rcases agree after ran with ⟨result, ⟨other, isOther, answered⟩, _, isReply, _, decides⟩
  rw [parsed] at isOther
  cases isOther
  rcases loginUser_admitted (Passwords.msg2user_byName parsed) admitted with ⟨_, again, _⟩
  rw [again] at answered
  cases answered
  have online := (decides Client.start _ rfl isReply).mp
    ((act_iff isReply rfl).mpr admitted.positive)
  rw [isReply.2.1, atoll_intText isReply.2.2.1 isReply.2.2.2, store] at online
  exact online

end Messages

/-- In every state of every run, however the commands are answered, client and
server agree on a login exactly if its fourth command is not refused, or
nobody is admitted who is not online here already. -/
theorem agree_iff_harmless (clock : Nat -> Int) (outcome : Nat -> Redis.Outcome)
    (events : List World.Event) :
    Run.Always World.step (fun world => forall this message user, this ∈ world.conns.opened ->
      message.type = MessageType.login.code -> msg2user message = .ok user ->
      (Agree world this message <-> Harmless world this user)) (start clock outcome) events := by
  have truthful := @Run.invariant _ _ World.step (fun world => Truthful world.db.store)
    (start clock outcome) truthful_empty (fun _ _ _ truthful taken => truthful.step taken) events
  refine truthful.mono (fun world truthful this message user isOpen isLogin parsed => ?_)
  exact ⟨truthful.harmless isOpen isLogin parsed, truthful.agree isLogin parsed⟩

/-- The eighth command is refused. -/
def refusedPresence : World :=
  start (fun _ => 0) (fun index => if index = 7 then .error else .normal)

/-- A registration issues four commands. -/
def bobRegisters : List World.Event :=
  [.accept 5, World.arrival ⟨0, 5⟩ (World.request .register 0 "bob secret")]

/-- Bob is told that he is logged in as user 1, and his record does not say so. -/
theorem refusedPresence_not_agree :
    Not (Run.Always World.step (fun world => forall this message, this ∈ world.conns.opened ->
      message.type = MessageType.login.code -> Agree world this message)
      refusedPresence bobRegisters) := by
  intro always
  have reached : (Run.after World.step refusedPresence bobRegisters).map (fun world =>
      (world.conns.opened,
        (msg2user (World.request .login 0 "bob secret")).toOption.bind
          (fun user => (loginUser user world.db).1.toOption),
        (World.handleAllMessage ⟨0, 5⟩ (World.request .login 0 "bob secret") world).1.isOk,
        Redis.fieldAt (World.handleAllMessage ⟨0, 5⟩ (World.request .login 0 "bob secret")
          world).2.db.store (userKey 1) (ascii "isOnline"))) =
      some ([⟨0, 5⟩], some 1, true, none) := by
    decide +kernel
  rcases Option.map_eq_some_iff.mp reached with ⟨world, leads, facts⟩
  rw [Prod.mk.injEq, Prod.mk.injEq, Prod.mk.injEq] at facts
  rcases facts with ⟨opened, answers, handled, offline⟩
  have agree := always.finish leads ⟨0, 5⟩ (World.request .login 0 "bob secret")
    (opened ▸ List.mem_singleton_self _) rfl
  cases ran : World.handleAllMessage ⟨0, 5⟩ (World.request .login 0 "bob secret") world with
  | mk returned next =>
      rw [ran] at handled offline
      cases returned with
      | error fault => cases handled
      | ok _ =>
          rcases agree next ran with ⟨result, ⟨user, parsed, answered⟩, _, isReply, _, decides⟩
          rw [parsed] at answers
          change (loginUser user world.db).1.toOption = some 1 at answers
          rw [answered] at answers
          cases answers
          have online := (decides Client.start _ rfl isReply).mp
            ((act_iff isReply rfl).mpr (by decide))
          rw [isReply.2.1, atoll_intText isReply.2.2.1 isReply.2.2.2] at online
          have isOnline := online.1
          change Redis.fieldAt next.db.store (userKey 1) (ascii "isOnline") = none at offline
          rw [offline] at isOnline
          cases isOnline

end Agreement
end ChatHub
