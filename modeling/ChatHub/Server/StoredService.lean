import ChatHub.Server.Deletion
import ChatHub.Server.Membership
import ChatHub.Server.Passwords
import ChatHub.Server.Service

namespace ChatHub

/-!
# The service in the database

Which keys of the database stand for the accounts and the seats of the service
and which for its rooms.  The functions of the data access layer change these
keys as the service changes.  The order in which a set lists the members of a
room plays no role.
-/

/-- The service that this server provides. -/
abbrev Chat := Service Bytes Bytes Bufferevent Message

namespace StoredService

open ChatHub.Action Dao

/-- An account is a registration. -/
def registration (account : Service.Account Bytes Bytes) : Registration where
  username := account.name
  pass := account.secret
  userId := account.number

/-- The accounts are those in the directory, and the records of the users name
the descriptors of the seats. -/
structure Users (chat : Chat) (store : Redis.Store) : Prop where
  directory : Directory (chat.accounts.map registration) store
  small : chat.accounts.length < 2 ^ 31
  seats : forall userId, positiveSockfd store userId = (chat.seat userId).map Bufferevent.fd

/-- The store has a set with these members. -/
def HasMembers (store : Redis.Store) (room : Int) (members : List Int) : Prop :=
  Exists fun set => Redis.setAt store (chatroomKey room) = some set ∧
    set.members.Perm (members.map intText)

/-- The rooms have the members of the service, and the counter is theirs. -/
structure Rooms (chat : Chat) (store : Redis.Store) : Prop where
  members : forall room, HasMembers store room (chat.rooms room)
  created : Redis.counterAt store nextChatroomIdKey = some (chat.created : Int)

variable {chat : Chat} {store other : Redis.Store}

theorem users_start : Users Service.start ∅ where
  directory := directory_empty
  small := by decide
  seats := fun _ => rfl

theorem rooms_start : Rooms Service.start ∅ where
  members := fun _ => ⟨Redis.Members.empty, rfl, List.Perm.refl _⟩
  created := rfl

/-! ## Keys of users and keys of rooms -/

theorem not_user_of_chatroom {key : Bytes} (isChatroom : ChatroomKey key) : Not (UserKey key) :=
  fun isUser => isUser.not_chats (@Chats.incr (fun _ => True) key isChatroom) rfl

theorem not_user_counter : Not (UserKey nextChatroomIdKey) :=
  fun isUser => isUser.not_chats (@Chats.count (fun _ => True)) rfl

/-- The members and the counter of the rooms are as before. -/
structure SameRooms (store other : Redis.Store) : Prop where
  members : forall room, other.lookup (chatroomKey room) = store.lookup (chatroomKey room)
  created : other.lookup nextChatroomIdKey = store.lookup nextChatroomIdKey

theorem SameRooms.refl (store : Redis.Store) : SameRooms store store :=
  ⟨fun _ => rfl, rfl⟩

theorem SameRooms.trans {last : Redis.Store} (first : SameRooms store other)
    (second : SameRooms other last) : SameRooms store last :=
  ⟨fun room => (second.members room).trans (first.members room), second.created.trans first.created⟩

/-- A command that writes keys of users only. -/
theorem sameRooms_of_users {command : Redis.Command}
    (writes : forall key, Redis.Writes command key -> UserKey key) :
    SameRooms store (Redis.exec store command).2 where
  members := fun room => Redis.exec_frame store
    (fun isWritten => not_user_of_chatroom (chatroomKey_isChatroom room) (writes _ isWritten))
  created := Redis.exec_frame store (fun isWritten => not_user_counter (writes _ isWritten))

theorem sameRooms_of_presence (userId isOnline sockfd : Int) (time : Bytes) :
    SameRooms store (Redis.exec store (presenceCommand userId isOnline sockfd time)).2 :=
  sameRooms_of_users (fun _ isWritten => Or.inr (Or.inr ⟨userId, isWritten⟩))

theorem sameRooms_of_registers {command : Redis.Command} (registers : Registers command) :
    SameRooms store (Redis.exec store command).2 := by
  apply sameRooms_of_users
  intro key isWritten
  cases registers with
  | hexists => exact isWritten.elim
  | count => exact Or.inr (Or.inl isWritten)
  | record userId => exact Or.inr (Or.inr ⟨userId, isWritten⟩)
  | index => exact Or.inl isWritten

/-- The counter and the messages of a room have other keys than the members of
any room. -/
theorem sameRooms_of_saves {chatroomId : Int} {command : Redis.Command}
    (saves : Saves chatroomId command) : SameRooms store (Redis.exec store command).2 := by
  have kind : forall room, kindOf (chatroomKey room) = .set := fun room =>
    Uses.kindOf (@Uses.chatroom (fun _ => True) (fun _ => True) room trivial)
  refine ⟨fun room => Redis.exec_frame store ?_, Redis.exec_frame store ?_⟩
  · cases saves with
    | count =>
        intro same
        have other := Uses.kindOf (@Uses.nextMsgId (fun _ => True) (fun _ => True) chatroomId trivial)
        rw [← (same : chatroomKey room = _), kind room] at other
        cases other
    | @record msgId =>
        intro same
        have other := kindOf_messageKey chatroomId (zeroExtended msgId)
        rw [← (same : chatroomKey room = _), kind room] at other
        cases other
  · have notChatroom : Not (ChatroomKey nextChatroomIdKey) := fun isChatroom =>
      absurd isChatroom.head (by decide)
    cases saves with
    | count => exact fun same => notChatroom ((same : nextChatroomIdKey = _) ▸ nextMsgIdKey_isChatroom _)
    | record => exact fun same => notChatroom ((same : nextChatroomIdKey = _) ▸ messageKey_isChatroom _ _)

theorem Rooms.congr (rooms : Rooms chat store) (same : SameRooms store other) : Rooms chat other where
  members := fun room => by
    unfold HasMembers
    rw [Redis.setAt_congr (same.members room)]
    exact rooms.members room
  created := (Redis.counterAt_congr same.created).trans rooms.created

theorem Users.congr (users : Users chat store)
    (same : forall key, UserKey key -> other.lookup key = store.lookup key) : Users chat other where
  directory := users.directory.congr same
  small := users.small
  seats := fun userId => by
    have presence : SamePresence store other userId := fun name _ =>
      Redis.fieldAt_congr (same _ (userKey_isUser userId)) name
    rw [presence.positiveSockfd]
    exact users.seats userId

theorem Users.chats (users : Users chat store) {user : Int -> Prop} {command : Redis.Command}
    (chats : Chats user command) : Users chat (Redis.exec store command).2 :=
  users.congr (fun _ isUser => Redis.exec_frame store (isUser.not_chats chats))

/-! ## Seats -/

/-- Setting the presence of a user sets the descriptor of that user only. -/
theorem positiveSockfd_presence (records : Records store) (userId isOnline : Int) {sockfd : Int}
    (low : -2 ^ 31 ≤ sockfd) (high : sockfd < 2 ^ 31) (time : Bytes) (user : Int) :
    positiveSockfd (Redis.exec store (presenceCommand userId isOnline sockfd time)).2 user =
      if user = userId then (if 0 < sockfd then some sockfd else none)
      else positiveSockfd store user := by
  by_cases same : user = userId
  · rw [if_pos same, same]
    have read := (hasPresence_of_record (records userId) isOnline sockfd time).sockfdOf low high
    unfold positiveSockfd
    rw [read]
    by_cases positive : 0 < sockfd
    · simp [Option.filter, positive]
    · simp [Option.filter, positive]
  · rw [if_neg same]
    have presence : SamePresence store
        (Redis.exec store (presenceCommand userId isOnline sockfd time)).2 user :=
      samePresence_of_frame (fun sameKey : userKey user = userKey userId =>
        same (userKey_injective sameKey))
    exact presence.positiveSockfd

/-- A user is set online or offline as the seat changes. -/
theorem Users.place (users : Users chat store) (records : Records store) (userId isOnline : Int)
    {sockfd : Int} (low : -2 ^ 31 ≤ sockfd) (high : sockfd < 2 ^ 31) (time : Bytes)
    {seat : Option Bufferevent}
    (isSeat : (if 0 < sockfd then some sockfd else none) = seat.map Bufferevent.fd) :
    Users (chat.place userId seat)
      (Redis.exec store (presenceCommand userId isOnline sockfd time)).2 where
  directory := users.directory.presence (Presence.record userId time)
  small := users.small
  seats := fun user => by
    rw [positiveSockfd_presence records userId isOnline low high, Service.seat_place]
    by_cases same : user = userId
    · rw [if_pos same, if_pos same, isSeat]
    · rw [if_neg same, if_neg same]
      exact users.seats user

section Presence

variable {db : Db} {registered : List Registration}

/-- On a record, setting the presence succeeds. -/
theorem setPresence_answers (normal : db.Normal) {userId : Int}
    (record : (Redis.hashAt db.store (userKey userId)).isSome) (isOnline sockfd : Int) :
    Exists fun time => Exists fun after =>
      setPresence userId isOnline sockfd db = (.ok userId, after) ∧
        after.store = (Redis.exec db.store (presenceCommand userId isOnline sockfd time)).2 := by
  rcases Option.isSome_iff_exists.mp record with ⟨fields, holds⟩
  refine ⟨intText (db.clock db.ticks),
    db.tick.issue (presenceCommand userId isOnline sockfd (intText (db.clock db.ticks))), ?_, rfl⟩
  have answered : (Redis.exec db.tick.store
      (presenceCommand userId isOnline sockfd (intText (db.clock db.ticks)))).1.isError = false := by
    unfold presenceCommand
    rw [@Redis.exec_hmset_of_hash db.tick.store _ _ holds]
    rfl
  unfold setPresence
  rw [currentTimeMillis_bind, ask_bind normal.tick]
  change (if (Redis.exec db.tick.store
    (presenceCommand userId isOnline sockfd (intText (db.clock db.ticks)))).1.isError then _
    else _ : Action Db Int) _ = _
  rw [answered]
  rfl

/-- A logout by a registered name sets the user offline. -/
theorem logoutUser_known (normal : db.Normal) (directory : Directory registered db.store)
    (small : registered.length < 2 ^ 31) {registration : Registration}
    (member : registration ∈ registered) {user : User} (byName : user.userId = 0)
    (sameName : user.usernameString = registration.username) :
    Exists fun time => Exists fun after =>
      logoutUser user db = (.ok registration.userId, after) ∧
        after.store = (Redis.exec db.store (presenceCommand registration.userId 0 (-1) time)).2 := by
  have resolved := lookupUserid_run normal directory member small
  have unchanged := (Reads.hget usersKey registration.username).issue_store db
  rcases @setPresence_answers (db.issue (.hget usersKey registration.username)) (normal.issue _)
    registration.userId (unchanged.symm ▸ directory.records _) 0 (-1) with ⟨time, after, ran, store⟩
  rw [unchanged] at store
  refine ⟨time, after, ?_, store⟩
  unfold logoutUser setOffline resolveUserid
  rw [if_pos byName, sameName, bind_of_ok resolved]
  exact ran

/-- A logout by another name does not return. -/
theorem logoutUser_unknown (normal : db.Normal) (directory : Directory registered db.store)
    {user : User} (byName : user.userId = 0)
    (unknown : user.usernameString ∉ registered.map Registration.username) :
    (logoutUser user db).1 = .error .nullPointer := by
  rcases directory.index with ⟨fields, holds, lookups⟩
  have missing := indexOf_eq_none unknown
  have failed : lookupUserid user.usernameString db =
      (.error .nullPointer, db.issue (.hget usersKey user.usernameString)) := by
    unfold lookupUserid
    rw [ask_bind normal]
    simp only [Redis.exec, holds, lookups, missing]
    rfl
  unfold logoutUser setOffline resolveUserid
  rw [if_pos byName, bind_of_error failed]

end Presence

/-! ## Accounts -/

theorem usernames (accounts : List (Service.Account Bytes Bytes)) :
    (accounts.map registration).map Registration.username = accounts.map Service.Account.name :=
  List.map_map

theorem registers_samePresence {command : Redis.Command} (registers : Registers command)
    (userId : Int) : SamePresence store (Redis.exec store command).2 userId := by
  cases registers with
  | hexists => exact samePresence_of_frame (fun isWritten => isWritten)
  | count => exact samePresence_of_frame (userKey_ne_nextUserIdKey userId)
  | index => exact samePresence_of_frame (userKey_ne_usersKey userId)
  | record =>
      have different : forall name, name ∈ [ascii "isOnline", ascii "sockfd"] ->
          name ∉ [ascii "username", ascii "pass", ascii "registerTime"] := by
        decide
      intro name isPresence
      apply Redis.fieldAt_hmset_of_not_mem
      exact different name isPresence

/-- Registering a user leaves the rooms and all descriptors alone. -/
theorem registerUser_leaves (user : User) (db : Db) :
    SameRooms db.store (registerUser user db).2.store ∧
      forall userId, SamePresence db.store (registerUser user db).2.store userId := by
  refine (@Composed.keeps _ _ _ (registerUser_composed user) (fun store => SameRooms db.store store ∧
    forall userId, SamePresence db.store store userId) ?_ db
    ⟨SameRooms.refl _, fun userId => SamePresence.refl _ userId⟩).2
  intro store command enrols kept
  exact ⟨kept.1.trans (sameRooms_of_registers enrols.registers),
    fun userId => (kept.2 userId).trans (registers_samePresence enrols.registers userId)⟩

/-- A new name is enrolled with the next number. -/
theorem registerUser_enrols {db : Db} (normal : db.Normal) (users : Users chat db.store)
    (small : chat.accounts.length + 1 < 2 ^ 31) {user : User}
    (missing : chat.find user.usernameString = none) :
    Exists fun after => registerUser user db = (.ok ((chat.accounts.length : Int) + 1), after) ∧
      Users (chat.enrol user.usernameString user.passString) after.store := by
  have newName : user.usernameString ∉ (chat.accounts.map registration).map Registration.username := by
    rw [usernames]
    exact Service.find_eq_none missing
  have length : (chat.accounts.map registration).length = chat.accounts.length := List.length_map _
  rcases registerUser_new normal users.directory (length ▸ small) newName with
    ⟨after, ran, _, directory⟩
  have leaves := (registerUser_leaves user db).2
  rw [ran] at leaves
  rw [length] at ran directory
  refine ⟨after, ran, ⟨?_, ?_, fun userId => ?_⟩⟩
  · rw [Service.enrol, List.map_append]
    exact directory
  · rw [Service.enrol, List.length_append]
    exact small
  · rw [(leaves userId).positiveSockfd]
    exact users.seats userId

/-! ## Rooms -/

/-- The members of one room change. -/
theorem Rooms.populate (rooms : Rooms chat store) (room : Int) {members : List Int}
    (written : HasMembers other room members)
    (others : forall asked, asked ≠ room ->
      other.lookup (chatroomKey asked) = store.lookup (chatroomKey asked))
    (created : other.lookup nextChatroomIdKey = store.lookup nextChatroomIdKey) :
    Rooms (chat.populate room members) other where
  members := fun asked => by
    rw [Service.rooms_populate]
    by_cases same : asked = room
    · rw [if_pos same, same]
      exact written
    · rw [if_neg same]
      unfold HasMembers
      rw [Redis.setAt_congr (others asked same)]
      exact rooms.members asked
  created := (Redis.counterAt_congr created).trans rooms.created

/-- They change by a command on the set of the room. -/
theorem Rooms.populate_exec (rooms : Rooms chat store) {room : Int} {members : List Int}
    {command : Redis.Command} (writes : forall key, Redis.Writes command key -> key = chatroomKey room)
    (written : HasMembers (Redis.exec store command).2 room members) :
    Rooms (chat.populate room members) (Redis.exec store command).2 := by
  apply rooms.populate room written
  · intro asked different
    exact Redis.exec_frame store (fun isWritten => different
      (RoomKey.unique RoomKey.members (writes _ isWritten ▸ RoomKey.members)))
  · apply Redis.exec_frame store
    intro isWritten
    have head := (chatroomKey_isChatroom room).head
    rw [← writes _ isWritten] at head
    exact absurd head (by decide)

theorem addAll_pair {set : Redis.Members} (isEmpty : set.members = []) (userId1 userId2 : Int) :
    ([intText userId1, intText userId2].foldl Redis.Members.add set).members =
      (if userId1 = userId2 then [userId1] else [userId1, userId2]).map intText := by
  have first : (set.add (intText userId1)).members = [intText userId1] := by
    rw [Redis.Members.add, dif_pos (by rw [isEmpty]; exact List.not_mem_nil)]
    exact congrArg (· ++ [intText userId1]) isEmpty
  simp only [List.foldl_cons, List.foldl_nil]
  by_cases same : userId1 = userId2
  · rw [if_pos same, ← same, Redis.Members.add, dif_neg (by rw [first]; simp), first]
    rfl
  · have absent : intText userId2 ∉ (set.add (intText userId1)).members := by
      rw [first, List.mem_singleton]
      exact fun sameText => same (intText_injective sameText).symm
    rw [if_neg same, Redis.Members.add, dif_pos absent]
    exact congrArg (· ++ [intText userId2]) first

/-- A new chatroom is the room that is opened. -/
theorem createChatroom_opens {db : Db} (normal : db.Normal) (regular : chat.Regular)
    (rooms : Rooms chat db.store) (small : (chat.created : Int) + 1 < 2 ^ 31) (userId1 userId2 : Int) :
    Exists fun after => createChatroom userId1 userId2 db = (.ok ((chat.created : Int) + 1), after) ∧
      Rooms (chat.respond (.openRoom userId1 userId2)) after.store := by
  let room : Int := (chat.created : Int) + 1
  rcases rooms.members room with ⟨set, holds, members⟩
  have isEmpty : set.members = [] := by
    rw [regular.unopened room (by omega)] at members
    exact members.eq_nil
  -- the counter is drawn
  have drawn := nextId_run normal rooms.created (by omega)
  rw [toInt32_eq_self (by omega) (by omega)] at drawn
  let counted : Db := { db with
    store := db.store.insert nextChatroomIdKey (.string (intText room)), issued := db.issued + 1 }
  have different : nextChatroomIdKey ≠ chatroomKey room := fun sameKey =>
    absurd (chatroomKey_isChatroom room).head (by rw [← sameKey]; decide)
  have holdsCounted : Redis.setAt counted.store (chatroomKey room) = some set := by
    rw [← holds]
    exact Redis.setAt_congr (AList.lookup_insert_ne different.symm)
  -- and the members are added
  have added : Redis.exec counted.store
      (.sadd (chatroomKey room) [intText userId1, intText userId2]) =
      (.integer ((([intText userId1, intText userId2].foldl Redis.Members.add set).members.length : Int) -
          set.members.length),
        counted.store.insert (chatroomKey room)
          (.set ([intText userId1, intText userId2].foldl Redis.Members.add set))) := by
    simp only [Redis.exec, holdsCounted]
  refine ⟨counted.issue (.sadd (chatroomKey room) [intText userId1, intText userId2]), ?_, ?_⟩
  · have notError : Not (room = errorNormal) := by
      have code : errorNormal = -1 := rfl
      omega
    unfold createChatroom getNextChatroomid
    rw [bind_of_ok drawn]
    change (if room = errorNormal then pure errorNormal else
      ask (.sadd (chatroomKey (zeroExtended room)) [intText userId1, intText userId2]) >>=
        fun reply => if reply.isError then pure errorNormal else pure room : Action Db Int) counted = _
    rw [if_neg notError, zeroExtended_eq_self (by omega) (by omega)]
    refine (bind_of_ok (@ask_of_normal counted normal _)).trans ?_
    rw [added]
    rfl
  · have grown : Rooms { chat with created := chat.created + 1 } counted.store := by
      refine ⟨fun asked => ?_, ?_⟩
      · have other : chatroomKey asked ≠ nextChatroomIdKey := fun sameKey =>
          absurd (chatroomKey_isChatroom asked).head (by rw [sameKey]; decide)
        unfold HasMembers
        rw [Redis.setAt_congr (AList.lookup_insert_ne other)]
        exact rooms.members asked
      · exact Redis.counterAt_insert _ _ (by omega) (by omega)
    refine @Rooms.populate_exec _ _ grown _ _ (.sadd (chatroomKey room) _)
      (fun _ isWritten => isWritten) ?_
    rw [added]
    exact ⟨_, Redis.setAt_insert _ _ _, List.Perm.of_eq (addAll_pair isEmpty userId1 userId2)⟩

/-- The members are numbers of users. -/
theorem Rooms.userIds (rooms : Rooms chat store) (typed : Dao.Rooms store) {room member : Int}
    (isMember : member ∈ chat.rooms room) : UserId member := by
  rcases rooms.members room with ⟨set, holds, members⟩
  have inSet : intText member ∈ set.members := members.symm.subset (List.mem_map_of_mem isMember)
  rcases rooms_setAt typed holds _ inSet with ⟨userId, sameText, isUser⟩
  exact intText_injective sameText ▸ isUser

/-- A user whose number is the name leaves the room. -/
theorem leaveChatrooom_leaves {db : Db} (normal : db.Normal) (rooms : Rooms chat db.store) (room : Int)
    {username : Bytes} {member : Int} (isNumber : Redis.readCounter username = some member) :
    Rooms (chat.respond (.leaveRoom room member)) (leaveChatrooom room username db).2.store := by
  have isText : intText member = username := by
    unfold Redis.readCounter at isNumber
    rw [Option.ite_none_right_eq_some] at isNumber
    rw [← Option.some.inj isNumber.2]
    exact isNumber.1
  rcases rooms.members room with ⟨set, holds, members⟩
  rw [Membership.leaveChatrooom_store normal]
  refine @Rooms.populate_exec _ _ rooms room _ (.srem (chatroomKey room) username)
    (fun _ isWritten => isWritten) ?_
  rcases Option.map_eq_some_iff.mp (@Redis.setAt_srem _ _ username _ holds) with ⟨left, holdsLeft, erased⟩
  refine ⟨left, holdsLeft, ?_⟩
  rw [erased, List.map_erase (fun _ _ same => intText_injective same), isText]
  exact members.erase username

/-- Nobody leaves it by another name. -/
theorem leaveChatrooom_nobody {db : Db} (normal : db.Normal) (rooms : Rooms chat db.store)
    (typed : Dao.Rooms db.store) (room : Int) {username : Bytes}
    (noNumber : Redis.readCounter username = none) :
    (leaveChatrooom room username db).2.store = db.store := by
  rcases rooms.members room with ⟨set, holds, _⟩
  have absent : username ∉ set.members := by
    intro isMember
    rcases rooms_setAt typed holds _ isMember with ⟨userId, same, isUser⟩
    unfold Redis.readCounter at noNumber
    rw [same, atoll_userId isUser, if_pos rfl] at noNumber
    cases noNumber
  rw [Membership.leaveChatrooom_store normal]
  simp only [Redis.exec, holds, if_neg absent]

/-- A room that no other number continues is closed alone. -/
theorem delChatrooom_closes {db after : Db} (normal : db.Normal) (users : Users chat db.store)
    (rooms : Rooms chat db.store) {room result : Int} (alone : Deletion.Alone db room)
    (ran : delChatrooom room db = (.ok result, after)) :
    Users (chat.respond (.closeRoom room)) after.store ∧
      Rooms (chat.respond (.closeRoom room)) after.store := by
  have lookups := delChatrooom_lookups normal ran
  constructor
  · have kept : Users chat after.store := users.congr (fun key isUser => by
      rw [lookups key, if_neg (Deletion.not_prefix_of_head (Deletion.userKey_head isUser))])
    exact ⟨kept.directory, kept.small, kept.seats⟩
  · apply rooms.populate room
    · have gone : Redis.setAt after.store (chatroomKey room) = some Redis.Members.empty := by
        unfold Redis.setAt
        rw [lookups, if_pos List.prefix_rfl]
      exact ⟨_, gone, List.Perm.refl _⟩
    · intro asked different
      rw [lookups]
      by_cases starts : chatroomKey room <+: chatroomKey asked
      · rw [if_pos starts]
        exact (alone asked _ different (RoomKey.members.prefix_iff.mp starts) RoomKey.members).symm
      · rw [if_neg starts]
    · rw [lookups, if_neg (Deletion.not_prefix_of_head (by decide))]

/-! ## Who is listening -/

/-- The descriptors of a chatroom are those of the seats of its members. -/
theorem roomFds_seats (regular : chat.Regular) (users : Users chat store) (rooms : Rooms chat store)
    (typed : Dao.Rooms store) (room : Int) : (roomFds store room).Perm
      ((chat.rooms room).filterMap (fun member => (chat.seat member).map Bufferevent.fd)) := by
  rcases rooms.members room with ⟨set, holds, members⟩
  have read : (set.members.map (fun text => toInt32 (atoll text))).Perm (chat.rooms room) := by
    have texts := members.map (fun text => toInt32 (atoll text))
    rw [List.map_map] at texts
    refine texts.trans (List.Perm.of_eq ?_)
    refine (List.map_congr_left (fun member isMember => ?_)).trans (List.map_id _)
    exact (rooms.userIds typed isMember).read
  have looked : (roomMembers store room).Perm
      ((chat.rooms room).filter (fun userId => 0 < userId)) := by
    unfold roomMembers memberList
    simp only [holds]
    exact read.filter _
  refine (looked.filterMap _).trans (List.Perm.of_eq ?_)
  rw [List.filterMap_filter]
  apply List.filterMap_congr
  intro member _
  rw [users.seats member]
  by_cases positive : 0 < member
  · rw [decide_eq_true positive, if_pos rfl]
  · rw [decide_eq_false positive, if_neg Bool.false_ne_true]
    cases seated : chat.seat member with
    | none => rfl
    | some bev => exact absurd (regular.seats member bev seated) positive

end StoredService
end ChatHub
