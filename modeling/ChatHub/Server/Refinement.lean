import ChatHub.Base.Simulation
import ChatHub.Lib.DirectIndex
import ChatHub.Server.StoredService
import ChatHub.Server.Written

namespace ChatHub

/-!
# The server provides the service

After a run, the database and the client table are those of the service after
the requests that the run delivered, and the server has written on every
connection what the service sent to it, in the same order.  In which order the
copies for different connections are written depends on how Redis lists the
members of a room.

The run has to be orderly.  The kernel hands out descriptors that do not stand
for the standard input and are below the capacity of the table.  Users log out
before they disconnect.  Chat messages have a send time, and numbers are left
for new users and rooms.  Nothing continues the number of a room that is
deleted.
-/

namespace Refinement

open ChatHub.Action World StoredService

/-- The message that is packed for an item that is sent. -/
def packed : Message × Service.Answer -> Message
  | (message, .registered number) => answering message .register number
  | (message, .nameTaken) => answering message .register errorUserExists
  | (message, .welcome number) => answering message .login number
  | (message, .wrongSecret) => answering message .login errorNormal
  | (message, .unknownName) => answering message .login errorUserNotexists
  | (message, .loggedOut number) => answering message .logout number
  | (message, .copy) => message

/-- What a message asks for. -/
def requestOf (message : Message) : Option (Service.Request Bytes Bytes) :=
  if message.type = MessageType.login.code then
    (msg2user message).toOption.map (fun user => .login user.usernameString user.passString)
  else if message.type = MessageType.logout.code then
    (msg2user message).toOption.map (fun user => .logout user.usernameString)
  else if message.type = MessageType.register.code then
    (msg2user message).toOption.map (fun user => .register user.usernameString user.passString)
  else if message.type = MessageType.text.code ∨ message.type = MessageType.image.code then
    some (.say message.groupId)
  else none

/-- What the service sees of an event. -/
def eventOf : World.Event -> Option (Service.Event Bytes Bytes Bufferevent Message)
  | .read bev buf input =>
      match Framing.received buf input with
      | .ok (some message) => (requestOf message).map (.request bev message)
      | _ => none
  | .createChatroom userId1 userId2 => some (.openRoom userId1 userId2)
  | .leaveChatrooom chatroomId username => (Redis.readCounter username).map (.leaveRoom chatroomId)
  | .delChatrooom chatroomId => some (.closeRoom chatroomId)
  | .accept _ | .close _ => none

/-! ## The client table -/

/-- The table is the array of the open connections. -/
structure Tabled (conns : Clients 1024) : Prop where
  mirrored : Exists fun clients => conns.clients.Mirrors clients ∧ forall slot bev,
    clients slot = some bev <-> bev ∈ conns.opened ∧ bev.fd = (slot.val : Int)
  range : forall bev, bev ∈ conns.opened -> 0 < bev.fd ∧ bev.fd < 1024

theorem tabled_start (clock : Nat -> Int) : Tabled (start clock).conns where
  mirrored := ⟨fun _ => none, HashMap.mirrors_hashInit (by decide),
    fun _ _ => ⟨fun never => (nomatch never), fun both => absurd both.1 List.not_mem_nil⟩⟩
  range := fun _ isOpen => absurd isOpen List.not_mem_nil

section Tabled

variable {conns next : Clients 1024} {bev : Bufferevent}

/-- A descriptor in the range is an index. -/
theorem exists_slot {fd : Int} (low : 0 < fd) (high : fd < 1024) :
    Exists fun slot : Fin 1024 => fd = (slot.val : Int) :=
  ⟨⟨fd.toNat, by omega⟩, (Int.toNat_of_nonneg (by omega)).symm⟩

/-- The descriptor of an open connection leads to it. -/
theorem Tabled.hashGet (tabled : Tabled conns) (isOpen : bev ∈ conns.opened) :
    conns.clients.hashGet bev.fd = .ok (some bev) := by
  rcases tabled.mirrored with ⟨clients, mirrors, entries⟩
  rcases exists_slot (tabled.range bev isOpen).1 (tabled.range bev isOpen).2 with ⟨slot, isSlot⟩
  rw [isSlot, mirrors.hashGet slot, (entries slot bev).mpr ⟨isOpen, isSlot⟩]

theorem Tabled.accept (tabled : Tabled conns) {fd : Int} (low : 0 < fd) (high : fd < 1024)
    (taken : conns.step (.accept fd) = some next) : Tabled next := by
  rcases Clients.step_accept taken with ⟨free, hm, ran, same⟩
  rcases tabled.mirrored with ⟨clients, mirrors, entries⟩
  rcases exists_slot low high with ⟨slot, isSlot⟩
  have empty : clients slot = none := by
    cases found : clients slot with
    | none => rfl
    | some other =>
        rcases (entries slot other).mp found with ⟨isOpen, sameFd⟩
        exact absurd (sameFd.trans isSlot.symm) (free.2 other isOpen)
  rcases mirrors.hashSet empty ⟨conns.accepted, fd⟩ with ⟨stored, ranSet, mirrorsNext⟩
  rw [← isSlot, ran] at ranSet
  cases ranSet
  subst same
  refine ⟨⟨_, mirrorsNext, fun asked other => ?_⟩, fun other isOpen => ?_⟩
  · rw [List.mem_cons]
    by_cases isAsked : asked = slot
    · rw [isAsked, Function.update_self, ← isSlot]
      constructor
      · intro isNew
        cases isNew
        exact ⟨Or.inl rfl, rfl⟩
      · rintro ⟨isNew | isOld, sameFd⟩
        · rw [isNew]
        · exact absurd sameFd (free.2 other isOld)
    · rw [Function.update_of_ne isAsked, entries]
      constructor
      · exact fun both => ⟨Or.inr both.1, both.2⟩
      · rintro ⟨isNew | isOld, sameFd⟩
        · rw [isNew, isSlot] at sameFd
          exact absurd (Fin.ext (Int.ofNat_inj.mp sameFd)).symm isAsked
        · exact ⟨isOld, sameFd⟩
  · rcases List.mem_cons.mp isOpen with isNew | isOld
    · rw [isNew]
      exact ⟨low, high⟩
    · exact tabled.range other isOld

theorem Tabled.close (tabled : Tabled conns) (distinct : conns.Distinct)
    (taken : conns.step (.close bev) = some next) : Tabled next := by
  rcases Clients.step_close taken with ⟨isOpen, value, hm, ran, same⟩
  rcases tabled.mirrored with ⟨clients, mirrors, entries⟩
  rcases exists_slot (tabled.range bev isOpen).1 (tabled.range bev isOpen).2 with ⟨slot, isSlot⟩
  rcases mirrors.hashDelete slot with ⟨removed, ranDelete, mirrorsNext⟩
  rw [← isSlot, ran] at ranDelete
  cases ranDelete
  subst same
  refine ⟨⟨_, mirrorsNext, fun asked other => ?_⟩, fun other inRest => ?_⟩
  · rw [distinct.nodup.mem_erase_iff]
    by_cases isAsked : asked = slot
    · rw [isAsked, Function.update_self, ← isSlot]
      refine ⟨fun never => (nomatch never), ?_⟩
      rintro ⟨⟨different, isOld⟩, sameFd⟩
      exact absurd (distinct.sameFd other bev isOld isOpen sameFd) different
    · rw [Function.update_of_ne isAsked, entries]
      refine ⟨fun both => ⟨⟨?_, both.1⟩, both.2⟩, fun both => ⟨both.1.2, both.2⟩⟩
      intro isBev
      rw [isBev, isSlot] at both
      exact isAsked (Fin.ext (Int.ofNat_inj.mp both.2)).symm
  · exact tabled.range other (List.mem_of_mem_erase inRest)

end Tabled

/-! ## What the server shows of the service -/

/-- Database and client table are those of the service, and on every connection
the server has written what the service sent to it. -/
structure Shows (chat : Chat) (world : World) : Prop where
  users : Users chat world.db.store
  rooms : Rooms chat world.db.store
  tabled : Tabled world.conns
  seated : forall userId bev, chat.seat userId = some bev -> bev ∈ world.conns.opened
  written : forall bev, writtenTo bev world.written =
    (addressed bev chat.sent).map (fun sent => .ofMessage bev (packed sent))

/-- The server shows the service in a state that runs reach. -/
structure Provides (chat : Chat) (world : World) : Prop where
  regular : chat.Regular
  sane : Sane world
  shows : Shows chat world

theorem provides_start (clock : Nat -> Int) : Provides Service.start (start clock) where
  regular := Service.regular_start
  sane := sane_start clock
  shows :=
    { users := users_start
      rooms := rooms_start
      tabled := tabled_start clock
      seated := fun _ _ seated => nomatch seated
      written := fun _ => rfl }

section Handlers

variable {chat : Chat} {world next : World} {this : Bufferevent} {message : Message}

/-- The service answers, and the server writes the answer. -/
theorem Shows.answer (shows : Shows chat world) (this : Bufferevent) (message : Message)
    (answer : Service.Answer) : Shows (chat.answer this message answer)
      { world with written := world.written ++ [.ofMessage this (packed (message, answer))] } where
  users := ⟨shows.users.directory, shows.users.small, shows.users.seats⟩
  rooms := ⟨shows.rooms.members, shows.rooms.created⟩
  tabled := shows.tabled
  seated := shows.seated
  written := fun bev => by
    change writtenTo bev (world.written ++ _) = (addressed bev (chat.sent ++ [_])).map _
    rw [writtenTo_append, addressed_append, List.map_append, shows.written bev]
    exact congrArg _ (writtenTo_map bev packed [(this, message, answer)])

/-- One more number can be drawn from the counter. -/
def Draws (store : Redis.Store) (key : Bytes) : Prop :=
  forall last, Redis.counterAt store key = some last -> last + 1 < 2 ^ 31

/-- A registration shows in the directory. -/
theorem handleRegister_shows (provides : Provides chat world)
    (draws : Draws world.db.store nextUserIdKey)
    (ran : perform (handleRegister this message) world = some next) :
    Exists fun user => msg2user message = .ok user ∧
      Shows (chat.request this message (.register user.usernameString user.passString)) next := by
  rcases perform_bind ran with ⟨user, sameAs, parsed, rest⟩
  have sameWorld : world = sameAs := congrArg Prod.snd parsed
  subst sameWorld
  rcases perform_dao_bind rest with ⟨userId, db, answered, written⟩
  rcases provides with ⟨_, sane, users, rooms, tabled, seated, shown⟩
  refine ⟨user, congrArg Prod.fst parsed, ?_⟩
  rw [perform_write written]
  cases found : chat.find user.usernameString with
  | none =>
      have small : chat.accounts.length + 1 < 2 ^ 31 := by
        have bound := draws _ users.directory.counter
        rw [List.length_map] at bound
        omega
      rcases registerUser_enrols sane.normal users small found with ⟨after, registered, enrolled⟩
      have leaves := (registerUser_leaves user world.db).1
      rw [registered] at answered leaves
      cases answered
      rw [Service.request_register_new found]
      exact @Shows.answer (chat.enrol user.usernameString user.passString) { world with db := db }
        ⟨enrolled, ⟨(rooms.congr leaves).members, (rooms.congr leaves).created⟩, tabled, seated, shown⟩
        this message (.registered ((chat.accounts.length : Int) + 1))
  | some account =>
      have known : user.usernameString ∈
          (chat.accounts.map registration).map Registration.username := by
        rw [usernames, ← (Service.find_eq_some found).2]
        exact List.mem_map_of_mem (Service.find_eq_some found).1
      rcases Dao.registerUser_again sane.normal users.directory known with ⟨refused, unchanged⟩
      rw [refused] at answered
      cases answered
      rw [Service.request_register_taken found]
      exact @Shows.answer chat
        { world with db := world.db.issue (.hexists usersKey user.usernameString) }
        ⟨unchanged.symm ▸ users, unchanged.symm ▸ rooms, tabled, seated, shown⟩ this message .nameTaken

/-- The account with a name is registered, with a number of its own. -/
theorem registered_of_find (users : Users chat world.db.store) {name : Bytes}
    {account : Service.Account Bytes Bytes} (found : chat.find name = some account) :
    registration account ∈ chat.accounts.map registration ∧
      0 < account.number ∧ account.number < 2 ^ 31 := by
  have member := List.mem_map_of_mem (f := registration) (Service.find_eq_some found).1
  have range := users.directory.range _ member
  have small := users.small
  rw [List.length_map] at range
  change 0 < account.number ∧ account.number ≤ (chat.accounts.length : Int) at range
  exact ⟨member, range.1, by omega⟩

/-- A login that is refused is answered, and nothing else happens. -/
theorem finishLogin_refused {user : User} {userId : Int} (refused : Not (0 < toInt32 userId))
    (ran : perform (finishLogin this message user userId) world = some next) :
    next = { world with
      written := world.written ++ [.ofMessage this (answering message .login userId)] } := by
  unfold finishLogin at ran
  rw [if_neg refused] at ran
  exact perform_write ran

/-- A login that is not refused takes the seat. -/
theorem finishLogin_shows (sane : Sane world) (shows : Shows chat world)
    (isOpen : this ∈ world.conns.opened) {user : User} {account : Service.Account Bytes Bytes}
    (positive : 0 < account.number) (small : account.number < 2 ^ 31)
    (ran : perform (finishLogin this message user account.number) world = some next) :
    Shows ((chat.place account.number (some this)).answer this message (.welcome account.number))
      next := by
  have range := shows.tabled.range this isOpen
  unfold finishLogin at ran
  rw [toInt32_eq_self (by omega) small, if_pos positive] at ran
  rcases perform_dao_bind ran with ⟨result, db, presence, rest⟩
  rcases setPresence_answers sane.normal (sane.records account.number) 1 this.fd with
    ⟨time, after, set, store⟩
  have sameDb : after = db := congrArg Prod.snd (set.symm.trans presence)
  subst sameDb
  rcases perform_bind rest with ⟨_, middle, recorded, written⟩
  cases recorded
  rw [perform_write written]
  have placed := @Users.place chat world.db.store shows.users sane.records account.number 1 this.fd
    (by omega) (by omega) time (some this) (if_pos range.1)
  have kept := shows.rooms.congr (sameRooms_of_presence account.number 1 this.fd time)
  rw [← store] at placed kept
  refine @Shows.answer (chat.place account.number (some this))
    { world with db := after, logins := (this, account.number) :: world.logins }
    ⟨placed, ⟨kept.members, kept.created⟩, shows.tabled, fun userId bev seated => ?_, shows.written⟩
    this message (.welcome account.number)
  rw [Service.seat_place] at seated
  split at seated
  · exact Option.some.inj seated ▸ isOpen
  · exact shows.seated userId bev seated

/-- A login shows in the record of the user. -/
theorem handleLogin_shows (provides : Provides chat world) (isOpen : this ∈ world.conns.opened)
    (ran : perform (handleLogin this message) world = some next) :
    Exists fun user => msg2user message = .ok user ∧
      Shows (chat.request this message (.login user.usernameString user.passString)) next := by
  rcases perform_bind ran with ⟨user, sameAs, parsed, rest⟩
  have sameWorld : world = sameAs := congrArg Prod.snd parsed
  subst sameWorld
  rcases perform_dao_bind rest with ⟨userId, db, answered, finished⟩
  have isUser : msg2user message = .ok user := congrArg Prod.fst parsed
  rcases provides with ⟨_, sane, shows⟩
  refine ⟨user, isUser, ?_⟩
  -- looking up the name and the password changes nothing
  have held := (Dao.loginUser_composed user).reads_only world.db
  rw [answered] at held
  have saneHeld : Sane { world with db := db } :=
    sane.ordinary ⟨rfl, rfl, held.1, fun _ _ holds => held.2.symm ▸ holds⟩
  have showsHeld : Shows chat { world with db := db } :=
    ⟨held.2.symm ▸ shows.users, held.2.symm ▸ shows.rooms, shows.tabled, shows.seated, shows.written⟩
  have returned : (loginUser user world.db).1 = .ok userId := congrArg Prod.fst answered
  cases found : chat.find user.usernameString with
  | none =>
      have unknown : user.usernameString ∉
          (chat.accounts.map registration).map Registration.username := by
        rw [usernames]
        exact Service.find_eq_none found
      rw [Dao.loginUser_unknown sane.normal shows.users.directory unknown] at returned
      cases returned
      rw [finishLogin_refused (by decide) finished, Service.request_login_unknown found]
      exact showsHeld.answer this message .unknownName
  | some account =>
      rcases registered_of_find shows.users found with ⟨member, positive, small⟩
      have few : (chat.accounts.map registration).length < 2 ^ 31 := by
        rw [List.length_map]
        exact shows.users.small
      rw [Dao.loginUser_known sane.normal shows.users.directory few member
        (Passwords.msg2user_byName isUser) (Service.find_eq_some found).2.symm] at returned
      change Except.ok (if user.passString = account.secret then account.number
        else errorNormal) = .ok userId at returned
      by_cases right : user.passString = account.secret
      · rw [if_pos right] at returned
        cases returned
        rw [Service.request_login_right found right]
        exact finishLogin_shows saneHeld showsHeld isOpen positive small finished
      · rw [if_neg right] at returned
        cases returned
        rw [finishLogin_refused (by decide) finished, Service.request_login_wrong found right]
        exact showsHeld.answer this message .wrongSecret

/-- A logout that returns is one of a user who is registered. -/
theorem handleLogout_shows (provides : Provides chat world)
    (ran : perform (handleLogout this message) world = some next) :
    Exists fun user => msg2user message = .ok user ∧
      Shows (chat.request this message (.logout user.usernameString)) next := by
  rcases perform_bind ran with ⟨user, sameAs, parsed, rest⟩
  have sameWorld : world = sameAs := congrArg Prod.snd parsed
  subst sameWorld
  rcases perform_dao_bind rest with ⟨userId, db, answered, written⟩
  have isUser : msg2user message = .ok user := congrArg Prod.fst parsed
  rcases provides with ⟨_, sane, users, rooms, tabled, seated, shown⟩
  refine ⟨user, isUser, ?_⟩
  rw [perform_write written]
  cases found : chat.find user.usernameString with
  | none =>
      have unknown : user.usernameString ∉
          (chat.accounts.map registration).map Registration.username := by
        rw [usernames]
        exact Service.find_eq_none found
      have failed := logoutUser_unknown sane.normal users.directory
        (Passwords.msg2user_byName isUser) unknown
      rw [answered] at failed
      cases failed
  | some account =>
      rcases registered_of_find users found with ⟨member, _, _⟩
      have few : (chat.accounts.map registration).length < 2 ^ 31 := by
        rw [List.length_map]
        exact users.small
      rcases logoutUser_known sane.normal users.directory few member
        (Passwords.msg2user_byName isUser) (Service.find_eq_some found).2.symm with
        ⟨time, after, left, store⟩
      rw [left] at answered
      cases answered
      have placed := @Users.place chat world.db.store users sane.records account.number 0 (-1)
        (by decide) (by decide) time none rfl
      have kept := rooms.congr (sameRooms_of_presence account.number 0 (-1) time)
      change db.store = (Redis.exec world.db.store
        (Dao.presenceCommand account.number 0 (-1) time)).2 at store
      rw [← store] at placed kept
      rw [Service.request_logout_known found]
      refine @Shows.answer (chat.place account.number none) { world with db := db }
        ⟨placed, ⟨kept.members, kept.created⟩, tabled, fun other bev isSeated => ?_, shown⟩
        this message (.loggedOut account.number)
      rw [Service.seat_place] at isSeated
      split at isSeated
      · cases isSeated
      · exact seated other bev isSeated

/-- The descriptors of a chatroom lead to those who listen. -/
theorem receivers_perm_listeners (provides : Provides chat world) (room : Int) :
    ((Dao.roomFds world.db.store room).filterMap (receiverOf world.conns this)).Perm
      (chat.listeners room this) := by
  rcases provides with ⟨regular, sane, users, rooms, tabled, seated, _⟩
  refine ((roomFds_seats regular users rooms sane.rooms room).filterMap _).trans (List.Perm.of_eq ?_)
  rw [List.filterMap_filterMap]
  apply List.filterMap_congr
  intro member _
  cases isSeated : chat.seat member with
  | none => rfl
  | some bev =>
      have found := tabled.hashGet (seated member bev isSeated)
      change receiverOf world.conns this bev.fd = (some bev).filter (fun seat => decide (seat ≠ this))
      unfold receiverOf
      rw [found]
      by_cases isThis : bev = this
      · simp [isThis, Option.filter]
      · simp [isThis, Option.filter]

/-- A chat message goes to those who listen. -/
theorem handleChat_shows (provides : Provides chat world) (stamped : 0 < message.sendTime)
    (ran : perform (handleChat this message) world = some next) :
    Shows (chat.request this message (.say message.groupId)) next := by
  have change := (handleChat_handles this message).perform ran
  have written := handleChat_writes provides.sane stamped ran
  have stored := change.store (fun store => Users chat store ∧ Rooms chat store)
    (fun store command posts kept => by
      cases posts with
      | reads isRead =>
          rw [isRead.exec_store]
          exact kept
      | saves isSave =>
          exact ⟨@Users.chats chat store kept.1 (fun _ => True) command isSave.chats,
            kept.2.congr (sameRooms_of_saves isSave)⟩)
    ⟨provides.shows.users, provides.shows.rooms⟩
  refine ⟨⟨stored.1.directory, stored.1.small, stored.1.seats⟩,
    ⟨stored.2.members, stored.2.created⟩, ?_, ?_, ?_⟩
  · rw [change.conns]
    exact provides.shows.tabled
  · rw [change.conns]
    exact provides.shows.seated
  · -- as many copies on each connection, whatever the order of the members
    intro bev
    rw [written]
    change _ = (addressed bev (chat.sent ++ (chat.listeners message.groupId this).map _)).map _
    rw [writtenTo_append, addressed_append, List.map_append, provides.shows.written bev,
      writtenTo_copies, addressed_copies, List.map_replicate,
      (receivers_perm_listeners provides message.groupId).count_eq]
    rfl

/-- A number is left for a user who registers, and a chat message has a send
time. -/
structure Acceptable (store : Redis.Store) (message : Message) : Prop where
  draws : message.type = MessageType.register.code -> Draws store nextUserIdKey
  stamped : message.type = MessageType.text.code ∨ message.type = MessageType.image.code ->
    0 < message.sendTime

/-- What a message asks for on a connection. -/
def askedOn (this : Bufferevent) (message : Message) :
    Option (Service.Event Bytes Bytes Bufferevent Message) :=
  (requestOf message).map (.request this message)

/-- A message that is handled to the end shows what it asks for. -/
theorem handleAllMessage_shows (provides : Provides chat world) (isOpen : this ∈ world.conns.opened)
    (acceptable : Acceptable world.db.store message)
    (ran : perform (handleAllMessage this message) world = some next) :
    Shows (Simulation.follow Service.respond chat (askedOn this message)) next := by
  have asks : forall {request : Service.Request Bytes Bytes}, requestOf message = some request ->
      Shows (chat.request this message request) next ->
      Shows (Simulation.follow Service.respond chat (askedOn this message)) next := by
    intro request isRequest shows
    have seen : askedOn this message = some (.request this message request) :=
      congrArg (Option.map _) isRequest
    rw [seen]
    exact shows
  unfold handleAllMessage at ran
  split at ran
  · cases ran
  split at ran
  · next isLogin =>
      rcases handleLogin_shows provides isOpen ran with ⟨user, parsed, shows⟩
      refine asks ?_ shows
      unfold requestOf
      rw [if_pos isLogin, parsed]
      rfl
  split at ran
  · next notLogin isLogout =>
      rcases handleLogout_shows provides ran with ⟨user, parsed, shows⟩
      refine asks ?_ shows
      unfold requestOf
      rw [if_neg notLogin, if_pos isLogout, parsed]
      rfl
  split at ran
  · next notLogin notLogout isRegister =>
      rcases handleRegister_shows provides (acceptable.draws isRegister) ran with ⟨user, parsed, shows⟩
      refine asks ?_ shows
      unfold requestOf
      rw [if_neg notLogin, if_neg notLogout, if_pos isRegister, parsed]
      rfl
  split at ran
  · next notLogin notLogout notRegister isChat =>
      refine asks ?_ (handleChat_shows provides (acceptable.stamped isChat) ran)
      unfold requestOf
      rw [if_neg notLogin, if_neg notLogout, if_neg notRegister, if_pos isChat]
  · next notLogin notLogout notRegister notChat =>
      cases ran
      have unseen : askedOn this message = none := by
        unfold askedOn requestOf
        rw [if_neg notLogin, if_neg notLogout, if_neg notRegister, if_neg notChat]
        rfl
      rw [unseen]
      exact provides.shows

end Handlers

/-! ## Runs -/

/-- The kernel hands out a descriptor for the table, nobody is logged in on a
connection that is closed, what arrives is acceptable, a number is left for a
new room, and a room is deleted alone. -/
def Orderly (world : World) : World.Event -> Prop
  | .accept fd => 0 < fd ∧ fd < 1024
  | .close bev => forall userId, Dao.positiveSockfd world.db.store userId ≠ some bev.fd
  | .read _ buf input => forall message, Framing.received buf input = .ok (some message) ->
      Acceptable world.db.store message
  | .createChatroom _ _ => Draws world.db.store nextChatroomIdKey
  | .leaveChatrooom _ _ => True
  | .delChatrooom chatroomId => Deletion.Alone world.db chatroomId

section Runs

variable {chat : Chat} {world next : World}

/-- Rooms change, and nothing else does. -/
theorem Shows.roomsChange (shows : Shows chat world) {db : Db} {after : Chat}
    (users : Users after db.store) (rooms : Rooms after db.store) (seat : after.seat = chat.seat)
    (sent : after.sent = chat.sent) : Shows after { world with db := db } where
  users := users
  rooms := rooms
  tabled := shows.tabled
  seated := by
    rw [seat]
    exact shows.seated
  written := by
    rw [sent]
    exact shows.written

theorem perform_dao {Value : Type} {action : Action Db Value}
    (ran : perform (dao action) world = some next) : Exists fun value => Exists fun db =>
      action world.db = (.ok value, db) ∧ next = { world with db := db } := by
  rcases perform_returns ran with ⟨value, returned⟩
  unfold dao at returned
  cases answered : action world.db with
  | mk result db =>
      rw [answered] at returned
      cases returned
      exact ⟨value, db, rfl, rfl⟩

theorem createChatroom_shows (provides : Provides chat world)
    (draws : Draws world.db.store nextChatroomIdKey) {userId1 userId2 : Int}
    (ran : perform (dao (createChatroom userId1 userId2)) world = some next) :
    Shows (chat.respond (.openRoom userId1 userId2)) next := by
  rcases provides with ⟨regular, sane, shows⟩
  rcases perform_dao ran with ⟨value, db, answered, same⟩
  rcases createChatroom_opens sane.normal regular shows.rooms (draws _ shows.rooms.created)
    userId1 userId2 with ⟨after, opened, rooms⟩
  have kept := (@Dao.Composed.keeps _ _ _ (Dao.createChatroom_composed userId1 userId2) (Users chat)
    (fun store command creates users => @Users.chats chat store users (fun _ => True) command
      (creates.chats trivial trivial)) world.db shows.users).2
  rw [answered] at kept opened
  cases opened
  rw [same]
  exact @Shows.roomsChange chat world shows db (chat.respond (.openRoom userId1 userId2))
    ⟨kept.directory, kept.small, kept.seats⟩ rooms rfl rfl

theorem leaveChatrooom_shows (provides : Provides chat world) {chatroomId : Int} {username : Bytes}
    (ran : perform (dao (leaveChatrooom chatroomId username)) world = some next) :
    Shows (Simulation.follow Service.respond chat (eventOf (.leaveChatrooom chatroomId username)))
      next := by
  rcases provides with ⟨regular, sane, shows⟩
  rcases perform_dao ran with ⟨value, db, answered, same⟩
  have after : (leaveChatrooom chatroomId username world.db).2 = db := congrArg Prod.snd answered
  rw [same]
  cases isNumber : Redis.readCounter username with
  | none =>
      have unseen : eventOf (.leaveChatrooom chatroomId username) = none :=
        congrArg (Option.map _) isNumber
      have unchanged := leaveChatrooom_nobody sane.normal shows.rooms sane.rooms chatroomId isNumber
      rw [after] at unchanged
      rw [unseen]
      exact shows.roomsChange (unchanged.symm ▸ shows.users) (unchanged.symm ▸ shows.rooms) rfl rfl
  | some member =>
      have seen : eventOf (.leaveChatrooom chatroomId username) =
          some (.leaveRoom chatroomId member) := congrArg (Option.map _) isNumber
      have rooms := leaveChatrooom_leaves sane.normal shows.rooms chatroomId isNumber
      have users := @Users.chats chat world.db.store shows.users (fun _ => True) _
        (Dao.srem_chats chatroomId username)
      rw [← Membership.leaveChatrooom_store sane.normal] at users
      rw [after] at rooms users
      rw [seen]
      exact @Shows.roomsChange chat world shows db (chat.respond (.leaveRoom chatroomId member))
        ⟨users.directory, users.small, users.seats⟩ rooms rfl rfl

/-- Bytes that arrive are a message that is handled, or they ask for nothing. -/
theorem readcb_shows (provides : Provides chat world) {bev : Bufferevent} {buf input : Bytes}
    (isOpen : bev ∈ world.conns.opened) (orderly : Orderly world (.read bev buf input))
    (ran : perform (readcb bev buf input) world = some next) :
    Shows (Simulation.follow Service.respond chat (eventOf (.read bev buf input))) next := by
  cases received : Framing.received buf input with
  | error fault =>
      rcases perform_bind ran with ⟨found, _, parsed, _⟩
      rw [received] at parsed
      cases parsed
  | ok found =>
      cases found with
      | none =>
          have unseen : eventOf (.read bev buf input) = none := by
            simp only [eventOf, received]
          rw [unseen]
          rcases readcb_cases ran with same | ⟨message, isMessage, _⟩
          · rw [same]
            exact provides.shows
          · rw [received] at isMessage
            cases isMessage
      | some message =>
          rw [perform_readcb provides.sane isOpen received] at ran
          have sameEvent : eventOf (.read bev buf input) = askedOn bev message := by
            simp only [eventOf, received]
            rfl
          have shows := handleAllMessage_shows provides isOpen (orderly message received) ran
          rw [sameEvent]
          exact shows

/-- Closing a connection on which nobody is logged in. -/
theorem close_shows (provides : Provides chat world) {bev : Bufferevent} {conns : Clients 1024}
    (unnamed : forall userId, Dao.positiveSockfd world.db.store userId ≠ some bev.fd)
    (closed : world.conns.step (.close bev) = some conns) :
    Shows chat { world with conns := conns } where
  users := provides.shows.users
  rooms := provides.shows.rooms
  tabled := provides.shows.tabled.close provides.sane.distinct closed
  seated := by
    intro userId seat isSeated
    rcases Clients.step_close closed with ⟨_, _, _, _, same⟩
    rw [same]
    apply provides.sane.distinct.nodup.mem_erase_iff.mpr
    refine ⟨fun isClosed => unnamed userId ?_, provides.shows.seated userId seat isSeated⟩
    rw [provides.shows.users.seats userId, isSeated, isClosed]
    rfl
  written := provides.shows.written

theorem accept_shows (shows : Shows chat world) {fd : Int} {conns : Clients 1024} (low : 0 < fd)
    (high : fd < 1024) (accepted : world.conns.step (.accept fd) = some conns) :
    Shows chat { world with conns := conns } where
  users := shows.users
  rooms := shows.rooms
  tabled := shows.tabled.accept low high accepted
  seated := by
    intro userId seat isSeated
    rcases Clients.step_accept accepted with ⟨_, _, _, same⟩
    rw [same]
    exact List.mem_cons_of_mem _ (shows.seated userId seat isSeated)
  written := shows.written

theorem regular_follow (regular : chat.Regular) (event : World.Event) :
    (Simulation.follow Service.respond chat (eventOf event)).Regular := by
  unfold Simulation.follow
  cases eventOf event with
  | none => exact regular
  | some seen => exact regular.respond seen

/-- An orderly event of the server shows the response of the service. -/
theorem simulates_step :
    Simulation.Simulates World.step Orderly Service.respond (fun _ => eventOf) Provides := by
  intro chat world event next provides orderly taken
  refine ⟨regular_follow provides.regular event, provides.sane.step taken, ?_⟩
  cases event with
  | accept fd =>
      simp only [World.step, Option.ite_none_right_eq_some, Option.map_eq_some_iff] at taken
      rcases taken with ⟨_, conns, accepted, same⟩
      subst same
      exact accept_shows provides.shows orderly.1 orderly.2 accepted
  | close bev =>
      simp only [World.step, Option.map_eq_some_iff] at taken
      rcases taken with ⟨conns, closed, same⟩
      subst same
      exact close_shows provides orderly closed
  | read bev buf input =>
      simp only [World.step, Option.ite_none_right_eq_some] at taken
      exact readcb_shows provides taken.1.1 orderly taken.2
  | createChatroom userId1 userId2 =>
      simp only [World.step, Option.ite_none_right_eq_some] at taken
      exact createChatroom_shows provides orderly taken.2
  | leaveChatrooom chatroomId username => exact leaveChatrooom_shows provides taken
  | delChatrooom chatroomId =>
      rcases perform_dao taken with ⟨value, db, answered, same⟩
      have closes := delChatrooom_closes provides.sane.normal provides.shows.users
        provides.shows.rooms orderly answered
      rw [same]
      exact provides.shows.roomsChange closes.1 closes.2 rfl rfl

end Runs

/-- After every orderly run, the server provides the service: it is in the
state of the service after what was asked for, and it has written on every
connection what the service sent to it. -/
theorem provides_service {clock : Nat -> Int} {events : List World.Event}
    (orderly : Run.Guarded World.step Orderly (World.start clock) events) {world : World}
    (reached : Run.after World.step (World.start clock) events = some world) :
    Provides (Simulation.responses Service.respond Service.start (events.filterMap eventOf)) world := by
  rw [← Simulation.seen_eq_filterMap reached]
  exact simulates_step.run (provides_start clock) orderly reached

/-! ## A session -/

/-- A sufficient test for a number that is left. -/
def drawsTest (store : Redis.Store) (key : Bytes) : Bool :=
  (Redis.counterAt store key).all (fun last => decide (last + 1 < 2 ^ 31))

/-- A sufficient test for orderly events other than deletions.  Only users who
logged in on a connection can be named with its descriptor. -/
def orderlyTest (world : World) : World.Event -> Bool
  | .accept fd => decide (0 < fd ∧ fd < 1024)
  | .close bev => world.logins.all (fun login =>
      decide (Dao.positiveSockfd world.db.store login.2 ≠ some bev.fd))
  | .read _ buf input =>
      match Framing.received buf input with
      | .ok (some message) => drawsTest world.db.store nextUserIdKey &&
          (decide (message.type ≠ MessageType.text.code ∧ message.type ≠ MessageType.image.code) ||
            decide (0 < message.sendTime))
      | _ => true
  | .createChatroom _ _ => drawsTest world.db.store nextChatroomIdKey
  | .leaveChatrooom _ _ => true
  | .delChatrooom _ => false

theorem draws_of_test {store : Redis.Store} {key : Bytes} (passed : drawsTest store key = true) :
    Draws store key := by
  intro last counter
  rw [drawsTest, counter, Option.all_some, decide_eq_true_eq] at passed
  exact passed

theorem orderly_of_test {world : World} (sane : Sane world) {event : World.Event}
    (passed : orderlyTest world event = true) : Orderly world event := by
  cases event with
  | accept fd =>
      have range : 0 < fd ∧ fd < 1024 := of_decide_eq_true passed
      exact range
  | close bev =>
      intro userId named
      rcases sane.named userId bev.fd named with ⟨other, login, _⟩
      exact of_decide_eq_true (List.all_eq_true.mp passed (other, userId) login) named
  | read bev buf input =>
      intro message received
      simp only [orderlyTest, received, Bool.and_eq_true, Bool.or_eq_true, decide_eq_true_eq] at passed
      exact ⟨fun _ => draws_of_test passed.1, fun isChat => passed.2.resolve_left
        (fun noChat => isChat.elim noChat.1 noChat.2)⟩
  | createChatroom userId1 userId2 => exact draws_of_test passed
  | leaveChatrooom chatroomId username => trivial
  | delChatrooom chatroomId => cases passed

/-- Two users register, log in and share a room.  One of them says something
and leaves the room, and the other one logs out and disconnects. -/
def session : List World.Event :=
  [.accept 5, .accept 6, arrival ⟨0, 5⟩ (World.request .register 0 "bob secret"),
    arrival ⟨1, 6⟩ (World.request .register 0 "eve secret"),
    arrival ⟨1, 6⟩ (World.request .login 0 "bob guess"),
    arrival ⟨0, 5⟩ (World.request .login 0 "bob secret"),
    arrival ⟨1, 6⟩ (World.request .login 0 "eve secret"), .createChatroom 1 2,
    arrival ⟨0, 5⟩ { World.request .text 1 "hello" with sendTime := 1 },
    .leaveChatrooom 1 (intText 1), arrival ⟨1, 6⟩ (World.request .logout 0 "eve secret"),
    .close ⟨1, 6⟩]

/-- The session is orderly, and the service sends an answer to every request. -/
theorem provides_service_session : Exists fun world =>
    Run.after World.step (World.start (fun _ => 0)) session = some world ∧
      Provides (Simulation.responses Service.respond Service.start (session.filterMap eventOf)) world ∧
      (Simulation.responses Service.respond Service.start (session.filterMap eventOf)).sent.map
          (fun entry => (entry.1, entry.2.2)) =
        [(⟨0, 5⟩, .registered 1), (⟨1, 6⟩, .registered 2), (⟨1, 6⟩, .wrongSecret),
          (⟨0, 5⟩, .welcome 1), (⟨1, 6⟩, .welcome 2), (⟨1, 6⟩, .copy), (⟨1, 6⟩, .loggedOut 2)] := by
  have facts : (Run.check World.step orderlyTest (World.start (fun _ => 0)) session,
      (Run.after World.step (World.start (fun _ => 0)) session).isSome) = (true, true) := by
    decide +kernel
  rw [Prod.mk.injEq, Option.isSome_iff_exists] at facts
  rcases facts with ⟨checked, world, reached⟩
  have orderly := @Run.guarded_of_check _ _ World.step Sane Orderly orderlyTest
    (World.start (fun _ => 0)) (sane_start _) (fun _ _ _ sane taken => sane.step taken)
    (fun _ _ sane passed => orderly_of_test sane passed) session checked
  exact ⟨world, reached, provides_service orderly reached, by decide +kernel⟩

end Refinement
end ChatHub
