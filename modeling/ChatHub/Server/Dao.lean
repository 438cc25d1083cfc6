import ChatHub.Base.Redis
import ChatHub.Lib.Config

namespace ChatHub

/-!
# The data access layer

The functions of `server/dao.c` as actions on the database.  `redisCommand`
returns a null pointer when the connection is lost; every function reads the
type of the reply at once and so faults there.  Every `%s` argument is passed
as one argument of the command, whatever it contains.

The id that `register_user` and `login_user` also store into their argument
is overwritten by every caller with the result, so only the result is
modelled.  The numbers of a new chatroom and of a saved message are printed by
`%lld` conversions although they are of type `int`.  A negative one is
therefore another number in the key than in the result.
-/

/-- The database as the server sees it, with the answers that the connection
will give and the times that the clock will show. -/
structure Db where
  store : Redis.Store
  /-- how many commands were issued so far -/
  issued : Nat
  outcome : Nat -> Redis.Outcome
  /-- how often the time was read so far -/
  ticks : Nat
  clock : Nat -> Int

namespace Db

/-- Every command is answered normally. -/
def Normal (db : Db) : Prop :=
  forall index, db.outcome index = .normal

/-- The database after a command that is answered normally. -/
def issue (db : Db) (command : Redis.Command) : Db :=
  { db with store := (Redis.exec db.store command).2, issued := db.issued + 1 }

/-- The database after the time was read. -/
def tick (db : Db) : Db :=
  { db with ticks := db.ticks + 1 }

/-- An empty database that answers every command normally. -/
def empty (clock : Nat -> Int) : Db where
  store := ∅
  issued := 0
  outcome := fun _ => .normal
  ticks := 0
  clock := clock

end Db

/-- `redisCommand` -/
def redisCommand (command : Redis.Command) : Action Db (Option Redis.Reply) := fun db =>
  match db.outcome db.issued with
  | .normal => (.ok (some (Redis.exec db.store command).1), db.issue command)
  | .error => (.ok (some (.error (ascii "ERR"))), { db with issued := db.issued + 1 })
  | .lost carriedOut =>
      (.ok none, if carriedOut then db.issue command else { db with issued := db.issued + 1 })

/-- A command whose reply is used without a check for a null pointer. -/
def ask (command : Redis.Command) : Action Db Redis.Reply := do
  match <- redisCommand command with
  | none => Action.fail .nullPointer
  | some reply => pure reply

/-- `reply->str`, used where a null pointer is not expected. -/
def str (reply : Redis.Reply) : Action Db Bytes :=
  match reply.strField with
  | none => Action.fail .nullPointer
  | some text => pure text

/-- `currentTimeMillis` -/
def currentTimeMillis : Action Db Int := fun db =>
  (.ok (db.clock db.ticks), db.tick)

/-! ## Keys -/

/-- `users` -/
def usersKey : Bytes := ascii "users"

/-- `next_user_id` -/
def nextUserIdKey : Bytes := ascii "next_user_id"

/-- `next_chatroom_id` -/
def nextChatroomIdKey : Bytes := ascii "next_chatroom_id"

/-- `user:%lld` -/
def userKey (userId : Int) : Bytes := ascii "user:" ++ intText userId

/-- `chatroom:%lld` -/
def chatroomKey (chatroomId : Int) : Bytes := ascii "chatroom:" ++ intText chatroomId

/-- `chatroom:%lld:next_msg_id` -/
def nextMsgIdKey (chatroomId : Int) : Bytes := chatroomKey chatroomId ++ ascii ":next_msg_id"

/-- `chatroom:%lld:%lld` -/
def messageKey (chatroomId msgId : Int) : Bytes :=
  chatroomKey chatroomId ++ ascii ":" ++ intText msgId

/-! ## Users -/

/-- `is_user_exists` -/
def isUserExists (username : Bytes) : Action Db Int := do
  let reply <- ask (.hexists usersKey username)
  if reply.isError then pure errorNormal else pure (toInt32 reply.integerField)

/-- A counter that the code reads into an `int`. -/
def nextId (key : Bytes) : Action Db Int := do
  let reply <- ask (.incr key)
  if reply.isError then pure errorNormal else pure (toInt32 reply.integerField)

/-- `get_next_userid` -/
def getNextUserid : Action Db Int :=
  nextId nextUserIdKey

/-- `register_user` behind the check for the name: store the record under a
new id and the id under the name. -/
def storeUser (user : User) : Action Db Int := do
  let userId <- getNextUserid
  let time <- currentTimeMillis
  let reply <- ask (.hmset (userKey userId)
    [(ascii "username", user.usernameString), (ascii "pass", user.passString),
      (ascii "registerTime", intText time)])
  if reply.isError then pure errorNormal
  else do
    let reply <- ask (.hset usersKey user.usernameString (intText userId))
    if reply.isError then pure errorNormal else pure userId

/-- `register_user` -/
def registerUser (user : User) : Action Db Int := do
  let present <- isUserExists user.usernameString
  if present = errorNormal then pure errorNormal
  else if present ≠ 0 then pure errorUserExists
  else storeUser user

/-- The id under a name in `users`, or `none` for an error reply. -/
def lookupUserid (username : Bytes) : Action Db (Option Int) := do
  let reply <- ask (.hget usersKey username)
  if reply.isError then pure none
  else do
    let text <- str reply
    pure (some (atoll text))

/-- `user->userId`, looked up by the name if it is zero. -/
def resolveUserid (user : User) : Action Db (Option Int) :=
  if user.userId = 0 then lookupUserid user.usernameString else pure (some user.userId)

/-- `login_user` behind the lookup of the id: the stored name and password
are compared, the password only if the name is right. -/
def checkPassword (user : User) (userId : Int) : Action Db Int := do
  let reply <- ask (.hmget (userKey userId) [ascii "username", ascii "pass"])
  if reply.isError then pure errorNormal
  else
    match reply.elementsField with
    | [username, pass] => do
        let username <- str username
        if user.usernameString ≠ username then pure errorNormal
        else do
          let pass <- str pass
          if user.passString ≠ pass then pure errorNormal else pure userId
    | _ => pure errorNormal

/-- `login_user` -/
def loginUser (user : User) : Action Db Int := do
  let present <- isUserExists user.usernameString
  if present = errorNormal then pure errorNormal
  else if present = 0 then pure errorUserNotexists
  else do
    match <- resolveUserid user with
    | none => pure errorNormal
    | some userId => checkPassword user userId

/-- The presence fields of a user record are set. -/
def setPresence (userId : Int) (isOnline sockfd : Int) : Action Db Int := do
  let time <- currentTimeMillis
  let reply <- ask (.hmset (userKey userId)
    [(ascii "isOnline", intText isOnline), (ascii "sockfd", intText sockfd),
      (ascii "lastOnlineTime", intText time)])
  if reply.isError then pure errorNormal else pure userId

/-- `set_online` -/
def setOnline (user : User) (fd : Int) : Action Db Int :=
  setPresence user.userId 1 fd

/-- `set_offline` -/
def setOffline (user : User) : Action Db Int := do
  match <- resolveUserid user with
  | none => pure errorNormal
  | some userId => setPresence userId 0 (-1)

/-- `logout_user` -/
def logoutUser (user : User) : Action Db Int :=
  setOffline user

/-- `get_userid_by_name` -/
def getUseridByName (username : Bytes) : Action Db Int := do
  match <- lookupUserid username with
  | none => pure errorNormal
  | some userId => pure userId

/-! ## The recipients of a chatroom -/

/-- The user ids among the members of a chatroom, read into an `int`. -/
def memberIds : List Redis.Reply -> Action Db (List Int)
  | [] => pure []
  | element :: rest => do
      let text <- str element
      let others <- memberIds rest
      if 0 < toInt32 (atoll text) then pure (toInt32 (atoll text) :: others) else pure others

/-- The second loop of `get_fd_byid`.  On an error reply the array is a null
pointer while the size keeps its value. -/
def collectFds (fds : List Int) : List Int -> Action Db (Option (List Int) × Nat)
  | [] => pure (some fds, fds.length)
  | userId :: rest => do
      let reply <- ask (.hget (userKey userId) (ascii "sockfd"))
      if reply.isError then pure (none, fds.length)
      else do
        let text <- str reply
        if 0 < atoi text then collectFds (fds ++ [atoi text]) rest else collectFds fds rest

/-- `get_fd_byid`: the array and `*size`. -/
def getFdByid (chatroomId : Int) : Action Db (Option (List Int) × Nat) := do
  let reply <- ask (.smembers (chatroomKey chatroomId))
  if reply.isError then pure (none, 0)
  else do
    let users <- memberIds reply.elementsField
    collectFds [] users

/-! ## Chatrooms -/

/-- `get_next_chatroomid` -/
def getNextChatroomid : Action Db Int :=
  nextId nextChatroomIdKey

/-- `create_chatroom` -/
def createChatroom (userId1 userId2 : Int) : Action Db Int := do
  let chatroomId <- getNextChatroomid
  if chatroomId = errorNormal then pure errorNormal
  else do
    let reply <- ask (.sadd (chatroomKey (zeroExtended chatroomId))
      [intText userId1, intText userId2])
    if reply.isError then pure errorNormal else pure chatroomId

/-- The keys are copied into arrays of 100 bytes. -/
def copyKeys : List Redis.Reply -> Action Db (List Bytes)
  | [] => pure []
  | element :: rest => do
      let key <- str element
      if 100 ≤ key.length then Action.fail .overflow
      else do
        let others <- copyKeys rest
        pure (key :: others)

/-- The keys are deleted one by one; errors are passed over. -/
def deleteKeys : List Bytes -> Action Db Unit
  | [] => pure ()
  | key :: rest => do
      let _ <- ask (.del key)
      deleteKeys rest

/-- `del_chatrooom` -/
def delChatrooom (chatroomId : Int) : Action Db Int := do
  let reply <- ask (.keys (chatroomKey chatroomId))
  if reply.isError then pure errorNormal
  else do
    let keys <- copyKeys reply.elementsField
    deleteKeys keys
    pure chatroomId

/-- `leave_chatrooom` -/
def leaveChatrooom (chatroomId : Int) (username : Bytes) : Action Db Int := do
  let reply <- ask (.srem (chatroomKey chatroomId) username)
  if reply.isError then pure errorNormal else pure chatroomId

/-- `is_user_exists_inchatroom` -/
def isUserExistsInchatroom (chatroomId : Int) (username : Bytes) : Action Db Int := do
  let reply <- ask (.sismember (chatroomKey chatroomId) username)
  if reply.isError then pure errorNormal else pure (toInt32 reply.integerField)

/-! ## Messages -/

/-- `get_next_msgid` -/
def getNextMsgid (chatroomId : Int) : Action Db Int :=
  nextId (nextMsgIdKey chatroomId)

/-- The message with a send time: its own if it is positive. -/
def stampMessage (message : Message) : Action Db Message :=
  if message.sendTime ≤ 0 then do
    let time <- currentTimeMillis
    pure { message with sendTime := time }
  else pure message

/-- `save_message`: the result and the message, whose send time may be new. -/
def saveMessage (chatroomId : Int) (message : Message) : Action Db (Int × Message) := do
  let msgId <- getNextMsgid chatroomId
  if msgId = errorNormal then pure (errorNormal, message)
  else do
    let message <- stampMessage message
    let reply <- ask (.hmset (messageKey chatroomId (zeroExtended msgId))
      [(ascii "msg", message.msgString), (ascii "senderName", message.senderNameString),
        (ascii "sendTime", intText message.sendTime),
        (ascii "type", intText (toInt32 message.type.toNat))])
    if reply.isError then pure (errorNormal, message) else pure (msgId, message)

end ChatHub
