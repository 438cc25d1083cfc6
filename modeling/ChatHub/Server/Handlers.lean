import ChatHub.Server.Clients
import ChatHub.Server.Framing
import ChatHub.Server.Records

namespace ChatHub

/-!
# The server

The handlers of `server/server.c` as actions on the world: the connections
with the client table, the database, and what was passed to
`bufferevent_write`.  A write is recorded with the text that the pointer leads
to and the length that is passed; the bytes behind the text are whatever the
heap holds there.  Writing to a bufferevent that was freed is a fault.

The world also remembers which user logged in on which connection.  Nothing
in the program reads that; it is there to be talked about.
-/

/-- A call of `bufferevent_write`: the connection, the text and the number of
bytes that are taken from its beginning. -/
structure Write where
  bev : Bufferevent
  json : Bytes
  size : Nat

/-- A message that is passed as it is packed, with `MAX_BUFF` bytes. -/
def Write.ofMessage (bev : Bufferevent) (message : Message) : Write :=
  ⟨bev, message.packMessage, maxBuff⟩

/-- The state of the whole system. -/
structure World where
  conns : Clients 1024
  db : Db
  /-- the writes so far -/
  written : List Write
  /-- the successful logins so far: the connection and the user -/
  logins : List (Bufferevent × Int)

namespace World

open ChatHub.Action

/-- The server has been started, and the database is empty. -/
def start (clock : Nat -> Int) : World where
  conns := Clients.init 1024 (by decide)
  db := Db.empty clock
  written := []
  logins := []

/-- A function of the data access layer, called by the server. -/
def dao {Value : Type} (action : Action Db Value) : Action World Value := fun world =>
  ((action world.db).1, { world with db := (action world.db).2 })

/-- `hash_get` on the client table. -/
def hashGet (fd : Int) : Action World (Option Bufferevent) := fun world =>
  (world.conns.clients.hashGet fd, world)

/-- `bufferevent_write` -/
def buffereventWrite (bev : Bufferevent) (json : Bytes) (size : Nat) : Action World Unit := fun world =>
  if bev ∈ world.conns.opened then
    (.ok (), { world with written := world.written ++ [⟨bev, json, size⟩] })
  else (.error .useAfterFree, world)

/-- Remember a successful login. -/
def recordLogin (bev : Bufferevent) (userId : Int) : Action World Unit := fun world =>
  (.ok (), { world with logins := (bev, userId) :: world.logins })

/-- The message that answers another one: the result takes the place of `msg`. -/
def answering (message : Message) (type : MessageType) (result : Int) : Message :=
  { message with type := type.code, msg := CharArray.strncpy maxMsgData (intText result) }

/-- The text of the answer. -/
def reply (message : Message) (type : MessageType) (result : Int) : Bytes :=
  (answering message type result).packMessage

/-- `handleRegister` -/
def handleRegister (this : Bufferevent) (message : Message) : Action World Unit := do
  let user <- ofExcept (msg2user message)
  let userId <- dao (registerUser user)
  buffereventWrite this (reply message .register userId) maxBuff

/-- `handleLogin` behind `login_user`: a positive result sets the user online. -/
def finishLogin (this : Bufferevent) (message : Message) (user : User) (userId : Int) :
    Action World Unit :=
  if 0 < toInt32 userId then do
    let _ <- dao (setOnline { user with userId := userId } this.fd)
    recordLogin this userId
    buffereventWrite this (reply message .login userId) maxBuff
  else buffereventWrite this (reply message .login userId) maxBuff

/-- `handleLogin` -/
def handleLogin (this : Bufferevent) (message : Message) : Action World Unit := do
  let user <- ofExcept (msg2user message)
  let userId <- dao (loginUser user)
  finishLogin this message user userId

/-- `handleLogout` -/
def handleLogout (this : Bufferevent) (message : Message) : Action World Unit := do
  let user <- ofExcept (msg2user message)
  let userId <- dao (logoutUser user)
  buffereventWrite this (reply message .logout userId) maxBuff

/-- A copy is written if there is a bufferevent to write to. -/
def writeCopy (receiver : Option Bufferevent) (message : Message) : Action World Unit :=
  match receiver with
  | some bev => buffereventWrite bev message.packMessage maxBuff
  | none => pure ()

/-- The loop of `handleChat` over the descriptors.  A descriptor that leads
back to the sender is skipped; every other one gets a copy if it leads to a
bufferevent, and the message is saved. -/
def sendCopies (sender : Bufferevent) : List Int -> Message -> Action World Unit
  | [], _ => pure ()
  | fd :: rest, message => do
      let receiver <- hashGet fd
      if receiver = some sender then sendCopies sender rest message
      else do
        writeCopy receiver message
        let saved <- dao (saveMessage message.groupId message)
        sendCopies sender rest saved.2

/-- `handleChat` -/
def handleChat (sender : Bufferevent) (message : Message) : Action World Unit := do
  let found <- dao (getFdByid message.groupId)
  match found.1 with
  | some fds => sendCopies sender (fds.take found.2) message
  | none => if found.2 = 0 then pure () else fail .nullPointer

/-- `handleAllMessage`.  The log line reads `message_types[type]` first. -/
def handleAllMessage (sender : Bufferevent) (message : Message) : Action World Unit :=
  if messageTypes.length ≤ message.type.toNat then fail .overread
  else if message.type = MessageType.login.code then handleLogin sender message
  else if message.type = MessageType.logout.code then handleLogout sender message
  else if message.type = MessageType.register.code then handleRegister sender message
  else if message.type = MessageType.text.code ∨ message.type = MessageType.image.code then
    handleChat sender message
  else pure ()

/-- `readcb` with the bytes in the input buffer of the connection and what the
array and the memory behind it held before. -/
def readcb (bev : Bufferevent) (buf input : Bytes) : Action World Unit := do
  match <- ofExcept (Framing.received buf input) with
  | none => pure ()
  | some message => if bev.fd ≠ -1 then handleAllMessage bev message else pure ()

/-- What happens: connections come and go, bytes arrive, and the members of
chatrooms change. -/
inductive Event where
  | accept (fd : Int)
  | close (bev : Bufferevent)
  | read (bev : Bufferevent) (buf input : Bytes)
  | createChatroom (userId1 userId2 : Int)
  | leaveChatrooom (chatroomId : Int) (username : Bytes)
  | delChatrooom (chatroomId : Int)

/-- The world after an action that returns. -/
def perform {Value : Type} (action : Action World Value) (world : World) : Option World :=
  match action world with
  | (.ok _, after) => some after
  | (.error _, _) => none

/-- One event.  Descriptors and user ids are numbers of type `int`, bytes
arrive on open connections, and there is no next world after a fault. -/
def step (world : World) : Event -> Option World
  | .accept fd =>
      if fd < 2 ^ 31 then
        (world.conns.step (.accept fd)).map (fun conns => { world with conns := conns })
      else none
  | .close bev =>
      (world.conns.step (.close bev)).map (fun conns => { world with conns := conns })
  | .read bev buf input =>
      if bev ∈ world.conns.opened ∧ maxBuff ≤ buf.length then perform (readcb bev buf input) world
      else none
  | .createChatroom userId1 userId2 =>
      if Dao.UserId userId1 ∧ Dao.UserId userId2 then
        perform (dao (createChatroom userId1 userId2)) world
      else none
  | .leaveChatrooom chatroomId username =>
      perform (dao (leaveChatrooom chatroomId username)) world
  | .delChatrooom chatroomId => perform (dao (delChatrooom chatroomId)) world

/-- A message from `bob`. -/
def request (type : MessageType) (groupId : Int) (text : String) : Message where
  msgId := 0
  groupId := groupId
  senderName := CharArray.strncpy maxChars (ascii "bob")
  msg := CharArray.strncpy maxMsgData (ascii text)
  sendTime := 0
  type := type.code

/-- One message arrives as a whole, and the array was zero. -/
def arrival (bev : Bufferevent) (message : Message) : Event :=
  .read bev (List.replicate maxBuff 0) (Framing.block message)

end World
end ChatHub
