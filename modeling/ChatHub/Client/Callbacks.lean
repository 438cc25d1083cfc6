import ChatHub.Lib.Message

namespace ChatHub

/-!
# The client

The callbacks of `client/client.c`.  `stdin_cb` turns what the user types into
a message, and `read_cb` decodes what the server sent and acts on it.  The
client knows one user, whose name is stored when a login is requested and
whose id is stored when the reply arrives.

A callback returns the client as it leaves it, with the printed text.  Times,
the text that `getpass` returns and the first content of a variable that is
not initialized are parameters.  Of the memory that is freed one block is used
again: the password is in a buffer that belongs to `getpass`, and `getpass`
fills this buffer at every login.
-/

/-- `Client`, without the connection, and what was printed so far. -/
structure Client where
  user : User
  isLogin : Bool
  output : Bytes
  /-- the buffer of `getpass` has been freed -/
  passwordFreed : Bool
  /-- the heap found that the buffer was freed before, which ends the process -/
  aborted : Bool
  deriving DecidableEq

namespace Client

/-- The client as `main` sets it up. -/
def start : Client where
  user := User.newUser
  isLogin := false
  output := []
  passwordFreed := false
  aborted := false

/-- `printf` -/
def print (client : Client) (text : Bytes) : Client :=
  { client with output := client.output ++ text }

/-- `user_msg`.  The time is read twice, once for the text and once for the
message. -/
def userMsg (username pass : Bytes) (type : MessageType) (textTime sendTime : Int) :
    Except Fault Message :=
  let format := username ++ ascii " " ++ pass ++ ascii " " ++ intText textTime
  if maxMsgData ≤ format.length then .error .overflow
  else .ok
    { Message.newMessgae with
      msg := CharArray.strncpy maxMsgData format
      senderName := CharArray.strncpy maxChars username
      type := type.code
      sendTime := sendTime }

/-- `chat_msg` -/
def chatMsg (senderName msg : Bytes) (groupId sendTime : Int) : Except Fault Message :=
  if maxMsgData ≤ msg.length then .error .overflow
  else .ok
    { Message.newMessgae with
      msg := CharArray.strncpy maxMsgData msg
      senderName := CharArray.strncpy maxChars senderName
      type := MessageType.text.code
      sendTime := sendTime
      groupId := groupId }

/-! ## Input from the user -/

/-- What `read` put into a zeroed array of `size` bytes, up to the newline
that `strcspn` finds.  Without a newline and a NUL it searches behind the array. -/
def readLine (size : Nat) (typed : Bytes) : Except Fault Bytes :=
  let line := (typed.take size).takeWhile (fun c => c != 0 && c != 0x0A)
  if line.length < size then .ok line else .error .overread

/-- `%d` of `sscanf`: the number and the text behind it. -/
def scanInt (text : Bytes) : Option (Int × Bytes) :=
  let signed := readSign (text.dropWhile isSpace)
  if signed.2.takeWhile isDigit = [] then none
  else some (atoi text, signed.2.dropWhile isDigit)

/-- `sscanf(buf, "%d:%s", &chatroom_id, msg)`: the two variables afterwards,
where `msg` was zeroed. -/
def scanChat (chatroomId : Int) (buf : Bytes) : Except Fault (Int × Bytes) :=
  match scanInt buf with
  | none => .ok (chatroomId, [])
  | some (number, 0x3A :: rest) =>
      match scanToken rest with
      | none => .ok (number, [])
      | some (token, _) =>
          if maxMsgData ≤ token.length then .error .overflow else .ok (number, token)
  | some (number, _) => .ok (number, [])

/-- What a call of `stdin_cb` finds outside of the client. -/
structure Typed where
  /-- the line that is read first -/
  line : Bytes
  /-- the line that is read as a user name -/
  username : Bytes
  /-- what `getpass` returns -/
  password : Bytes
  /-- whether `free` finds out if the buffer of the password was freed before -/
  noticed : Bool
  /-- the first content of `chatroom_id` -/
  chatroomId : Int
  textTime : Int
  sendTime : Int

/-- The name that is sent.  The name array is cut where the password ends,
as the second `strcspn` searches the password. -/
def cutName (name pass : Bytes) : Bytes :=
  name.take (pass.takeWhile (fun c => c != 0x0A)).length

/-- The chat branch of `stdin_cb`. -/
def chat (client : Client) (typed : Typed) (buf : Bytes) :
    Except Fault (Client × Option Message) := do
  let scanned <- scanChat typed.chatroomId buf
  let message <- chatMsg client.user.usernameString scanned.2 scanned.1 typed.sendTime
  return (client, some message)

/-- The login branch of `stdin_cb`.  A password of `MAX_CHARS` bytes or more
is copied without its NUL.  The password is freed at the end, for a second time
at a second login. -/
def login (client : Client) (typed : Typed) : Except Fault (Client × Option Message) := do
  let name <- readLine maxChars typed.username
  let pass := cstr typed.password
  if maxChars ≤ pass.length then .error .overread
  else do
    let message <- userMsg (cutName name pass) pass .login typed.textTime typed.sendTime
    return ({ client with
      user := { client.user with
        username := CharArray.strncpy maxChars (cutName name pass)
        pass := CharArray.strncpy maxChars pass }
      output := client.output ++ ascii "Username(less than 20 words):\n"
      passwordFreed := true
      aborted := client.passwordFreed && typed.noticed }, some message)

/-- `print_help` -/
def printHelp (client : Client) : Client :=
  client.print (ascii "Commands:\n1->Login\n2->Register\n[chatroom id]:message\n")

/-- `stdin_cb`, with the message that it passes to `bufferevent_write`. -/
def stdinCb (client : Client) (typed : Typed) : Except Fault (Client × Option Message) := do
  let buf <- readLine maxBuff typed.line
  if client.isLogin then client.chat typed buf
  else if atoi buf = 1 then client.login typed
  else return ((client.print (ascii "Input error\n")).printHelp, none)

/-- `stdin_cb` as the event loop calls it.  If the call aborts, the message that
was passed to `bufferevent_write` has not left the process. -/
def onInput (client : Client) (typed : Typed) : Except Fault (Client × Option Message) := do
  let called <- client.stdinCb typed
  if called.1.aborted then .error .useAfterFree else return called

theorem onInput_eq_ok_iff (client : Client) (typed : Typed) (called : Client × Option Message) :
    client.onInput typed = .ok called <->
      client.stdinCb typed = .ok called ∧ called.1.aborted = false := by
  unfold onInput
  cases client.stdinCb typed with
  | error fault => simp [bind, Except.bind]
  | ok result =>
      change (if result.1.aborted = true then _ else Except.ok result) = _ <-> _
      cases aborts : result.1.aborted with
      | true =>
          refine iff_of_false (fun impossible => nomatch impossible) ?_
          rintro ⟨same, runs⟩
          rw [← Except.ok.inj same, aborts] at runs
          cases runs
      | false =>
          refine ⟨fun same => ⟨same, ?_⟩, fun both => both.1⟩
          rw [← Except.ok.inj same]
          exact aborts

/-! ## Input from the server -/

/-- The zeroed array of `read_cb` after `bufferevent_read`. -/
def readBuffer (input : Bytes) : Bytes :=
  input.take maxBuff ++ List.replicate (maxBuff - (input.take maxBuff).length) 0

/-- The message that `read_cb` decodes.  The parser looks for the NUL in the array
and then in the memory behind it. -/
def decode (behind input : Bytes) : Except Fault Message :=
  Message.unpackMessage (cstr (readBuffer input ++ behind))

/-- The switch of `read_cb`. -/
def act (client : Client) (message : Message) : Client :=
  if message.type = MessageType.login.code then
    if 0 < atoll message.msgString then
      { client with
        user := { client.user with userId := atoll message.msgString }
        isLogin := true
        output := client.output ++ ascii "Welcome!!!\nYou're login as " ++
          client.user.usernameString ++ ascii "\n" }
    else
      { client with
        user := { client.user with
          username := CharArray.empty maxChars, pass := CharArray.empty maxChars }
        output := client.output ++ ascii "Login error!\n" }
  else if message.type = MessageType.text.code then
    client.print (intText message.sendTime ++ ascii " " ++ intText message.groupId ++ ascii ":" ++
      message.senderNameString ++ ascii ":" ++ message.msgString ++ ascii "\n")
  else client

/-- `read_cb`, with the bytes that it leaves in the input buffer. -/
def readCb (client : Client) (behind input : Bytes) : Except Fault (Client × Bytes) :=
  match decode behind input with
  | .error fault => .error fault
  | .ok message => .ok (client.act message, input.drop maxBuff)

end Client
end ChatHub
