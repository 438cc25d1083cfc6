import ChatHub.Client.Identity

namespace ChatHub

/-!
# What is sent of what was typed

A login is typed as two lines, a chat message as one.  The name is cut at the
position where the password ends, because the second `strcspn` of `stdin_cb`
searches the password.  The text of a chat message is read with `%s`, so it
ends at the first white space.  `print_help` announces neither.
-/

namespace Lines

open Client

/-- What a user who is not logged in types to log in: the choice, a name on a
line of its own, and a password. -/
structure LoginInput (client : Client) where
  typed : Typed
  choice : Bytes
  username : Bytes
  loggedOut : client.isLogin = false
  chosen : readLine maxBuff typed.line = .ok choice ∧ atoi choice = 1
  nameLength : 1 ≤ username.length ∧ username.length ≤ 19
  nameLine : 0x0A ∉ username
  nameTyped : Exists fun behind => typed.username = username ++ 0x0A :: behind
  passLength : 1 ≤ typed.password.length ∧ typed.password.length ≤ 19
  passLine : 0x0A ∉ typed.password
  passString : 0 ∉ typed.password
  time : -2 ^ 63 ≤ typed.textTime ∧ typed.textTime < 2 ^ 63

/-- The login message carries the name and the password, and the client
stores them. -/
def LoginInput.Sent {client : Client} (input : LoginInput client) : Prop :=
  Exists fun next => Exists fun message =>
    client.stdinCb input.typed = .ok (next, some message) ∧
    message.type = MessageType.login.code ∧
    message.senderNameString = input.username ∧
    input.username ++ ascii " " ++ input.typed.password ++ ascii " " <+: message.msgString ∧
    next.user.usernameString = input.username ∧ next.user.passString = input.typed.password

/-- What a user who is logged in types to send a text to a chatroom. -/
structure ChatInput (client : Client) where
  typed : Typed
  chatroomId : Int
  text : Bytes
  loggedIn : client.isLogin = true
  range : -2 ^ 31 ≤ chatroomId ∧ chatroomId < 2 ^ 31
  nonempty : text ≠ []
  fits : text.length ≤ 2047
  oneLine : 0x0A ∉ text
  lineTyped : Exists fun behind => typed.line = intText chatroomId ++ 0x3A :: (text ++ 0x0A :: behind)

/-- The chat message carries the number, the text and the user's name. -/
def ChatInput.Sent {client : Client} (input : ChatInput client) : Prop :=
  Exists fun next => Exists fun message =>
    client.stdinCb input.typed = .ok (next, some message) ∧
    message.groupId = input.chatroomId ∧ message.msgString = input.text ∧
    message.senderNameString = client.user.usernameString

/-- A callback of the client: the user types something, or bytes arrive, with
any memory behind the array of `read_cb`. -/
inductive Event where
  | input (typed : Typed)
  | receive (behind bytes : Bytes)

/-- One call of `stdin_cb` or `read_cb`, if it returns. -/
def step (client : Client) : Event -> Option Client
  | .input typed => (client.onInput typed).toOption.map Prod.fst
  | .receive behind bytes => (client.readCb behind bytes).toOption.map Prod.fst

/-! ## Lines -/

theorem takeWhile_line {line : Bytes} (oneLine : 0x0A ∉ line) (behind : Bytes) :
    (line ++ 0x0A :: behind).takeWhile (fun c => c != 0 && c != 0x0A) = cstr line := by
  induction line with
  | nil => rfl
  | cons c rest inductionHypothesis =>
      rw [List.mem_cons, not_or] at oneLine
      by_cases zero : c = 0
      · subst zero
        rfl
      · have isKept : (c != 0 && c != 0x0A) = true := by simp [zero, Ne.symm oneLine.1]
        have isText : (c != 0) = true := by simp [zero]
        unfold cstr at inductionHypothesis ⊢
        rw [List.cons_append, List.takeWhile_cons, if_pos isKept, List.takeWhile_cons, if_pos isText,
          inductionHypothesis oneLine.2]

/-- A line that fits is read up to its first NUL. -/
theorem readLine_of_line {size : Nat} {line : Bytes} (oneLine : 0x0A ∉ line)
    (fits : line.length < size) (behind : Bytes) :
    readLine size (line ++ 0x0A :: behind) = .ok (cstr line) := by
  have array : (line ++ 0x0A :: behind).take size =
      line ++ 0x0A :: behind.take (size - line.length - 1) := by
    rw [List.take_append, List.take_of_length_le (Nat.le_of_lt fits), List.take_cons (by omega)]
  have short := cstr_length_le line
  unfold readLine
  simp only [array, takeWhile_line oneLine]
  exact if_pos (by omega)

/-! ## The login -/

section Login

variable {client : Client} (input : LoginInput client)

/-- What is left of the typed name. -/
def LoginInput.sentName : Bytes :=
  cutName (cstr input.username) input.typed.password

theorem LoginInput.sentName_eq :
    input.sentName = (cstr input.username).take input.typed.password.length := by
  have noBreak : forall c, c ∈ input.typed.password -> (c != 0x0A) = true := by
    intro c member
    have different : c ≠ 0x0A := fun same => input.passLine (same ▸ member)
    simpa using different
  unfold LoginInput.sentName cutName
  rw [List.takeWhile_eq_self_iff.mpr noBreak]

/-- The name arrives if it has no NUL and is no longer than the password. -/
theorem LoginInput.sentName_iff : input.sentName = input.username <->
    0 ∉ input.username ∧ input.username.length ≤ input.typed.password.length := by
  rw [input.sentName_eq]
  constructor
  · intro same
    have noNul : 0 ∉ input.username := by
      intro member
      rw [← same] at member
      exact not_mem_cstr _ (List.mem_of_mem_take member)
    have length := congrArg List.length same
    rw [cstr_of_not_mem noNul, List.length_take] at length
    exact ⟨noNul, by omega⟩
  · rintro ⟨noNul, short⟩
    rw [cstr_of_not_mem noNul, List.take_of_length_le short]

theorem LoginInput.sentName_noNul : 0 ∉ input.sentName := by
  rw [input.sentName_eq]
  exact fun member => not_mem_cstr _ (List.mem_of_mem_take member)

theorem LoginInput.sentName_fits : input.sentName.length < maxChars := by
  have short := cstr_length_le input.username
  have length := input.nameLength
  rw [input.sentName_eq, List.length_take]
  unfold maxChars
  omega

/-- The text of the request. -/
def LoginInput.format : Bytes :=
  input.sentName ++ ascii " " ++ input.typed.password ++ ascii " " ++ intText input.typed.textTime

theorem LoginInput.format_length : input.format.length < maxMsgData := by
  have name := input.sentName_fits
  have pass := input.passLength
  have time := intText_length_le input.time.1 input.time.2
  unfold maxChars at name
  unfold LoginInput.format maxMsgData
  simp only [List.length_append]
  change _ + 1 + _ + 1 + _ < _
  omega

theorem LoginInput.format_noNul : 0 ∉ input.format := by
  simp only [LoginInput.format, List.mem_append, not_or]
  exact ⟨⟨⟨⟨input.sentName_noNul, by decide⟩, input.passString⟩, by decide⟩,
    not_mem_intText _ (by decide) (by decide)⟩

/-- The request. -/
def LoginInput.request : Message :=
  { Message.newMessgae with
    msg := CharArray.strncpy maxMsgData input.format
    senderName := CharArray.strncpy maxChars input.sentName
    type := MessageType.login.code
    sendTime := input.typed.sendTime }

/-- The client behind the request. -/
def LoginInput.requested : Client :=
  { client with
    user := { client.user with
      username := CharArray.strncpy maxChars input.sentName
      pass := CharArray.strncpy maxChars input.typed.password }
    output := client.output ++ ascii "Username(less than 20 words):\n"
    passwordFreed := true
    aborted := client.passwordFreed && input.typed.noticed }

theorem LoginInput.password_fits : input.typed.password.length < maxChars := by
  have length := input.passLength
  unfold maxChars
  omega

/-- The login is sent with what is left of the name. -/
theorem LoginInput.stdinCb_eq :
    client.stdinCb input.typed = .ok (input.requested, some input.request) := by
  have nameFits : input.username.length < maxChars := by
    have length := input.nameLength
    unfold maxChars
    omega
  have nameRead : readLine maxChars input.typed.username = .ok (cstr input.username) := by
    rcases input.nameTyped with ⟨behind, shape⟩
    rw [shape]
    exact readLine_of_line input.nameLine nameFits behind
  have formatted : userMsg input.sentName input.typed.password .login input.typed.textTime
      input.typed.sendTime = .ok input.request :=
    if_neg (Nat.not_le.mpr input.format_length)
  have chosen : client.stdinCb input.typed = client.login input.typed := by
    unfold stdinCb
    rw [input.chosen.1]
    change (if client.isLogin = true then _ else if atoi input.choice = 1 then _ else _) = _
    rw [input.loggedOut, if_neg Bool.false_ne_true, if_pos input.chosen.2]
  rw [chosen]
  unfold Client.login
  rw [nameRead]
  change (if maxChars ≤ (cstr input.typed.password).length then _ else
    userMsg (cutName (cstr input.username) (cstr input.typed.password)) (cstr input.typed.password)
      .login input.typed.textTime input.typed.sendTime >>= _) = _
  rw [cstr_of_not_mem input.passString, if_neg (Nat.not_le.mpr input.password_fits)]
  change userMsg input.sentName input.typed.password .login input.typed.textTime
    input.typed.sendTime >>= _ = _
  rw [formatted]
  rfl

theorem LoginInput.request_sender : input.request.senderNameString = input.sentName :=
  CharArray.readThen_strncpy input.sentName_noNul input.sentName_fits _

theorem LoginInput.request_text : input.request.msgString = input.format :=
  CharArray.readThen_strncpy input.format_noNul input.format_length _

theorem LoginInput.requested_user :
    input.requested.user.usernameString = input.sentName ∧
      input.requested.user.passString = input.typed.password :=
  ⟨CharArray.readThen_strncpy input.sentName_noNul input.sentName_fits _,
    CharArray.readThen_strncpy input.passString input.password_fits _⟩

end Login

/-- Whatever a user types, the login carries the typed name and password
exactly if the name has no NUL and is no longer than the password. -/
theorem loginSent_iff_no_longer (client : Client) (input : LoginInput client) :
    input.Sent <->
      0 ∉ input.username ∧ input.username.length ≤ input.typed.password.length := by
  rw [← input.sentName_iff]
  constructor
  · rintro ⟨next, message, ran, _, sender, _⟩
    rw [input.stdinCb_eq] at ran
    cases ran
    exact input.request_sender.symm.trans sender
  · intro same
    refine ⟨_, _, input.stdinCb_eq, rfl, input.request_sender.trans same, ?_,
      input.requested_user.1.trans same, input.requested_user.2⟩
    rw [input.request_text, ← same]
    exact List.prefix_append _ _

/-- The name "alice" with a password of two characters. -/
def shortPassword : LoginInput Client.start where
  typed := Identity.typedLogin "alice" "pw"
  choice := ascii "1"
  username := ascii "alice"
  loggedOut := rfl
  chosen := by decide +kernel
  nameLength := by decide
  nameLine := by decide
  nameTyped := ⟨[], rfl⟩
  passLength := by decide
  passLine := by decide
  passString := by decide
  time := by decide

/-- The name is sent as "al". -/
theorem shortPassword_not_sent :
    Not (forall (client : Client) (input : LoginInput client), input.Sent) := by
  have reached : (Client.start.stdinCb shortPassword.typed).toOption.bind (fun pair =>
      pair.2.map Message.senderNameString) = some (ascii "al") := by
    decide +kernel
  intro always
  rcases always Client.start shortPassword with ⟨next, message, ran, _, sender, _⟩
  rw [ran] at reached
  have sent : message.senderNameString = ascii "al" := Option.some.inj reached
  rw [sent] at sender
  exact absurd sender (by decide)

/-! ## The chat message -/

theorem scanInt_intText {z : Int} (low : -2 ^ 31 ≤ z) (high : z < 2 ^ 31) {rest : Bytes}
    (ends : forall c, rest.head? = some c -> isDigit c = false) :
    scanInt (intText z ++ rest) = some (z, rest) := by
  rcases natText_span z.natAbs ends with ⟨digits, behind⟩
  unfold scanInt
  simp only [readSign_intText_append, digits, behind, atoi_intText_append low high ends]
  exact if_neg (natText_ne_nil _)

section Chat

variable {client : Client} (input : ChatInput client)

/-- The first token of the typed text. -/
def ChatInput.sentText : Bytes :=
  ((cstr input.text).dropWhile isSpace).takeWhile (fun c => !isSpace c)

theorem ChatInput.sentText_sublist : input.sentText.Sublist input.text :=
  ((List.takeWhile_sublist _).trans (List.dropWhile_sublist _)).trans (List.takeWhile_sublist _)

theorem ChatInput.sentText_noNul : 0 ∉ input.sentText := by
  intro member
  have inside := ((List.takeWhile_sublist _).trans (List.dropWhile_sublist _)).subset member
  exact not_mem_cstr _ inside

theorem ChatInput.sentText_fits : input.sentText.length < maxMsgData := by
  have length := input.sentText_sublist.length_le
  have fits := input.fits
  unfold maxMsgData
  omega

/-- The whole text is sent if it is a single token. -/
theorem ChatInput.sentText_iff : input.sentText = input.text <->
    forall c, c ∈ input.text -> isSpace c = false ∧ c ≠ 0 := by
  constructor
  · intro same c member
    rw [← same] at member
    refine ⟨by simpa using List.mem_takeWhile_imp member, fun zero => ?_⟩
    exact input.sentText_noNul (zero ▸ member)
  · intro visible
    have noNul : 0 ∉ input.text := fun member => (visible 0 member).2 rfl
    have isToken : forall c, c ∈ input.text -> (!isSpace c) = true := by
      intro c member
      rw [(visible c member).1]
      rfl
    have starts : input.text.dropWhile isSpace = input.text := by
      cases shape : input.text with
      | nil => rfl
      | cons c rest =>
          have notSpace := (visible c (by rw [shape]; exact List.mem_cons_self)).1
          rw [List.dropWhile_cons, notSpace]
          rfl
    unfold ChatInput.sentText
    rw [cstr_of_not_mem noNul, starts, List.takeWhile_eq_self_iff.mpr isToken]

theorem ChatInput.line_read : readLine maxBuff input.typed.line =
    .ok (intText input.chatroomId ++ 0x3A :: cstr input.text) := by
  rcases input.lineTyped with ⟨behind, shape⟩
  have number := intText_length_le (z := input.chatroomId) (by have := input.range; omega)
    (by have := input.range; omega)
  have fits := input.fits
  have oneLine : 0x0A ∉ intText input.chatroomId ++ 0x3A :: input.text := by
    simp only [List.mem_append, List.mem_cons, not_or]
    exact ⟨not_mem_intText _ (by decide) (by decide), by decide, input.oneLine⟩
  have short : (intText input.chatroomId ++ 0x3A :: input.text).length < maxBuff := by
    rw [List.length_append, List.length_cons]
    unfold maxBuff
    omega
  have read := readLine_of_line oneLine short behind
  rw [List.append_assoc, List.cons_append, cstr_append_of_not_mem
    (not_mem_intText _ (by decide) (by decide))] at read
  rw [shape]
  exact read

theorem ChatInput.line_scanned (chatroomId : Int) :
    scanChat chatroomId (intText input.chatroomId ++ 0x3A :: cstr input.text) =
      .ok (input.chatroomId, input.sentText) := by
  have number : scanInt (intText input.chatroomId ++ 0x3A :: cstr input.text) =
      some (input.chatroomId, 0x3A :: cstr input.text) := by
    apply scanInt_intText input.range.1 input.range.2
    intro c isHead
    cases isHead
    rfl
  by_cases blank : (cstr input.text).dropWhile isSpace = []
  · have none : scanToken (cstr input.text) = none := if_pos blank
    have empty : input.sentText = [] := by
      unfold ChatInput.sentText
      rw [blank]
      rfl
    simp only [scanChat, number, none, empty]
  · have token : scanToken (cstr input.text) = some (input.sentText,
        ((cstr input.text).dropWhile isSpace).dropWhile (fun c => !isSpace c)) := if_neg blank
    simp only [scanChat, number, token, if_neg (Nat.not_le.mpr input.sentText_fits)]

/-- The message. -/
def ChatInput.message : Message :=
  { Message.newMessgae with
    msg := CharArray.strncpy maxMsgData input.sentText
    senderName := CharArray.strncpy maxChars client.user.usernameString
    type := MessageType.text.code
    sendTime := input.typed.sendTime
    groupId := input.chatroomId }

theorem ChatInput.stdinCb_eq :
    client.stdinCb input.typed = .ok (client, some input.message) := by
  have formatted : chatMsg client.user.usernameString input.sentText input.chatroomId
      input.typed.sendTime = .ok input.message :=
    if_neg (Nat.not_le.mpr input.sentText_fits)
  unfold stdinCb
  rw [input.line_read]
  change (if client.isLogin = true then client.chat input.typed
    (intText input.chatroomId ++ 0x3A :: cstr input.text) else _) = _
  rw [input.loggedIn, if_pos rfl]
  unfold Client.chat
  rw [input.line_scanned]
  change chatMsg client.user.usernameString input.sentText input.chatroomId
    input.typed.sendTime >>= _ = _
  rw [formatted]
  rfl

theorem ChatInput.message_text : input.message.msgString = input.sentText :=
  CharArray.readThen_strncpy input.sentText_noNul input.sentText_fits _

theorem ChatInput.message_sender (stored : client.user.username.Terminated) :
    input.message.senderNameString = client.user.usernameString := by
  apply Identity.usernameString_of_terminated stored
  change CharArray.strncpy maxChars client.user.usernameString = _
  rw [show client.user.usernameString = client.user.username.text from
    CharArray.readThen_of_terminated stored _, CharArray.strncpy_text]

theorem ChatInput.sent_iff (stored : client.user.username.Terminated) :
    input.Sent <-> forall c, c ∈ input.text -> isSpace c = false ∧ c ≠ 0 := by
  rw [← input.sentText_iff]
  constructor
  · rintro ⟨next, message, ran, _, text, _⟩
    rw [input.stdinCb_eq] at ran
    cases ran
    exact input.message_text.symm.trans text
  · intro same
    exact ⟨_, _, input.stdinCb_eq, rfl, input.message_text.trans same, input.message_sender stored⟩

end Chat

/-! ## Every run -/

theorem act_stored {client : Client} (stored : client.user.username.Terminated)
    (message : Message) : (client.act message).user.username.Terminated := by
  unfold Client.act
  split
  · split
    · exact stored
    · exact (by decide : (CharArray.empty maxChars).Terminated)
  split
  · exact stored
  · exact stored

/-- The stored name is terminated whatever is typed and received. -/
theorem step_stored {client next : Client} {event : Event}
    (stored : client.user.username.Terminated) (taken : step client event = some next) :
    next.user.username.Terminated := by
  cases event with
  | input typed =>
      cases ran : client.onInput typed with
      | error fault =>
          simp only [step, ran] at taken
          cases taken
      | ok result =>
          rcases result with ⟨after, sent⟩
          simp only [step, ran] at taken
          cases taken
          cases Identity.onInput_typing ran with
          | chat => exact stored
          | login _ _ _ isStored _ => exact isStored
          | other _ _ same =>
              rw [same]
              exact stored
  | receive behind bytes =>
      unfold step readCb at taken
      cases decoded : decode behind bytes with
      | error fault =>
          simp only [decoded] at taken
          cases taken
      | ok message =>
          simp only [decoded] at taken
          cases taken
          exact act_stored stored message

/-- In every state of every run, a chat line is sent as it was typed exactly
if its text has neither white space nor a NUL. -/
theorem chatSent_iff_visible (events : List Event) :
    Run.Always step (fun client => forall input : ChatInput client,
      input.Sent <-> forall c, c ∈ input.text -> isSpace c = false ∧ c ≠ 0) Client.start events := by
  have stored := @Run.invariant _ _ step (fun client => client.user.username.Terminated) Client.start
    (by decide) (fun _ _ _ stored taken => step_stored stored taken) events
  exact stored.mono (fun _ stored input => input.sent_iff stored)

/-- A user logs in. -/
def aliceOnline : List Event :=
  [.input (Identity.typedLogin "alice" "secret"),
    .receive [] ((Identity.replyMessage 1).packMessage ++ [0])]

/-- Then the user types this. -/
def typedChat : Typed :=
  { Identity.typedLogin "" "" with line := ascii "1:hello world\n" }

/-- Of two words the first is sent. -/
theorem aliceOnline_not_sent :
    Not (Run.Always step (fun client => forall input : ChatInput client, input.Sent)
      Client.start aliceOnline) := by
  have reached : (Run.after step Client.start aliceOnline).map (fun client =>
      (client.isLogin, (client.stdinCb typedChat).toOption.bind (fun pair =>
        pair.2.map Message.msgString))) = some (true, some (ascii "hello")) := by
    decide +kernel
  intro always
  rcases Option.map_eq_some_iff.mp reached with ⟨client, leads, facts⟩
  rw [Prod.mk.injEq] at facts
  rcases facts with ⟨loggedIn, said⟩
  rcases always.finish leads
    { typed := typedChat
      chatroomId := 1
      text := ascii "hello world"
      loggedIn := loggedIn
      range := by decide
      nonempty := by decide
      fits := by decide
      oneLine := by decide
      lineTyped := ⟨[], by decide +kernel⟩ } with ⟨next, message, ran, _, text, _⟩
  change client.stdinCb typedChat = _ at ran
  rw [ran] at said
  have sent : message.msgString = ascii "hello" := Option.some.inj said
  exact absurd (sent.symm.trans text) (by change ascii "hello" ≠ ascii "hello world"; decide)

end Lines
end ChatHub
