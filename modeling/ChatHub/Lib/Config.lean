import ChatHub.Base.Action
import ChatHub.Base.Decimal

namespace ChatHub

/-!
# Messages and users

The records of `lib/config.h` and the text form of a user's credentials from
`lib/config.c`.  A character array without a NUL is read on into the field
behind it: `senderName` is followed by `msg`, `msg` by padding that `calloc`
zeroed, `username` by `pass` and `pass` by the zeroed `avatar`.
-/

/-- `MAX_MSG_DATA` -/
def maxMsgData : Nat := 1024 * 2

/-- `MAX_BUFF` -/
def maxBuff : Nat := 1024 * 4

/-- `MAX_CHARS` -/
def maxChars : Nat := 20

/-- `ERROR_NORMAL` -/
def errorNormal : Int := -1

/-- `ERROR_USER_EXISTS` -/
def errorUserExists : Int := -2

/-- `ERROR_USER_NOTEXISTS` -/
def errorUserNotexists : Int := -3

/-- `MessageType`, in the order of its numbers. -/
inductive MessageType where
  | text
  | image
  | login
  | register
  | logout
  | listChat
  | listFriend
  | addFriend
  | addFriendToGroup
  | delFriend
  | addGroup
  | delGroup
  | snyMsg
  | delMsg
  | exit
  deriving DecidableEq, Repr

/-- The number of a message type. -/
def MessageType.code (messageType : MessageType) : UInt32 :=
  UInt32.ofNat messageType.ctorIdx

theorem MessageType.code_lt (messageType : MessageType) : messageType.code.toNat < 15 := by
  cases messageType <;> decide

/-- `message_types` -/
def messageTypes : List String :=
  ["TEXT", "IMAGE", "LOGIN", "REGISTER", "LOGOUT", "LIST_CHAT", "LIST_FRIEND", "ADD_FRIEND",
    "ADD_FRIEND_TO_GROUP", "DEL_FRIEND", "ADD_GROUP", "DEL_GROUP", "SNY_MSG", "DEL_MSG", "EXIT"]

/-- `Message`; the enumeration field is an unsigned number of 32 bits. -/
@[ext] structure Message where
  msgId : Int
  groupId : Int
  senderName : CharArray maxChars
  msg : CharArray maxMsgData
  sendTime : Int
  type : UInt32
  deriving DecidableEq

namespace Message

/-- `new_messgae` -/
def newMessgae : Message where
  msgId := 0
  groupId := 0
  senderName := CharArray.empty maxChars
  msg := CharArray.empty maxMsgData
  sendTime := 0
  type := 0

/-- `msg` as a C string. -/
def msgString (message : Message) : Bytes :=
  message.msg.readThen []

theorem msgString_eq (message : Message) : message.msgString = message.msg.text :=
  message.msg.readThen_nil

/-- `senderName` as a C string. -/
def senderNameString (message : Message) : Bytes :=
  message.senderName.readThen message.msgString

end Message

/-- `User`, without the fields that nothing reads.  The register time is
`none` where the code leaves it undetermined. -/
structure User where
  userId : Int
  username : CharArray maxChars
  pass : CharArray maxChars
  registerTime : Option Int
  deriving DecidableEq

namespace User

/-- `new_user` -/
def newUser : User where
  userId := 0
  username := CharArray.empty maxChars
  pass := CharArray.empty maxChars
  registerTime := some 0

/-- `pass` as a C string. -/
def passString (user : User) : Bytes :=
  user.pass.readThen []

/-- `username` as a C string. -/
def usernameString (user : User) : Bytes :=
  user.username.readThen user.passString

end User

/-- `%s` of `sscanf`: a token and the text behind it, or the end of input. -/
def scanToken (text : Bytes) : Option (Bytes × Bytes) :=
  let visible := text.dropWhile isSpace
  if visible = [] then none
  else some (visible.takeWhile (fun c => !isSpace c), visible.dropWhile (fun c => !isSpace c))

/-- `%ld` of `sscanf`; nothing is stored without a digit. -/
def scanLong (text : Bytes) : Option Int :=
  if (readSign (text.dropWhile isSpace)).2.takeWhile isDigit = [] then none
  else some (atoll text)

/-! ## Tokens -/

theorem scanToken_space (text : Bytes) : scanToken (0x20 :: text) = scanToken text :=
  rfl

/-- A token ends at white space or with the text. -/
theorem scanToken_append {token rest : Bytes} (nonempty : token ≠ [])
    (visible : forall c, c ∈ token -> isSpace c = false)
    (ends : forall c, rest.head? = some c -> isSpace c = true) :
    scanToken (token ++ rest) = some (token, rest) := by
  have isVisible : forall c, c ∈ token -> (!isSpace c) = true := by
    intro c member
    rw [visible c member]
    rfl
  have kept : (token ++ rest).dropWhile isSpace = token ++ rest := by
    cases token with
    | nil => exact absurd rfl nonempty
    | cons c others =>
        have notSpace : Not (isSpace c = true) := by
          rw [visible c List.mem_cons_self]
          exact Bool.false_ne_true
        exact List.dropWhile_cons_of_neg notSpace
  have stops : rest.takeWhile (fun c => !isSpace c) = [] ∧
      rest.dropWhile (fun c => !isSpace c) = rest := by
    cases rest with
    | nil => exact ⟨rfl, rfl⟩
    | cons c others =>
        have isBlank : Not ((!isSpace c) = true) := by
          rw [ends c rfl]
          exact Bool.false_ne_true
        exact ⟨List.takeWhile_cons_of_neg isBlank, List.dropWhile_cons_of_neg isBlank⟩
  unfold scanToken
  simp only [kept]
  rw [if_neg (List.append_ne_nil_of_left_ne_nil nonempty rest),
    List.takeWhile_append_of_pos isVisible, List.dropWhile_append_of_pos isVisible, stops.1,
    stops.2, List.append_nil]

/-- Behind a blank a printed integer is read back. -/
theorem scanLong_intText {z : Int} (low : -2 ^ 63 ≤ z) (high : z < 2 ^ 63) :
    scanLong (0x20 :: intText z) = some z := by
  have skipped : atoll (0x20 :: intText z) = atoll (intText z) := rfl
  have hasDigit : (readSign ((0x20 :: intText z).dropWhile isSpace)).2.takeWhile isDigit ≠ [] := by
    change (readSign ((intText z).dropWhile isSpace)).2.takeWhile isDigit ≠ []
    rw [readSign_intText, natText_takeWhile_isDigit]
    exact natText_ne_nil _
  unfold scanLong
  rw [if_neg hasDigit, skipped, atoll_intText low high]

/-- A token is not empty and has no white space, and scanning adds no bytes. -/
theorem scanToken_token {text token rest : Bytes} (scanned : scanToken text = some (token, rest)) :
    token ≠ [] ∧ (forall c, c ∈ token -> isSpace c = false) ∧ token ⊆ text ∧ rest ⊆ text := by
  unfold scanToken at scanned
  simp only at scanned
  split at scanned
  · cases scanned
  · next visible =>
      cases scanned
      have shorter := List.dropWhile_sublist isSpace (l := text)
      refine ⟨?_, ?_, ?_, ?_⟩
      · rcases List.exists_cons_of_ne_nil visible with ⟨first, others, shape⟩
        have notSpace := List.head_dropWhile_not isSpace visible
        simp only [shape, List.head_cons] at notSpace
        rw [shape, List.takeWhile_cons_of_pos (by rw [notSpace]; rfl)]
        exact List.cons_ne_nil _ _
      · intro c member
        have kept := List.mem_takeWhile_imp member
        simpa using kept
      · exact ((List.takeWhile_sublist _).trans shorter).subset
      · exact ((List.dropWhile_sublist _).trans shorter).subset

/-- `user2msg`, where `undetermined` is the register time of a user that has
none.  A user without a name or with the time zero gives a null pointer. -/
def user2msg (undetermined : Int) (user : User) : Except Fault (Option Message) :=
  let registerTime := user.registerTime.getD undetermined
  if registerTime = 0 ∨ user.usernameString = [] then .ok none
  else
    let format := user.usernameString ++ ascii " " ++ user.passString ++ ascii " " ++ intText registerTime
    if maxMsgData ≤ format.length then .error .overflow
    else .ok (some { Message.newMessgae with msg := CharArray.strncpy maxMsgData format })

/-- `msg2user`.  A token of `MAX_CHARS` bytes or more does not fit into its
buffer with the terminating NUL. -/
def msg2user (msg : Message) : Except Fault User :=
  match scanToken msg.msgString with
  | none => .ok { User.newUser with registerTime := none }
  | some (username, behindName) =>
      if maxChars ≤ username.length then .error .overflow
      else
        match scanToken behindName with
        | none => .ok
            { User.newUser with
              username := CharArray.strncpy maxChars username, registerTime := none }
        | some (pass, behindPass) =>
            if maxChars ≤ pass.length then .error .overflow
            else .ok
              { User.newUser with
                username := CharArray.strncpy maxChars username
                pass := CharArray.strncpy maxChars pass
                registerTime := scanLong behindPass }

/-- The text of two tokens and a number is read back. -/
theorem msg2user_of_tokens {message : Message} {username pass : Bytes} {time : Int}
    (text : message.msgString = username ++ 0x20 :: (pass ++ 0x20 :: intText time))
    (namePresent : username ≠ []) (nameVisible : forall c, c ∈ username -> isSpace c = false)
    (nameFits : username.length < maxChars) (passPresent : pass ≠ [])
    (passVisible : forall c, c ∈ pass -> isSpace c = false) (passFits : pass.length < maxChars)
    (low : -2 ^ 63 ≤ time) (high : time < 2 ^ 63) :
    msg2user message = .ok
      { User.newUser with
        username := CharArray.strncpy maxChars username
        pass := CharArray.strncpy maxChars pass
        registerTime := some time } := by
  have blankEnds : forall rest : Bytes, forall c, (0x20 :: rest).head? = some c -> isSpace c = true := by
    intro rest c isHead
    rw [List.head?_cons, Option.some.injEq] at isHead
    rw [← isHead]
    rfl
  have first := scanToken_append namePresent nameVisible (blankEnds (pass ++ 0x20 :: intText time))
  have second := scanToken_append passPresent passVisible (blankEnds (intText time))
  unfold msg2user
  simp only [text, first, scanToken_space, second, scanLong_intText low high,
    if_neg (Nat.not_le.mpr nameFits), if_neg (Nat.not_le.mpr passFits)]

/-- A register time is read behind two tokens that fit. -/
theorem tokens_of_msg2user {message : Message} {user : User} {time : Int}
    (decoded : msg2user message = .ok user) (timed : user.registerTime = some time) :
    Exists fun username => Exists fun behindName => Exists fun pass => Exists fun behindPass =>
      scanToken message.msgString = some (username, behindName) ∧
      scanToken behindName = some (pass, behindPass) ∧
      username.length < maxChars ∧ pass.length < maxChars ∧
      user.username = CharArray.strncpy maxChars username ∧
      user.pass = CharArray.strncpy maxChars pass ∧ scanLong behindPass = some time := by
  unfold msg2user at decoded
  split at decoded
  · cases decoded
    cases timed
  · next username behindName nameScanned =>
      split at decoded
      · cases decoded
      · next nameFits =>
          split at decoded
          · cases decoded
            cases timed
          · next pass behindPass passScanned =>
              split at decoded
              · cases decoded
              · next passFits =>
                  cases decoded
                  exact ⟨username, behindName, pass, behindPass, nameScanned, passScanned,
                    Nat.not_le.mp nameFits, Nat.not_le.mp passFits, rfl, rfl, timed⟩

end ChatHub
