import ChatHub.Client.Callbacks
import ChatHub.Lib.WireNumbers

namespace ChatHub

/-!
# Credentials on the way to the server

A user name and a password are printed into one text, cut into an array,
escaped into JSON, parsed, cut again and scanned.  `Credential` collects what
a user may choose, and nothing of it is lost on the way.
-/

namespace Client

/-- A user name or a password: a C string that fits into its array. -/
structure Credential where
  text : Bytes
  noNul : 0 ∉ text
  nonempty : text ≠ []
  fits : text.length < maxChars
  visible : forall c, c ∈ text -> isSpace c = false
  utf8 : Parson.Utf8 text

namespace Credential

/-- A credential of ASCII characters. -/
def ofAscii (text : Bytes) (visible : forall c, c ∈ text -> 0x20 < c.toNat ∧ c.toNat < 0x7F)
    (nonempty : text ≠ []) (fits : text.length < maxChars) : Credential where
  text := text
  noNul := fun member => absurd (visible 0 member).1 (by decide)
  nonempty := nonempty
  fits := fits
  visible := fun c member => by
    have printable := visible c member
    have notSpace : forall byte : UInt8, 0x20 < byte.toNat -> isSpace byte = false := by
      apply forall_byte
      decide +kernel
    exact notSpace c printable.1
  utf8 := Parson.utf8_of_ascii (fun c member => by
    have printable := visible c member
    omega)

/-- An array of `MAX_CHARS` bytes holds the whole credential. -/
theorem strncpy_text (credential : Credential) :
    (CharArray.strncpy maxChars credential.text).text = credential.text :=
  CharArray.strncpy_of_fits credential.noNul (Nat.le_of_lt credential.fits)

end Credential

/-- The text of a request. -/
def credentialText (username pass : Bytes) (time : Int) : Bytes :=
  username ++ ascii " " ++ pass ++ ascii " " ++ intText time

section Request

variable (username pass : Credential) {time : Int}

theorem credentialText_noNul : 0 ∉ credentialText username.text pass.text time := by
  simp only [credentialText, List.mem_append, not_or]
  exact ⟨⟨⟨⟨username.noNul, by decide⟩, pass.noNul⟩, by decide⟩,
    not_mem_intText time (by decide) (by decide)⟩

theorem credentialText_utf8 : Parson.Utf8 (credentialText username.text pass.text time) := by
  have isAscii : forall byte, byte ∈ [(0x20 : UInt8)] -> byte.toNat < 0x80 :=
    List.forall_mem_singleton.mpr (by decide)
  have blank : Parson.Utf8 (ascii " ") := Parson.utf8_of_ascii isAscii
  exact (((username.utf8.append blank).append pass.utf8).append blank).append
    (Parson.utf8_intText time)

theorem credentialText_length (low : -2 ^ 63 ≤ time) (high : time < 2 ^ 63) :
    (credentialText username.text pass.text time).length < maxMsgData := by
  have digits := intText_length_le low high
  have nameFits := username.fits
  have passFits := pass.fits
  simp only [credentialText, List.length_append]
  unfold maxChars at nameFits passFits
  unfold maxMsgData
  change _ + 1 + _ + 1 + _ < _
  omega

/-- The message that `user_msg` makes of two credentials. -/
def requestMessage (type : MessageType) (textTime sendTime : Int) : Message :=
  { Message.newMessgae with
    msg := CharArray.strncpy maxMsgData (credentialText username.text pass.text textTime)
    senderName := CharArray.strncpy maxChars username.text
    type := type.code
    sendTime := sendTime }

variable (type : MessageType) {textTime sendTime : Int}

theorem userMsg_credentials (low : -2 ^ 63 ≤ textTime) (high : textTime < 2 ^ 63) :
    userMsg username.text pass.text type textTime sendTime =
      .ok (requestMessage username pass type textTime sendTime) := by
  have fits := credentialText_length username pass low high
  unfold userMsg
  exact if_neg (Nat.not_le.mpr fits)

theorem requestMessage_text (low : -2 ^ 63 ≤ textTime) (high : textTime < 2 ^ 63) :
    (requestMessage username pass type textTime sendTime).msg.text =
      credentialText username.text pass.text textTime := by
  have fits := credentialText_length username pass low high
  change (cstr (credentialText username.text pass.text textTime)).take maxMsgData = _
  rw [cstr_of_not_mem (credentialText_noNul username pass), List.take_of_length_le (Nat.le_of_lt fits)]

theorem requestMessage_wellformed (textExact : |textTime| ≤ 2 ^ 53) (sendExact : |sendTime| ≤ 2 ^ 53) :
    (requestMessage username pass type textTime sendTime).Wellformed := by
  rcases abs_le.mp textExact with ⟨low, high⟩
  have sameText := @requestMessage_text username pass type textTime sendTime (by omega) (by omega)
  refine ⟨?_, CharArray.strncpy_terminated username.fits, ?_, ?_, ?_, ?_, sendExact, type, rfl⟩
  · unfold CharArray.Terminated
    rw [sameText]
    exact credentialText_length username pass (by omega) (by omega)
  · rw [sameText]
    exact credentialText_utf8 username pass
  · change Parson.Utf8 (CharArray.strncpy maxChars username.text).text
    rw [username.strncpy_text]
    exact username.utf8
  · change |(0 : Int)| ≤ 2 ^ 53
    decide
  · change |(0 : Int)| ≤ 2 ^ 53
    decide

/-- Scanning the text of a request finds the two credentials and the time. -/
theorem msg2user_credentials {message : Message} (low : -2 ^ 63 ≤ textTime) (high : textTime < 2 ^ 63)
    (text : message.msgString = credentialText username.text pass.text textTime) :
    msg2user message = .ok
      { User.newUser with
        username := CharArray.strncpy maxChars username.text
        pass := CharArray.strncpy maxChars pass.text
        registerTime := some textTime } := by
  have shape : message.msgString =
      username.text ++ 0x20 :: (pass.text ++ 0x20 :: intText textTime) := by
    rw [text]
    simp only [credentialText, List.append_assoc]
    rfl
  exact msg2user_of_tokens shape username.nonempty username.visible username.fits pass.nonempty
    pass.visible pass.fits low high

/-- The server reads the user name, the password and the time that the client
put into its request, and the sender's name. -/
theorem credentials_survive (textExact : |textTime| ≤ 2 ^ 53) (sendExact : |sendTime| ≤ 2 ^ 53) :
    Exists fun message => userMsg username.text pass.text type textTime sendTime = .ok message ∧
      Exists fun received => Message.unpackMessage message.packMessage = .ok received ∧
        received.senderNameString = username.text ∧
        Exists fun user => msg2user received = .ok user ∧
          user.usernameString = username.text ∧ user.passString = pass.text ∧
          user.registerTime = some textTime := by
  rcases abs_le.mp textExact with ⟨low, high⟩
  have wellformed := requestMessage_wellformed username pass type textExact sendExact
  have unpacked := (WireNumbers.lossless_of_wellformed wellformed).unpacked
  have text := (requestMessage username pass type textTime sendTime).msgString_eq.trans
    (requestMessage_text username pass type (by omega) (by omega))
  have scanned := msg2user_credentials username pass (by omega) (by omega) text
  refine ⟨_, userMsg_credentials username pass type (by omega) (by omega), _, unpacked, ?_, _,
    scanned, ?_, ?_, rfl⟩
  · exact wellformed.senderNameString_eq.trans username.strncpy_text
  · exact CharArray.readThen_strncpy username.noNul username.fits _
  · exact CharArray.readThen_strncpy pass.noNul pass.fits _

end Request

/-- A name of nineteen bytes, and a password full of characters that are escaped. -/
def longName : Credential :=
  Credential.ofAscii (ascii "abcdefghijklmnopqrs") (by decide +kernel) (by decide) (by decide)

def quotedPass : Credential :=
  Credential.ofAscii (ascii "\"\\/\\\"//") (by decide +kernel) (by decide) (by decide)

theorem credentials_survive_quotedPass :
    Exists fun message => userMsg longName.text quotedPass.text .login 1500000000000 (2 ^ 53) = .ok message ∧
      Exists fun received => Message.unpackMessage message.packMessage = .ok received ∧
        received.senderNameString = longName.text ∧
        Exists fun user => msg2user received = .ok user ∧
          user.usernameString = longName.text ∧ user.passString = quotedPass.text ∧
          user.registerTime = some 1500000000000 :=
  credentials_survive longName quotedPass .login (by decide) (by decide)

end Client
end ChatHub
