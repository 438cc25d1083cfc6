import ChatHub.Lib.Config

namespace ChatHub

/-!
# The text form of a user

`user2msg` prints a user as two strings and a number with blanks between
them, and `msg2user` scans this text.  A scanned token is never empty and
never contains white space, so the text form is faithful only for strings of
that kind.  The guard of `user2msg` excludes the empty name and nothing else.
-/

namespace CredentialText

/-- A user whose strings are terminated, and the message that `user2msg`
makes of it. -/
structure Encoded where
  user : User
  undetermined : Int
  registerTime : Int
  message : Message
  name : user.username.Terminated
  pass : user.pass.Terminated
  timed : user.registerTime = some registerTime
  low : -2 ^ 63 ≤ registerTime
  high : registerTime < 2 ^ 63
  encodes : user2msg undetermined user = .ok (some message)

/-- The message decodes to the strings and the time of the user. -/
def Lossless (encoded : Encoded) : Prop :=
  Exists fun decoded => msg2user encoded.message = .ok decoded ∧
    decoded.usernameString = encoded.user.usernameString ∧
    decoded.passString = encoded.user.passString ∧
    decoded.registerTime = some encoded.registerTime

/-- The messages decode to one pair of strings. -/
def DecodeAlike (left right : Encoded) : Prop :=
  Exists fun first => Exists fun second =>
    msg2user left.message = .ok first ∧ msg2user right.message = .ok second ∧
      first.usernameString = second.usernameString ∧ first.passString = second.passString

/-- The password is not empty, and neither string contains white space. -/
structure Scannable (user : User) : Prop where
  present : user.passString ≠ []
  name : forall c, c ∈ user.usernameString -> isSpace c = false
  pass : forall c, c ∈ user.passString -> isSpace c = false

namespace Encoded

variable (encoded : Encoded)

theorem passString : encoded.user.passString = encoded.user.pass.text :=
  CharArray.readThen_of_terminated encoded.pass []

theorem usernameString : encoded.user.usernameString = encoded.user.username.text :=
  CharArray.readThen_of_terminated encoded.name _

theorem name_fits : encoded.user.usernameString.length < maxChars := by
  rw [encoded.usernameString]
  exact encoded.name

theorem pass_fits : encoded.user.passString.length < maxChars := by
  rw [encoded.passString]
  exact encoded.pass

theorem strncpy_name :
    CharArray.strncpy maxChars encoded.user.usernameString = encoded.user.username := by
  rw [encoded.usernameString]
  exact CharArray.strncpy_text _

theorem strncpy_pass : CharArray.strncpy maxChars encoded.user.passString = encoded.user.pass := by
  rw [encoded.passString]
  exact CharArray.strncpy_text _

/-- The guard lets a name through, and the text of the message is complete. -/
theorem text : encoded.user.usernameString ≠ [] ∧
    encoded.message.msgString = encoded.user.usernameString ++
      0x20 :: (encoded.user.passString ++ 0x20 :: intText encoded.registerTime) := by
  have encodes := encoded.encodes
  have short := encoded.name_fits
  have shortPass := encoded.pass_fits
  have digits := intText_length_le encoded.low encoded.high
  have noNul : 0 ∉ encoded.user.usernameString ++
      0x20 :: (encoded.user.passString ++ 0x20 :: intText encoded.registerTime) := by
    rw [encoded.usernameString, encoded.passString]
    simp only [List.mem_append, List.mem_cons, not_or]
    exact ⟨encoded.user.username.noNul, by decide, encoded.user.pass.noNul, by decide,
      not_mem_intText _ (by decide) (by decide)⟩
  have format : encoded.user.usernameString ++ ascii " " ++ encoded.user.passString ++ ascii " " ++
      intText encoded.registerTime = encoded.user.usernameString ++
        0x20 :: (encoded.user.passString ++ 0x20 :: intText encoded.registerTime) := by
    simp only [List.append_assoc]
    rfl
  have fits : (encoded.user.usernameString ++
      0x20 :: (encoded.user.passString ++ 0x20 :: intText encoded.registerTime)).length < maxMsgData := by
    simp only [List.length_append, List.length_cons]
    unfold maxChars at short shortPass
    unfold maxMsgData
    omega
  unfold user2msg at encodes
  simp only [encoded.timed, Option.getD_some, format] at encodes
  split at encodes
  · cases encodes
  · next accepted =>
      rw [if_neg (Nat.not_le.mpr fits)] at encodes
      rw [not_or] at accepted
      refine ⟨accepted.2, ?_⟩
      rw [← Option.some.inj (Except.ok.inj encodes)]
      exact CharArray.readThen_strncpy noNul fits []

/-- What is read back from the message are tokens. -/
theorem scannable_of_lossless (lossless : Lossless encoded) : Scannable encoded.user := by
  rcases lossless with ⟨decoded, returned, sameName, samePass, timed⟩
  rcases tokens_of_msg2user returned timed with
    ⟨username, behindName, pass, behindPass, nameScanned, passScanned, nameFits, passFits, isName, isPass, _⟩
  rcases scanToken_token nameScanned with ⟨_, nameVisible, nameFrom, restFrom⟩
  rcases scanToken_token passScanned with ⟨passPresent, passVisible, passFrom, _⟩
  have noNul : 0 ∉ encoded.message.msgString :=
    CharArray.readThen_noNul _ List.not_mem_nil
  have name : decoded.usernameString = username := by
    unfold User.usernameString
    rw [isName]
    exact CharArray.readThen_strncpy (fun nul => noNul (nameFrom nul)) nameFits _
  have passRead : decoded.passString = pass := by
    unfold User.passString
    rw [isPass]
    exact CharArray.readThen_strncpy (fun nul => noNul (restFrom (passFrom nul))) passFits _
  refine ⟨?_, ?_, ?_⟩
  · rw [← samePass, passRead]
    exact passPresent
  · rw [← sameName, name]
    exact nameVisible
  · rw [← samePass, passRead]
    exact passVisible

theorem lossless_of_scannable (scannable : Scannable encoded.user) : Lossless encoded := by
  rcases encoded.text with ⟨present, text⟩
  have returned := msg2user_of_tokens text present scannable.name encoded.name_fits
    scannable.present scannable.pass encoded.pass_fits encoded.low encoded.high
  rw [encoded.strncpy_name, encoded.strncpy_pass] at returned
  refine ⟨_, returned, ?_, ?_, rfl⟩
  · exact (CharArray.readThen_of_terminated encoded.name _).trans encoded.usernameString.symm
  · exact (CharArray.readThen_of_terminated encoded.pass _).trans encoded.passString.symm

end Encoded

/-- The message decodes to the user exactly when both strings are tokens, and
such users are never taken for each other. -/
theorem lossless_iff_scannable (encoded : Encoded) :
    (Lossless encoded <-> Scannable encoded.user) ∧
      forall other, Scannable encoded.user -> Scannable other.user -> DecodeAlike encoded other ->
        encoded.user.usernameString = other.user.usernameString ∧
          encoded.user.passString = other.user.passString := by
  refine ⟨⟨encoded.scannable_of_lossless, encoded.lossless_of_scannable⟩, ?_⟩
  intro other scannable otherScannable alike
  rcases encoded.lossless_of_scannable scannable with ⟨decoded, returned, name, pass, _⟩
  rcases other.lossless_of_scannable otherScannable with ⟨otherDecoded, otherReturned, otherName, otherPass, _⟩
  rcases alike with ⟨first, second, isFirst, isSecond, sameName, samePass⟩
  rw [returned] at isFirst
  rw [otherReturned] at isSecond
  cases isFirst
  cases isSecond
  exact ⟨name.symm.trans (sameName.trans otherName), pass.symm.trans (samePass.trans otherPass)⟩

/-- A user with a blank in the name. -/
def blankName : Encoded where
  user :=
    { User.newUser with
      username := CharArray.strncpy maxChars (ascii "al ice")
      pass := CharArray.strncpy maxChars (ascii "secret")
      registerTime := some 1 }
  undetermined := 0
  registerTime := 1
  message := { Message.newMessgae with msg := CharArray.strncpy maxMsgData (ascii "al ice secret 1") }
  name := by decide
  pass := by decide
  timed := rfl
  low := by decide
  high := by decide
  encodes := rfl

/-- The password of the user with a blank in the name is lost. -/
theorem blankName_not_lossless : Not (forall encoded, Lossless encoded) := by
  intro lossless
  have scannable := blankName.scannable_of_lossless (lossless blankName)
  exact absurd (scannable.name 0x20 (by decide)) (by decide)

end CredentialText
end ChatHub
