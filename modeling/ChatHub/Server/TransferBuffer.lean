import ChatHub.Server.WriteSize

namespace ChatHub

/-!
# The transfer buffer

Both sides receive a text into an array of `MAX_BUFF` bytes, twice as many as
a message has text.  The serializer writes up to six characters for one of
them, so it is the content of the strings that decides whether the packed
message fits.  The number of escapes of each length says exactly when.
-/

namespace WriteSize

/-- The text with its NUL is not longer than `MAX_BUFF` bytes. -/
def FitsBuffer (message : Message) : Prop :=
  message.packMessage.length + 1 ≤ maxBuff

/-- The characters that are written as a backslash and one more: the quote,
both slashes, and the control characters with a short form. -/
def shortEscape (c : UInt8) : Bool :=
  c == 0x22 || c == 0x5C || c == 0x2F || c == 0x08 || c == 0x0C || c == 0x0A || c == 0x0D ||
    c == 0x09

/-- The control characters that are written as `\u00` and two digits. -/
def longEscape (c : UInt8) : Bool :=
  c < 0x20 && !shortEscape c

/-- The number of bytes of a string, plus one for each short escape and five
for each long one. -/
def escapedSize (text : Bytes) : Nat :=
  text.length + text.countP shortEscape + 5 * text.countP longEscape

theorem escape_length : forall c : UInt8, (Parson.escape c).length =
    1 + (if shortEscape c then 1 else 0) + 5 * (if longEscape c then 1 else 0) := by
  apply forall_byte
  decide +kernel

/-- What the serializer writes for a string, counted by kinds of characters. -/
theorem escapedWidth_eq (text : Bytes) : escapedWidth text = escapedSize text := by
  induction text with
  | nil => rfl
  | cons c rest inductionHypothesis =>
      have first := escape_length c
      unfold escapedWidth escapedSize at *
      rw [List.flatMap_cons, List.length_append, List.length_cons, List.countP_cons,
        List.countP_cons, first, inductionHypothesis]
      omega

/-- A message with proper strings fits exactly if its four numbers as they
are printed and its two strings, counted with their escapes, take at most
3992 characters. -/
theorem fitsBuffer_iff {message : Message} (printable : Printable message) :
    FitsBuffer message <->
      numberWidth message.msgId + numberWidth message.groupId + numberWidth message.sendTime +
        numberWidth message.type.toNat + escapedSize message.senderName.text +
        escapedSize message.msg.text ≤ 3992 := by
  have length := packMessage_length printable
  unfold width at length
  rw [printable.senderNameString_eq, message.msgString_eq, escapedWidth_eq, escapedWidth_eq]
    at length
  unfold FitsBuffer maxBuff
  omega

/-- A chat message of 2047 slashes, the longest legal text. -/
def slashes : Message where
  msgId := 1
  groupId := 1
  senderName := CharArray.strncpy maxChars (ascii "bob")
  msg := CharArray.strncpy maxMsgData (List.replicate 2047 0x2F)
  sendTime := 1500000000
  type := MessageType.text.code

theorem slashes_msg : slashes.msg.text = List.replicate 2047 0x2F := by
  apply CharArray.strncpy_of_fits
  · intro member
    cases List.eq_of_mem_replicate member
  · rw [List.length_replicate]
    decide

theorem slashes_printable : Printable slashes where
  msgTerminated := by
    unfold CharArray.Terminated
    rw [slashes_msg, List.length_replicate]
    decide
  senderTerminated := by decide +kernel
  msgUtf8 := by
    rw [slashes_msg]
    apply Parson.utf8_of_ascii
    intro byte member
    rw [List.eq_of_mem_replicate member]
    decide
  senderUtf8 := Parson.utf8_of_ascii (by decide +kernel)
  msgId := by decide
  groupId := by decide
  sendTime := by decide

theorem fitsBuffer_iff_sample :
    FitsBuffer Message.sample <->
      numberWidth Message.sample.msgId + numberWidth Message.sample.groupId +
        numberWidth Message.sample.sendTime + numberWidth Message.sample.type.toNat +
        escapedSize Message.sample.senderName.text + escapedSize Message.sample.msg.text ≤ 3992 :=
  fitsBuffer_iff ⟨⟨by decide, by decide, by decide⟩, Message.sample_wellformed.msgTerminated,
    Message.sample_wellformed.senderTerminated, Message.sample_wellformed.msgUtf8,
    Message.sample_wellformed.senderUtf8⟩

/-- Each slash takes two characters, so this legal message does not fit. -/
theorem slashes_too_long : Printable slashes ∧ Not (FitsBuffer slashes) := by
  refine ⟨slashes_printable, fun fits => ?_⟩
  have length := packMessage_length slashes_printable
  have text : escapedWidth slashes.msgString = 4094 := by
    rw [slashes.msgString_eq, slashes_msg, escapedWidth_eq]
    unfold escapedSize
    rw [List.length_replicate, List.countP_replicate, List.countP_replicate]
    decide
  unfold width at length
  unfold FitsBuffer maxBuff at fits
  omega

end WriteSize
end ChatHub
