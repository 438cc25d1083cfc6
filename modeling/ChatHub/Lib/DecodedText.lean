import ChatHub.Lib.Message

namespace ChatHub

/-!
# The strings of a decoded message

`unpack_message` copies the decoded strings with `strncpy` and the size of the
array as the limit, which leaves no NUL behind a string that fills the array.
Packing such a message reads on into what lies behind it: the name of the
sender runs into the text of the message.
-/

namespace DecodedText

open Parson

/-- Both arrays hold a NUL. -/
def ProperStrings (message : Message) : Prop :=
  message.msg.Terminated ∧ message.senderName.Terminated

/-- `pack_message` reads the strings and their NULs inside the arrays. -/
def PacksInside (message : Message) : Prop :=
  message.msgString.length + 1 ≤ maxMsgData ∧ message.senderNameString.length + 1 ≤ maxChars

/-- A reader stays inside the array exactly if it holds a NUL. -/
theorem readThen_inside_iff {size : Nat} (array : CharArray size) (behind : Bytes) :
    (array.readThen behind).length + 1 ≤ size <-> array.Terminated := by
  unfold CharArray.readThen
  split
  · next terminated =>
      exact iff_of_true terminated terminated
  · next unterminated =>
      refine iff_of_false ?_ unterminated
      unfold CharArray.Terminated at unterminated
      rw [List.length_append]
      omega

theorem packsInside_iff (message : Message) : PacksInside message <-> ProperStrings message :=
  and_congr (readThen_inside_iff _ _) (readThen_inside_iff _ _)

/-- A message decoded from an object with two strings holds proper strings,
and is packed from its own arrays only, exactly if both strings are shorter
than their arrays. -/
theorem properStrings_iff_short {json : Bytes} {members : Members} {msg senderName : Bytes}
    {message : Message} (parsed : jsonParseString json = some (.object members))
    (hasMsg : jsonObjectGetValue members (ascii "msg") = some (.string msg))
    (hasSender : jsonObjectGetValue members (ascii "senderName") = some (.string senderName))
    (decoded : Message.unpackMessage json = .ok message) :
    (ProperStrings message ∧ PacksInside message) <->
      (cstr msg).length < maxMsgData ∧ (cstr senderName).length < maxChars := by
  rcases (Message.unpackMessage_eq_ok_iff json message).mp decoded with ⟨_, _, _, _, isMsg, isSender⟩
  rw [parsed] at isMsg isSender
  simp only [jsonValueGetObject, Message.jsonObjectGetString_of_value hasMsg,
    Message.jsonObjectGetString_of_value hasSender, Message.copyString, Except.ok.injEq]
    at isMsg isSender
  rw [packsInside_iff, and_self]
  unfold ProperStrings
  rw [← isMsg, ← isSender, CharArray.strncpy_terminated_iff, CharArray.strncpy_terminated_iff]

theorem properStrings_iff_short_sample :
    (ProperStrings Message.sample ∧ PacksInside Message.sample) <->
      (cstr Message.sample.msg.text).length < maxMsgData ∧
        (cstr Message.sample.senderName.text).length < maxChars := by
  have parsed := jsonParseString_serialized Message.sample_wellformed.readable delimited_nil
  have decoded := Message.unpackMessage_serialized Message.sample_wellformed delimited_nil
  rw [List.append_nil] at decoded
  refine @properStrings_iff_short _ _ _ _ _ parsed ?_ ?_ ?_
  · rw [Message.sample_wellformed.packObject_eq]
    rfl
  · rw [Message.sample_wellformed.packObject_eq]
    rfl
  · rw [List.append_nil]
    exact decoded

/-- A message whose sender has a name of twenty letters. -/
def longName : Bytes :=
  ascii "\x7b\"senderName\":\"abcdefghijklmnopqrst\",\"msg\":\"hello\"\x7d"

/-- The name fills its array, and the text of the message is read with it. -/
theorem longName_not_proper :
    Message.Decodable longName ∧ Exists fun message => Message.unpackMessage longName = .ok message ∧
      message.senderNameString = ascii "abcdefghijklmnopqrsthello" ∧
      Not (ProperStrings message) ∧ Not (PacksInside message) := by
  have reached : (Message.unpackMessage longName).toOption.map (fun message =>
      (message.senderNameString, decide message.senderName.Terminated)) =
        some (ascii "abcdefghijklmnopqrsthello", false) := by
    decide +kernel
  cases decoded : Message.unpackMessage longName with
  | error fault =>
      rw [decoded] at reached
      cases reached
  | ok message =>
      rw [decoded] at reached
      rcases Prod.mk.inj (Option.some.inj reached) with ⟨name, test⟩
      have unterminated : Not (ProperStrings message) :=
        fun proper => of_decide_eq_false test proper.2
      refine ⟨(Message.decodable_iff longName).mpr ⟨message, decoded⟩, message, rfl, name,
        unterminated, ?_⟩
      rw [packsInside_iff]
      exact unterminated

end DecodedText
end ChatHub
