import ChatHub.Lib.Parson.Buffered
import ChatHub.Lib.WireNumbers
import ChatHub.Server.WriteSize

namespace ChatHub

/-!
# Packing into memory

`pack_message` with the passes of the serializer.  A message has two strings of
bounded length and four integers, so its text is short, whatever they are: no
array is overrun, no length overflows, and the string and the size that it
returns are those of the text.
-/

namespace PackedMessage

open Parson

/-- `pack_message`: the string and, for a caller that asks, its size. -/
def packMessage (numBuf : Bytes) (malloc : Nat -> Bytes) (message : Message) :
    Except Fault (Option Bytes × Nat) := do
  let serialiedString <- Buffered.jsonSerializeToStringPretty numBuf malloc
    (.object message.packObject)
  let jsonSize <- Buffered.jsonSerializationSizePretty numBuf (.object message.packObject)
  return (serialiedString, jsonSize)

/-! ## The length of the text -/

section Lengths

variable {message : Message}

/-- The length of a list of parts that are not too long. -/
theorem serializeParts_length_le {Part : Type} {text : Part -> Bytes} {bound : Nat}
    {parts : List Part} (short : forall part, part ∈ parts -> (text part).length ≤ bound) :
    (serializeParts true 0 text parts).length ≤ parts.length * (bound + 6) := by
  induction parts with
  | nil => exact Nat.zero_le _
  | cons part rest inductionHypothesis =>
      have here := short part List.mem_cons_self
      have others := inductionHypothesis
        (fun other member => short other (List.mem_cons_of_mem _ member))
      have indent : (lineIndent true (0 + 1)).length = 4 := by decide
      have comma : (if rest.isEmpty then [] else ascii "," : Bytes).length ≤ 1 := by
        split <;> decide
      have newline : (lineBreak true).length = 1 := by decide
      unfold serializeParts
      rw [List.length_cons, Nat.succ_mul]
      simp only [List.length_append]
      omega

/-- The strings are bounded by the arrays that they are read from. -/
theorem strings_length (message : Message) :
    message.msgString.length ≤ 2048 ∧ message.senderNameString.length ≤ 2068 := by
  have readShort : forall {size : Nat} (array : CharArray size) (behind : Bytes),
      (array.readThen behind).length ≤ size + behind.length := by
    intro size array behind
    have fits := array.fits
    unfold CharArray.readThen
    split
    · omega
    · rw [List.length_append]
      omega
  have msg : message.msgString.length ≤ maxMsgData + 0 := readShort message.msg []
  have sender : message.senderNameString.length ≤ maxChars + message.msgString.length :=
    readShort message.senderName message.msgString
  unfold maxMsgData at msg
  unfold maxChars at sender
  omega

theorem jsonSerializeString_length_le (text : Bytes) :
    (jsonSerializeString text).length ≤ 2 + 6 * text.length := by
  have escaped := WriteSize.escapedWidth_le text
  have quote : (ascii "\"").length = 1 := by decide
  unfold WriteSize.escapedWidth at escaped
  unfold jsonSerializeString
  simp only [List.length_append, quote]
  omega

/-- A member takes at most the length of the longest string. -/
theorem memberText_length_le {member : Bytes × JsonValue}
    (isName : member.1 ∈ Message.fieldNames)
    (short : (jsonSerializeToBufferR (0 + 1) true member.2).length ≤ 12410) :
    (memberText 0 true member).length ≤ 12424 := by
  have name : forall name, name ∈ Message.fieldNames -> (jsonSerializeString name).length ≤ 12 := by
    decide
  have here := name member.1 isName
  have colon : (ascii ":").length = 1 ∧ (ascii " ").length = 1 := by decide
  unfold memberText
  rw [List.length_append, List.length_append, List.length_append, if_pos rfl, colon.1, colon.2]
  omega

/-- Every member has a short text. -/
theorem member_length_le (wide : WireNumbers.SixtyFourBit message) :
    forall member, member ∈ message.packObject ->
      (jsonSerializeToBufferR (0 + 1) true member.2).length ≤ 12410 := by
  have number : forall {z : ℤ}, |z| ≤ 2 ^ 63 ->
      (jsonSerializeToBufferR (0 + 1) true (.number (Binary64.round z))).length ≤ 12410 := by
    intro z small
    have digits := Binary64.formatG17_length_le_of_finite (WireNumbers.finite_round small).1
    rw [jsonSerializeToBufferR]
    omega
  have string : forall {name text : Bytes}, text.length ≤ 2068 ->
      forall member, member ∈ Message.textMember name text ->
        (jsonSerializeToBufferR (0 + 1) true member.2).length ≤ 12410 := by
    intro name text short member isMember
    unfold Message.textMember at isMember
    split at isMember
    · have escaped := jsonSerializeString_length_le text
      rw [List.mem_singleton.mp isMember, jsonSerializeToBufferR]
      omega
    · exact absurd isMember List.not_mem_nil
  have ofType := number ((Message.type_bound message.type).trans (by norm_num))
  rw [Int.cast_natCast] at ofType
  rcases strings_length message with ⟨msgShort, senderShort⟩
  intro member isMember
  rw [Message.packObject_eq] at isMember
  simp only [List.mem_append, List.mem_cons, List.not_mem_nil, or_false] at isMember
  rcases isMember with (((rfl | rfl) | sender) | rfl | rfl) | msg
  · exact number (WireNumbers.abs_le_of_sixtyFourBit wide.msgId)
  · exact number (WireNumbers.abs_le_of_sixtyFourBit wide.groupId)
  · exact string senderShort member sender
  · exact number (WireNumbers.abs_le_of_sixtyFourBit wide.sendTime)
  · exact ofType
  · exact string (by omega) member msg

/-- No message has a long text. -/
theorem packMessage_length_le (wide : WireNumbers.SixtyFourBit message) :
    message.packMessage.length ≤ 100000 := by
  have names := message.packObject_names
  have members : (serializeParts true 0 (memberText 0 true) message.packObject).length ≤
      message.packObject.length * (12424 + 6) :=
    serializeParts_length_le fun member isMember =>
      memberText_length_le (names.subset (List.mem_map_of_mem isMember))
        (member_length_le wide member isMember)
  have few : message.packObject.length ≤ 6 := by
    have count := names.length_le
    rw [List.length_map] at count
    exact count
  have brackets : (ascii "\x7b").length = 1 ∧ (ascii "\x7d").length = 1 ∧
      (lineBreak true).length = 1 ∧ (lineIndent true 0).length = 0 := by
    decide
  unfold Message.packMessage jsonSerializeToStringPretty
  cases object : message.packObject with
  | nil =>
      rw [jsonSerializeToBufferR]
      decide
  | cons member rest =>
      rw [object] at members few
      rw [jsonSerializeToBufferR, serializeMembers_eq]
      simp only [List.length_append, brackets.1, brackets.2.1, brackets.2.2.1, brackets.2.2.2]
      have total := Nat.mul_le_mul_right (12424 + 6) few
      omega

end Lengths

/-! ## Memory -/

theorem packObject_storable {message : Message} (wide : WireNumbers.SixtyFourBit message) :
    Buffered.Storable (.object message.packObject) := by
  have number : forall {z : ℤ}, |z| ≤ 2 ^ 63 ->
      Buffered.Storable (.number (Binary64.round z)) :=
    fun small => Buffered.Storable.number (WireNumbers.finite_round small).1
  have ofType := number ((Message.type_bound message.type).trans (by norm_num))
  rw [Int.cast_natCast] at ofType
  exact Buffered.Storable.object message.packObject_names_noNul
    (Message.packObject_forall (number (WireNumbers.abs_le_of_sixtyFourBit wide.msgId))
      (number (WireNumbers.abs_le_of_sixtyFourBit wide.groupId))
      (number (WireNumbers.abs_le_of_sixtyFourBit wide.sendTime)) ofType Buffered.Storable.string)

/-- Whatever the message, and whatever was in memory, `pack_message` returns
the packed text with its NUL, and its size. -/
theorem packMessage_eq {message : Message} (wide : WireNumbers.SixtyFourBit message)
    {numBuf : Bytes} {malloc : Nat -> Bytes} (isNumBuf : numBuf.length = Buffered.numBufSize)
    (isMalloc : forall size, (malloc size).length = size) :
    packMessage numBuf malloc message =
      .ok (some (message.packMessage ++ [0]), message.packMessageSize) := by
  have storable := packObject_storable wide
  have short : message.packMessage.length + 1 < 2 ^ 31 := by
    have length := packMessage_length_le wide
    omega
  unfold packMessage
  rw [Buffered.jsonSerializeToStringPretty_of_short storable isNumBuf isMalloc short,
    Buffered.jsonSerializationSizePretty_eq storable isNumBuf]
  have counted : addLengths (jsonSerializeToStringPretty (.object message.packObject)).length 1 =
      .ok message.packMessageSize := Cursor.addLengths_of_lt short
  rw [counted]
  rfl

theorem packMessage_eq_sample :
    packMessage (List.replicate 64 7) (fun size => List.replicate size 9) Message.sample =
      .ok (some (Message.sample.packMessage ++ [0]), Message.sample.packMessageSize) :=
  packMessage_eq ⟨by decide, by decide, by decide⟩ (by decide) (fun _ => List.length_replicate)

end PackedMessage
end ChatHub
