import ChatHub.Lib.Message
import ChatHub.Lib.Parson.Accepted

namespace ChatHub

/-!
# Numbers on the wire

The three numbers of a message are integers of 64 bits, but they travel as
`double`s.  The decimal text keeps a `double`, so a number is lost exactly when
the conversion changes it: when it has more than 53 significant bits.
-/

namespace WireNumbers

open Parson

/-- The numbers are of 64 bits. -/
structure SixtyFourBit (message : Message) : Prop where
  msgId : -2 ^ 63 ≤ message.msgId ∧ message.msgId < 2 ^ 63
  groupId : -2 ^ 63 ≤ message.groupId ∧ message.groupId < 2 ^ 63
  sendTime : -2 ^ 63 ≤ message.sendTime ∧ message.sendTime < 2 ^ 63

/-- The packed text is unpacked to a message with the same three numbers. -/
def KeepsNumbers (message : Message) : Prop :=
  Exists fun received => Message.unpackMessage message.packMessage = .ok received ∧
    received.msgId = message.msgId ∧ received.groupId = message.groupId ∧
    received.sendTime = message.sendTime

/-! ## Numbers that are read back -/

/-- An integer is zero or at least one, so it has a full significand. -/
theorem normal_intCast (z : ℤ) : Binary64.Normal (z : ℚ) := by
  by_cases zero : z = 0
  · exact Or.inl (by exact_mod_cast zero)
  · have large : (1 : ℚ) ≤ |(z : ℚ)| := by
      have atLeast : 1 ≤ |z| := Int.one_le_abs zero
      exact_mod_cast atLeast
    exact Or.inr (le_trans (by decide +kernel) large)

/-- Whatever the conversion makes of an integer of 64 bits is a finite double
with a full significand. -/
theorem finite_round {z : ℤ} (small : |z| ≤ 2 ^ 63) :
    Binary64.FiniteDouble (Binary64.round z) ∧ Binary64.Normal (Binary64.round z) := by
  rcases Binary64.round_representable z with ⟨n, rounded, _⟩
  refine ⟨⟨Binary64.round_round z, ?_⟩, by rw [rounded]; exact normal_intCast n⟩
  have below : |Binary64.round (z : ℚ)| < 10 ^ 19 := by
    by_cases exact_ : |z| ≤ 2 ^ 53
    · rw [Binary64.round_intCast exact_]
      exact_mod_cast lt_of_le_of_lt exact_ (by norm_num)
    · exact (Binary64.round_bounds (not_le.mp exact_) small).2
  exact below.trans (by decide +kernel)

/-- Whatever the conversion makes of an integer of 64 bits is read back. -/
theorem reprints_round {z : ℤ} (small : |z| ≤ 2 ^ 63) : Reprints (Binary64.round z) :=
  reprints_of_normal (finite_round small).1 (finite_round small).2

theorem abs_le_of_sixtyFourBit {z : ℤ} (wide : -2 ^ 63 ≤ z ∧ z < 2 ^ 63) : |z| ≤ 2 ^ 63 :=
  abs_le.mpr ⟨wide.1, le_of_lt wide.2⟩

/-- The conversion back gives the integer if and only if the first one kept it. -/
theorem convert_round_iff {z : ℤ} (wide : -2 ^ 63 ≤ z ∧ z < 2 ^ 63) :
    Message.convert 64 (Binary64.round z) = .ok z <-> Binary64.Representable z := by
  rw [← Binary64.round_eq_self_iff]
  constructor
  · intro converted
    rcases Binary64.round_representable z with ⟨n, rounded, _⟩
    unfold Message.convert at converted
    split at converted
    · rw [rounded, Binary64.truncate_intCast] at converted
      rw [rounded, Except.ok.inj converted]
    · cases converted
  · intro same
    rw [same]
    exact Message.convert_intCast wide.1 wide.2

/-- The number of a type fits into an `int` when it is below `2 ^ 31`. -/
theorem convert_type_iff (type : UInt32) :
    (Exists fun z => Message.convert 32 (Binary64.round type.toNat) = .ok z) <->
      type.toNat < 2 ^ 31 := by
  have whole := Binary64.truncate_intCast (type.toNat : ℤ)
  rw [Int.cast_natCast] at whole
  rw [Message.convert_returns_iff, Message.round_type]
  unfold Message.InRange
  rw [whole]
  omega

theorem convert_type_eq {type : UInt32} (small : type.toNat < 2 ^ 31) :
    Message.convert 32 (Binary64.round type.toNat) = .ok (type.toNat : ℤ) ∧
      type = UInt32.ofNat ((type.toNat : ℤ) % 2 ^ 32).toNat := by
  constructor
  · have converted : Message.convert 32 ((type.toNat : ℤ) : ℚ) = .ok (type.toNat : ℤ) :=
      Message.convert_intCast (by omega) (by norm_num; omega)
    rw [Int.cast_natCast] at converted
    rw [Message.round_type]
    exact converted
  · have reduced : ((type.toNat : ℤ) % 2 ^ 32).toNat = type.toNat := by omega
    rw [reduced, UInt32.ofNat_toNat]

/-! ## Reading a packed message -/

/-- Every packed message of 64-bit numbers is parsed as the packed object. -/
theorem jsonParseString_packMessage {message : Message} (wide : SixtyFourBit message) :
    jsonParseString message.packMessage = some (.object message.packObject) := by
  have ofInteger : forall {z : ℤ}, |z| ≤ 2 ^ 63 ->
      Legible maxNesting (.number (Binary64.round z)) :=
    fun small => Legible.number (reprints_round small)
  have ofType := ofInteger ((Message.type_bound message.type).trans (by norm_num))
  rw [Int.cast_natCast] at ofType
  have legible : Legible (maxNesting + 1) (.object message.packObject) :=
    Legible.object message.packObject_distinct message.packObject_names_noNul
      (Message.packObject_forall (ofInteger (abs_le_of_sixtyFourBit wide.msgId))
        (ofInteger (abs_le_of_sixtyFourBit wide.groupId))
        (ofInteger (abs_le_of_sixtyFourBit wide.sendTime)) ofType Legible.string)
  have parsed := jsonParseString_legible legible delimited_nil
  rwa [List.append_nil] at parsed

/-- What the getters find in the packed object. -/
theorem packObject_getters (message : Message) :
    jsonObjectGetNumber (some message.packObject) (ascii "msgId") =
        Binary64.round message.msgId ∧
      jsonObjectGetNumber (some message.packObject) (ascii "groupId") =
        Binary64.round message.groupId ∧
      jsonObjectGetNumber (some message.packObject) (ascii "sendTime") =
        Binary64.round message.sendTime ∧
      jsonObjectGetNumber (some message.packObject) (ascii "type") =
        Binary64.round message.type.toNat ∧
      (jsonObjectGetString (some message.packObject) (ascii "msg")).isSome =
        isValidUtf8 message.msgString ∧
      (jsonObjectGetString (some message.packObject) (ascii "senderName")).isSome =
        isValidUtf8 message.senderNameString := by
  rw [message.packObject_eq]
  unfold Message.textMember
  cases sender : isValidUtf8 message.senderNameString with
  | true => cases msg : isValidUtf8 message.msgString with
    | true => exact ⟨rfl, rfl, rfl, rfl, rfl, rfl⟩
    | false => exact ⟨rfl, rfl, rfl, rfl, rfl, rfl⟩
  | false => cases msg : isValidUtf8 message.msgString with
    | true => exact ⟨rfl, rfl, rfl, rfl, rfl, rfl⟩
    | false => exact ⟨rfl, rfl, rfl, rfl, rfl, rfl⟩

/-- An array is filled again from what a reader sees of it. -/
theorem strncpy_readThen {size : Nat} (array : CharArray size) {behind : Bytes}
    (noNul : 0 ∉ behind) : CharArray.strncpy size (array.readThen behind) = array := by
  apply CharArray.ext
  change (cstr (array.readThen behind)).take size = array.text
  rw [cstr_of_not_mem (array.readThen_noNul noNul)]
  unfold CharArray.readThen
  split
  · exact List.take_of_length_le array.fits
  · next unterminated =>
      have full : array.text.length = size := by
        have fits := array.fits
        unfold CharArray.Terminated at unterminated
        omega
      rw [List.take_append_of_le_length (le_of_eq full.symm), List.take_of_length_le array.fits]

theorem object_packMessage {message : Message} (wide : SixtyFourBit message) :
    jsonValueGetObject (jsonParseString message.packMessage) = some message.packObject := by
  rw [jsonParseString_packMessage wide]
  rfl

/-- What can be read back at all has two valid strings and a type of an `int`. -/
theorem valid_of_unpacked {message received : Message} (wide : SixtyFourBit message)
    (unpacked : Message.unpackMessage message.packMessage = .ok received) :
    isValidUtf8 message.msgString = true ∧ isValidUtf8 message.senderNameString = true ∧
      message.type.toNat < 2 ^ 31 := by
  rcases packObject_getters message with ⟨_, _, _, type, msg, senderName⟩
  rcases (Message.unpackMessage_eq_ok_iff _ _).mp unpacked with
    ⟨_, _, _, ⟨z, isType, _⟩, isMsg, isSender⟩
  rw [object_packMessage wide] at isType isMsg isSender
  rw [type] at isType
  rw [← msg, ← senderName]
  exact ⟨(Message.copyString_returns_iff maxMsgData _).mp ⟨_, isMsg⟩,
    (Message.copyString_returns_iff maxChars _).mp ⟨_, isSender⟩,
    (convert_type_iff message.type).mp ⟨z, isType⟩⟩

/-- The messages that come back as they were: both strings are UTF-8 as a reader
sees them, the type is in the range of an `int`, and no number has more than 53
significant bits. -/
structure Lossless (message : Message) : Prop where
  wide : SixtyFourBit message
  msgValid : isValidUtf8 message.msgString = true
  senderValid : isValidUtf8 message.senderNameString = true
  typeSmall : message.type.toNat < 2 ^ 31
  msgId : Binary64.Representable message.msgId
  groupId : Binary64.Representable message.groupId
  sendTime : Binary64.Representable message.sendTime

/-- Packing and unpacking gives these messages back.  Strings may fill their
arrays: what is read behind the name of the sender is cut off again. -/
theorem Lossless.unpacked {message : Message} (lossless : Lossless message) :
    Message.unpackMessage message.packMessage = .ok message := by
  have type := convert_type_eq lossless.typeSmall
  rw [Message.unpackMessage_eq_ok_iff, object_packMessage lossless.wide,
    Message.packObject_of_valid lossless.msgValid lossless.senderValid]
  exact ⟨(convert_round_iff lossless.wide.msgId).mpr lossless.msgId,
    (convert_round_iff lossless.wide.groupId).mpr lossless.groupId,
    (convert_round_iff lossless.wide.sendTime).mpr lossless.sendTime, ⟨_, type.1, type.2⟩,
    congrArg Except.ok (strncpy_readThen message.msg List.not_mem_nil),
    congrArg Except.ok (strncpy_readThen message.senderName message.msgString_noNul)⟩

/-- The numbers come back if and only if the message can be read back at all
and each of them has at most 53 significant bits. -/
theorem keepsNumbers_iff {message : Message} (wide : SixtyFourBit message) :
    KeepsNumbers message <->
      isValidUtf8 message.msgString = true ∧ isValidUtf8 message.senderNameString = true ∧
      message.type.toNat < 2 ^ 31 ∧ Binary64.Representable message.msgId ∧
      Binary64.Representable message.groupId ∧ Binary64.Representable message.sendTime := by
  constructor
  · rintro ⟨received, unpacked, sameMsgId, sameGroupId, sameSendTime⟩
    rcases valid_of_unpacked wide unpacked with ⟨msgValid, senderValid, typeSmall⟩
    rcases packObject_getters message with ⟨msgId, groupId, sendTime, _⟩
    rcases (Message.unpackMessage_eq_ok_iff _ _).mp unpacked with
      ⟨isMsgId, isGroupId, isSendTime, _⟩
    rw [object_packMessage wide] at isMsgId isGroupId isSendTime
    rw [msgId, sameMsgId, convert_round_iff wide.msgId] at isMsgId
    rw [groupId, sameGroupId, convert_round_iff wide.groupId] at isGroupId
    rw [sendTime, sameSendTime, convert_round_iff wide.sendTime] at isSendTime
    exact ⟨msgValid, senderValid, typeSmall, isMsgId, isGroupId, isSendTime⟩
  · rintro ⟨msgValid, senderValid, typeSmall, msgId, groupId, sendTime⟩
    have lossless : Lossless message :=
      ⟨wide, msgValid, senderValid, typeSmall, msgId, groupId, sendTime⟩
    exact ⟨message, lossless.unpacked, rfl, rfl, rfl⟩

/-- A well-formed message is one of these. -/
theorem lossless_of_wellformed {message : Message} (wellformed : message.Wellformed) :
    Lossless message where
  wide := by
    rcases abs_le.mp wellformed.msgIdExact with ⟨_, _⟩
    rcases abs_le.mp wellformed.groupIdExact with ⟨_, _⟩
    rcases abs_le.mp wellformed.sendTimeExact with ⟨_, _⟩
    constructor <;> omega
  msgValid := by
    rw [message.msgString_eq]
    exact isValidUtf8_of_utf8 wellformed.msgUtf8
  senderValid := by
    rw [wellformed.senderNameString_eq]
    exact isValidUtf8_of_utf8 wellformed.senderUtf8
  typeSmall := by
    rcases wellformed.typeKnown with ⟨type, known⟩
    have small := type.code_lt
    rw [known]
    omega
  msgId := Binary64.representable_of_small wellformed.msgIdExact
  groupId := Binary64.representable_of_small wellformed.groupIdExact
  sendTime := Binary64.representable_of_small wellformed.sendTimeExact

/-- A chat message with numbers far beyond 53 bits that have few significant ones. -/
def wideSample : Message :=
  { Message.sample with
    msgId := 2 ^ 62
    groupId := -2 ^ 63
    sendTime := 2 ^ 53 + 2 }

theorem keepsNumbers_wideSample : KeepsNumbers wideSample := by
  have wide : SixtyFourBit wideSample := ⟨by decide, by decide, by decide⟩
  exact (keepsNumbers_iff wide).mpr ⟨by decide +kernel, by decide +kernel, by decide,
    ⟨1, 62, by decide, by decide⟩, ⟨-1, 63, by decide, by decide⟩,
    ⟨2 ^ 52 + 1, 1, by decide, by decide⟩⟩

/-- A message to one group number and to the next are the same text, so one of
the numbers is not read back. -/
theorem groups_become_one :
    SixtyFourBit { Message.sample with groupId := 2 ^ 53 + 1 } ∧
      Message.packMessage { Message.sample with groupId := 2 ^ 53 + 1 } =
        Message.packMessage { Message.sample with groupId := 2 ^ 53 } ∧
      Not (KeepsNumbers { Message.sample with groupId := 2 ^ 53 + 1 }) := by
  have rounded : Binary64.round ((2 ^ 53 + 1 : ℤ) : ℚ) = Binary64.round ((2 ^ 53 : ℤ) : ℚ) := by
    decide +kernel
  have sameText : Message.packMessage { Message.sample with groupId := 2 ^ 53 + 1 } =
      Message.packMessage { Message.sample with groupId := 2 ^ 53 } := by
    unfold Message.packMessage
    rw [Message.packObject_eq, Message.packObject_eq, rounded]
    rfl
  have wellformed : Message.Wellformed { Message.sample with groupId := 2 ^ 53 } :=
    { Message.sample_wellformed with groupIdExact := by decide }
  refine ⟨⟨by decide, by decide, by decide⟩, sameText, ?_⟩
  rintro ⟨received, unpacked, _, sameGroupId, _⟩
  rw [sameText, (lossless_of_wellformed wellformed).unpacked] at unpacked
  rw [← Except.ok.inj unpacked] at sameGroupId
  exact absurd sameGroupId (by decide)

end WireNumbers
end ChatHub
