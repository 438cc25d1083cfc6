import ChatHub.Lib.Config
import ChatHub.Lib.Parson.RoundTrip

namespace ChatHub

/-!
# The message codec

`pack_message` puts the six fields of a message into a JSON object and
serializes it; `unpack_message` parses a text and reads the fields back.
Unpacking checks nothing: a missing string is a null pointer for `strncpy`,
and a number is converted whatever its size.
-/

namespace Message

open Parson

/-- The object that `pack_message` serializes. -/
def packObject (message : Message) : Members :=
  let put := fun (members : Members) (name : String) (number : ℚ) =>
    jsonObjectSetNumber members (ascii name) (Binary64.round number)
  let root := put [] "msgId" message.msgId
  let root := put root "groupId" message.groupId
  let root := jsonObjectSetString root (ascii "senderName") message.senderNameString
  let root := put root "sendTime" message.sendTime
  let root := put root "type" message.type.toNat
  jsonObjectSetString root (ascii "msg") message.msgString

/-- `pack_message`, without the terminating NUL. -/
def packMessage (message : Message) : Bytes :=
  jsonSerializeToStringPretty (.object message.packObject)

/-- The size that `pack_message` reports, which counts the terminating NUL. -/
def packMessageSize (message : Message) : Nat :=
  jsonSerializationSizePretty (.object message.packObject)

/-- The range of the integer types that numbers are converted to. -/
def InRange (bits : Nat) (number : ℚ) : Prop :=
  -2 ^ (bits - 1) ≤ Binary64.truncate number ∧ Binary64.truncate number < 2 ^ (bits - 1)

instance (bits : Nat) (number : ℚ) : Decidable (InRange bits number) :=
  inferInstanceAs (Decidable (_ ∧ _))

/-- The conversion of a `double` to a signed integer type. -/
def convert (bits : Nat) (number : ℚ) : Except Fault Int :=
  if InRange bits number then .ok (Binary64.truncate number) else .error .conversion

/-- `strncpy` from a pointer that may be null. -/
def copyString (size : Nat) : Option Bytes -> Except Fault (CharArray size)
  | none => .error .nullPointer
  | some source => .ok (CharArray.strncpy size source)

/-- `unpack_message` -/
def unpackMessage (json : Bytes) : Except Fault Message := do
  let rootObject := jsonValueGetObject (jsonParseString json)
  let msgId <- convert 64 (jsonObjectGetNumber rootObject (ascii "msgId"))
  let groupId <- convert 64 (jsonObjectGetNumber rootObject (ascii "groupId"))
  let sendTime <- convert 64 (jsonObjectGetNumber rootObject (ascii "sendTime"))
  let type <- convert 32 (jsonObjectGetNumber rootObject (ascii "type"))
  let msg <- copyString maxMsgData (jsonObjectGetString rootObject (ascii "msg"))
  let senderName <- copyString maxChars (jsonObjectGetString rootObject (ascii "senderName"))
  return {
    msgId, groupId, senderName, msg, sendTime
    type := UInt32.ofNat (type % 2 ^ 32).toNat }

/-! ## The packed object -/

/-- A string is set if it passes the UTF-8 check. -/
def textMember (name text : Bytes) : Members :=
  if isValidUtf8 text then [(name, .string text)] else []

theorem packObject_eq (message : Message) : message.packObject =
    [(ascii "msgId", .number (Binary64.round message.msgId)),
      (ascii "groupId", .number (Binary64.round message.groupId))] ++
    textMember (ascii "senderName") message.senderNameString ++
    [(ascii "sendTime", .number (Binary64.round message.sendTime)),
      (ascii "type", .number (Binary64.round message.type.toNat))] ++
    textMember (ascii "msg") message.msgString := by
  unfold packObject textMember
  simp only [jsonObjectSetNumber, jsonObjectSetString, jsonValueInitNumber, jsonValueInitString]
  by_cases sender : isValidUtf8 message.senderNameString = true
  · by_cases msg : isValidUtf8 message.msgString = true
    · simp only [if_pos sender, if_pos msg]
      rfl
    · simp only [if_pos sender, if_neg msg]
      rfl
  · by_cases msg : isValidUtf8 message.msgString = true
    · simp only [if_neg sender, if_pos msg]
      rfl
    · simp only [if_neg sender, if_neg msg]
      rfl

/-- With two valid strings all six members are there. -/
theorem packObject_of_valid {message : Message} (msgValid : isValidUtf8 message.msgString = true)
    (senderValid : isValidUtf8 message.senderNameString = true) : message.packObject =
    [(ascii "msgId", .number (Binary64.round message.msgId)),
      (ascii "groupId", .number (Binary64.round message.groupId)),
      (ascii "senderName", .string message.senderNameString),
      (ascii "sendTime", .number (Binary64.round message.sendTime)),
      (ascii "type", .number (Binary64.round message.type.toNat)),
      (ascii "msg", .string message.msgString)] := by
  rw [packObject_eq]
  unfold textMember
  rw [if_pos msgValid, if_pos senderValid]
  rfl

/-- The names of the members, in their order. -/
def fieldNames : List Bytes :=
  [ascii "msgId", ascii "groupId", ascii "senderName", ascii "sendTime", ascii "type", ascii "msg"]

theorem fieldNames_nodup : fieldNames.Nodup := by
  decide +kernel

theorem fieldNames_noNul : forall name, name ∈ fieldNames -> 0 ∉ name := by
  decide +kernel

/-- The members have different names out of these. -/
theorem packObject_names (message : Message) :
    (message.packObject.map Prod.fst).Sublist fieldNames := by
  have ofText : forall name text : Bytes, ((textMember name text).map Prod.fst).Sublist [name] := by
    intro name text
    unfold textMember
    split
    · exact List.Sublist.refl [name]
    · exact List.nil_sublist [name]
  have parts : fieldNames = [ascii "msgId", ascii "groupId"] ++ [ascii "senderName"] ++
      [ascii "sendTime", ascii "type"] ++ [ascii "msg"] :=
    rfl
  rw [packObject_eq, parts]
  simp only [List.map_append]
  exact (((List.Sublist.refl _).append (ofText _ _)).append (List.Sublist.refl _)).append
    (ofText _ _)

theorem packObject_distinct (message : Message) : (message.packObject.map Prod.fst).Nodup :=
  fieldNames_nodup.sublist message.packObject_names

theorem packObject_names_noNul (message : Message) :
    forall member, member ∈ message.packObject -> 0 ∉ member.1 :=
  fun _ isMember => fieldNames_noNul _
    (message.packObject_names.subset (List.mem_map_of_mem isMember))

theorem msgString_noNul (message : Message) : 0 ∉ message.msgString :=
  message.msg.readThen_noNul List.not_mem_nil

theorem senderNameString_noNul (message : Message) : 0 ∉ message.senderNameString :=
  message.senderName.readThen_noNul message.msgString_noNul

/-- What holds of the four numbers and of every C string holds of the values
of the members. -/
theorem packObject_forall {property : JsonValue -> Prop} {message : Message}
    (msgId : property (.number (Binary64.round message.msgId)))
    (groupId : property (.number (Binary64.round message.groupId)))
    (sendTime : property (.number (Binary64.round message.sendTime)))
    (type : property (.number (Binary64.round message.type.toNat)))
    (strings : forall {text}, 0 ∉ text -> property (.string text)) :
    forall member, member ∈ message.packObject -> property member.2 := by
  have ofText : forall {name text : Bytes}, 0 ∉ text ->
      forall member, member ∈ textMember name text -> property member.2 := by
    intro name text noNul member isMember
    unfold textMember at isMember
    split at isMember
    · rw [List.mem_singleton.mp isMember]
      exact strings noNul
    · exact absurd isMember List.not_mem_nil
  rw [packObject_eq]
  intro member isMember
  simp only [List.mem_append, List.mem_cons, List.not_mem_nil, or_false] at isMember
  rcases isMember with (((rfl | rfl) | sender) | rfl | rfl) | msg
  · exact msgId
  · exact groupId
  · exact ofText message.senderNameString_noNul member sender
  · exact sendTime
  · exact type
  · exact ofText message.msgString_noNul member msg

/-! ## The packed text is a C string -/

theorem packObject_cStrings (message : Message) : CStrings (.object message.packObject) :=
  CStrings.object message.packObject_names_noNul
    (packObject_forall (CStrings.number _) (CStrings.number _) (CStrings.number _)
      (CStrings.number _) CStrings.string)

theorem noNul_packMessage (message : Message) : 0 ∉ message.packMessage :=
  noNul_serialized message.packObject_cStrings 0 true

/-- A text that was written with its NUL is unpacked alone, whatever follows. -/
theorem unpackMessage_block (message : Message) (behind : Bytes) :
    unpackMessage (cstr (message.packMessage ++ 0 :: behind)) = unpackMessage message.packMessage := by
  rw [cstr_append_nul message.noNul_packMessage]

/-! ## Round trip -/

/-- The messages of the chat protocol: terminated UTF-8 texts, numbers in the
exact range of a `double` and a type of the enumeration. -/
structure Wellformed (message : Message) : Prop where
  msgTerminated : message.msg.Terminated
  senderTerminated : message.senderName.Terminated
  msgUtf8 : Utf8 message.msg.text
  senderUtf8 : Utf8 message.senderName.text
  msgIdExact : |message.msgId| ≤ 2 ^ 53
  groupIdExact : |message.groupId| ≤ 2 ^ 53
  sendTimeExact : |message.sendTime| ≤ 2 ^ 53
  typeKnown : Exists fun messageType : MessageType => message.type = messageType.code

theorem Wellformed.senderNameString_eq {message : Message} (wellformed : message.Wellformed) :
    message.senderNameString = message.senderName.text :=
  CharArray.readThen_of_terminated wellformed.senderTerminated _

theorem type_bound (type : UInt32) : |(type.toNat : ℤ)| ≤ 2 ^ 53 := by
  rw [Nat.abs_cast]
  have small := type.toNat_lt
  omega

/-- The number of a type is a `double`. -/
theorem round_type (type : UInt32) : Binary64.round (type.toNat : ℚ) = type.toNat := by
  have exact_ := Binary64.round_intCast (type_bound type)
  rwa [Int.cast_natCast] at exact_

/-- The numbers and strings of a well-formed message all reach the object. -/
theorem Wellformed.packObject_eq {message : Message} (wellformed : message.Wellformed) :
    message.packObject =
      [(ascii "msgId", .number message.msgId), (ascii "groupId", .number message.groupId),
        (ascii "senderName", .string message.senderName.text),
        (ascii "sendTime", .number message.sendTime), (ascii "type", .number message.type.toNat),
        (ascii "msg", .string message.msg.text)] := by
  have msgValid : isValidUtf8 message.msgString = true := by
    rw [message.msgString_eq]
    exact isValidUtf8_of_utf8 wellformed.msgUtf8
  have senderValid : isValidUtf8 message.senderNameString = true := by
    rw [wellformed.senderNameString_eq]
    exact isValidUtf8_of_utf8 wellformed.senderUtf8
  rw [packObject_of_valid msgValid senderValid, message.msgString_eq,
    wellformed.senderNameString_eq, Binary64.round_intCast wellformed.msgIdExact,
    Binary64.round_intCast wellformed.groupIdExact,
    Binary64.round_intCast wellformed.sendTimeExact, round_type]

/-- The object of a well-formed message is readable. -/
theorem Wellformed.readable {message : Message} (wellformed : message.Wellformed) :
    Readable (maxNesting + 1) (.object message.packObject) := by
  have ofInteger : forall {z : ℤ}, |z| ≤ 2 ^ 53 ->
      Readable maxNesting (.number (Binary64.round z)) := by
    intro z bound
    rw [Binary64.round_intCast bound]
    exact Readable.number bound
  have ofType := ofInteger (type_bound message.type)
  rw [Int.cast_natCast] at ofType
  exact Readable.object message.packObject_distinct message.packObject_names_noNul
    (packObject_forall (ofInteger wellformed.msgIdExact) (ofInteger wellformed.groupIdExact)
      (ofInteger wellformed.sendTimeExact) ofType Readable.string)

theorem convert_intCast {bits : Nat} {z : ℤ} (low : -2 ^ (bits - 1) ≤ z)
    (high : z < 2 ^ (bits - 1)) : convert bits (z : ℚ) = .ok z := by
  have inRange : InRange bits (z : ℚ) := by
    unfold InRange
    rw [Binary64.truncate_intCast]
    exact ⟨low, high⟩
  unfold convert
  rw [if_pos inRange, Binary64.truncate_intCast]

/-- Numbers of the exact range survive the conversion to 64 bits. -/
theorem convert_exact {z : ℤ} (exact_ : |z| ≤ 2 ^ 53) : convert 64 (z : ℚ) = .ok z := by
  rcases abs_le.mp exact_ with ⟨low, high⟩
  exact convert_intCast (by norm_num; omega) (by norm_num; omega)

/-- The number of a known type survives its two conversions. -/
theorem convert_type {message : Message} (wellformed : message.Wellformed) :
    convert 32 (message.type.toNat : ℚ) = .ok (message.type.toNat : ℤ) ∧
      UInt32.ofNat ((message.type.toNat : ℤ) % 2 ^ 32).toNat = message.type := by
  rcases wellformed.typeKnown with ⟨messageType, known⟩
  have small := messageType.code_lt
  rw [← known] at small
  constructor
  · have converted : convert 32 ((message.type.toNat : ℤ) : ℚ) = .ok (message.type.toNat : ℤ) :=
      convert_intCast (by omega) (by norm_num; omega)
    rw [Int.cast_natCast] at converted
    exact converted
  · have reduced : ((message.type.toNat : ℤ) % 2 ^ 32).toNat = message.type.toNat := by omega
    rw [reduced, UInt32.ofNat_toNat]

/-- Unpacking the packed text, with anything behind it that does not
continue a number, gives the message back. -/
theorem unpackMessage_serialized {message : Message} (wellformed : message.Wellformed)
    {rest : Bytes} (delimited : Delimited rest) :
    unpackMessage (message.packMessage ++ rest) = .ok message := by
  have parsed := jsonParseString_serialized wellformed.readable delimited
  have typeConverted := convert_type wellformed
  have msgId : jsonObjectGetNumber (some message.packObject) (ascii "msgId") = message.msgId := by
    rw [wellformed.packObject_eq]
    rfl
  have groupId : jsonObjectGetNumber (some message.packObject) (ascii "groupId") =
      message.groupId := by
    rw [wellformed.packObject_eq]
    rfl
  have sendTime : jsonObjectGetNumber (some message.packObject) (ascii "sendTime") =
      message.sendTime := by
    rw [wellformed.packObject_eq]
    rfl
  have type : jsonObjectGetNumber (some message.packObject) (ascii "type") =
      message.type.toNat := by
    rw [wellformed.packObject_eq]
    rfl
  have msg : jsonObjectGetString (some message.packObject) (ascii "msg") =
      some message.msg.text := by
    rw [wellformed.packObject_eq]
    rfl
  have senderName : jsonObjectGetString (some message.packObject) (ascii "senderName") =
      some message.senderName.text := by
    rw [wellformed.packObject_eq]
    rfl
  unfold unpackMessage packMessage
  rw [parsed]
  simp only [jsonValueGetObject, msgId, groupId, sendTime, type, msg, senderName,
    convert_exact wellformed.msgIdExact, convert_exact wellformed.groupIdExact,
    convert_exact wellformed.sendTimeExact, typeConverted.1, typeConverted.2, copyString,
    CharArray.strncpy_text, bind, Except.bind, pure, Except.pure]

/-- Packing and unpacking gives every well-formed message back. -/
theorem unpackMessage_packMessage {message : Message} (wellformed : message.Wellformed) :
    unpackMessage message.packMessage = .ok message := by
  have unpacked := unpackMessage_serialized wellformed delimited_nil
  rw [List.append_nil] at unpacked
  exact unpacked

/-- A chat message whose text needs all three kinds of escapes and a
character of three bytes. -/
def sample : Message where
  msgId := 7
  groupId := -3
  senderName := CharArray.strncpy maxChars (ascii "bob")
  msg := CharArray.strncpy maxMsgData (ascii "say \"/\\\n" ++ [0x01, 0xE2, 0x82, 0xAC])
  sendTime := 1500000000000
  type := MessageType.text.code

theorem sample_wellformed : sample.Wellformed where
  msgTerminated := by decide +kernel
  senderTerminated := by decide +kernel
  msgUtf8 := ⟨"say \"/\\\n\x01€".toList, by decide +kernel⟩
  senderUtf8 := ⟨"bob".toList, by decide +kernel⟩
  msgIdExact := by decide
  groupIdExact := by decide
  sendTimeExact := by decide
  typeKnown := ⟨.text, rfl⟩

theorem unpackMessage_packMessage_sample : unpackMessage sample.packMessage = .ok sample :=
  unpackMessage_packMessage sample_wellformed

/-! ## The steps of unpacking -/

theorem bind_eq_ok_iff {First Second : Type} (first : Except Fault First)
    (second : First -> Except Fault Second) (result : Second) :
    (first >>= second) = .ok result <->
      Exists fun value => first = .ok value ∧ second value = .ok result := by
  cases first with
  | error fault => simp [bind, Except.bind]
  | ok value => simp [bind, Except.bind]

/-- The fields of an unpacked message come from the getters of the object. -/
theorem unpackMessage_eq_ok_iff (json : Bytes) (message : Message) :
    unpackMessage json = .ok message <->
      convert 64 (jsonObjectGetNumber (jsonValueGetObject (jsonParseString json))
        (ascii "msgId")) = .ok message.msgId ∧
      convert 64 (jsonObjectGetNumber (jsonValueGetObject (jsonParseString json))
        (ascii "groupId")) = .ok message.groupId ∧
      convert 64 (jsonObjectGetNumber (jsonValueGetObject (jsonParseString json))
        (ascii "sendTime")) = .ok message.sendTime ∧
      (Exists fun type => convert 32 (jsonObjectGetNumber
          (jsonValueGetObject (jsonParseString json)) (ascii "type")) = .ok type ∧
        message.type = UInt32.ofNat (type % 2 ^ 32).toNat) ∧
      copyString maxMsgData (jsonObjectGetString (jsonValueGetObject (jsonParseString json))
        (ascii "msg")) = .ok message.msg ∧
      copyString maxChars (jsonObjectGetString (jsonValueGetObject (jsonParseString json))
        (ascii "senderName")) = .ok message.senderName := by
  unfold unpackMessage
  simp only [bind_eq_ok_iff, pure, Except.pure, Except.ok.injEq]
  constructor
  · rintro ⟨msgId, isMsgId, groupId, isGroupId, sendTime, isSendTime, type, isType, msg, isMsg,
      senderName, isSender, same⟩
    cases same
    exact ⟨isMsgId, isGroupId, isSendTime, ⟨type, isType, rfl⟩, isMsg, isSender⟩
  · rintro ⟨isMsgId, isGroupId, isSendTime, ⟨type, isType, same⟩, isMsg, isSender⟩
    refine ⟨_, isMsgId, _, isGroupId, _, isSendTime, type, isType, _, isMsg, _, isSender, ?_⟩
    rw [← same]

/-! ## Which texts are decoded without a fault -/

/-- The text is a JSON object with two strings whose numbers fit, where a
missing number counts as zero. -/
def Decodable (json : Bytes) : Prop :=
  Exists fun members => jsonParseString json = some (.object members) ∧
    (Exists fun text => jsonObjectGetValue members (ascii "msg") = some (.string text)) ∧
    (Exists fun text => jsonObjectGetValue members (ascii "senderName") = some (.string text)) ∧
    InRange 64 (jsonObjectGetNumber (some members) (ascii "msgId")) ∧
    InRange 64 (jsonObjectGetNumber (some members) (ascii "groupId")) ∧
    InRange 64 (jsonObjectGetNumber (some members) (ascii "sendTime")) ∧
    InRange 32 (jsonObjectGetNumber (some members) (ascii "type"))

theorem convert_returns_iff (bits : Nat) (number : ℚ) :
    (Exists fun z => convert bits number = .ok z) <-> InRange bits number := by
  unfold convert
  by_cases inRange : InRange bits number
  · simp [inRange]
  · simp [inRange]

theorem copyString_returns_iff (size : Nat) (source : Option Bytes) :
    (Exists fun array => copyString size source = .ok array) <-> source.isSome = true := by
  cases source with
  | none => simp [copyString]
  | some text => simp [copyString]

/-- The result of a getter is a string exactly when the object has a string
member of that name. -/
theorem jsonObjectGetString_isSome_iff (object : Option Members) (name : Bytes) :
    (jsonObjectGetString object name).isSome = true <->
      Exists fun members => object = some members ∧
        Exists fun text => jsonObjectGetValue members name = some (.string text) := by
  cases object with
  | none => simp [jsonObjectGetString, jsonValueGetString]
  | some members =>
      cases found : jsonObjectGetValue members name with
      | none => simp [jsonObjectGetString, jsonValueGetString, found]
      | some value => cases value <;> simp [jsonObjectGetString, jsonValueGetString, found]

/-- A string member is read by its getter. -/
theorem jsonObjectGetString_of_value {members : Members} {name text : Bytes}
    (found : jsonObjectGetValue members name = some (.string text)) :
    jsonObjectGetString (some members) name = some text := by
  unfold jsonObjectGetString
  rw [Option.bind_some, found]
  rfl

theorem jsonValueGetObject_eq_some_iff (value : Option JsonValue) (members : Members) :
    jsonValueGetObject value = some members <-> value = some (.object members) := by
  cases value with
  | none => simp [jsonValueGetObject]
  | some inner => cases inner <;> simp [jsonValueGetObject]

/-- A sequence of two steps returns exactly when both do. -/
theorem bind_returns_iff {First Second : Type} (first : Except Fault First)
    (second : First -> Except Fault Second) :
    (Exists fun result => (first >>= second) = .ok result) <->
      Exists fun value => first = .ok value ∧ Exists fun result => second value = .ok result := by
  cases first with
  | error fault => simp [bind, Except.bind]
  | ok value => simp [bind, Except.bind]

/-- The six steps of unpacking return exactly when each of them does. -/
theorem unpackMessage_steps (json : Bytes) :
    (Exists fun message => unpackMessage json = .ok message) <->
      InRange 64 (jsonObjectGetNumber (jsonValueGetObject (jsonParseString json))
        (ascii "msgId")) ∧
      InRange 64 (jsonObjectGetNumber (jsonValueGetObject (jsonParseString json))
        (ascii "groupId")) ∧
      InRange 64 (jsonObjectGetNumber (jsonValueGetObject (jsonParseString json))
        (ascii "sendTime")) ∧
      InRange 32 (jsonObjectGetNumber (jsonValueGetObject (jsonParseString json))
        (ascii "type")) ∧
      (jsonObjectGetString (jsonValueGetObject (jsonParseString json))
        (ascii "msg")).isSome = true ∧
      (jsonObjectGetString (jsonValueGetObject (jsonParseString json))
        (ascii "senderName")).isSome = true := by
  unfold unpackMessage
  simp only [bind_returns_iff, pure, Except.pure, Except.ok.injEq, exists_eq', and_true,
    exists_and_right, convert_returns_iff, copyString_returns_iff]

theorem decodable_iff (json : Bytes) :
    Decodable json <-> Exists fun message => unpackMessage json = .ok message := by
  rw [unpackMessage_steps]
  constructor
  · rintro ⟨members, parsed, hasMsg, hasSender, msgId, groupId, sendTime, type⟩
    have isObject := (jsonValueGetObject_eq_some_iff _ _).mpr parsed
    rw [isObject]
    exact ⟨msgId, groupId, sendTime, type,
      (jsonObjectGetString_isSome_iff _ _).mpr ⟨members, rfl, hasMsg⟩,
      (jsonObjectGetString_isSome_iff _ _).mpr ⟨members, rfl, hasSender⟩⟩
  · rintro ⟨msgId, groupId, sendTime, type, msg, senderName⟩
    rcases (jsonObjectGetString_isSome_iff _ _).mp msg with ⟨members, isObject, hasMsg⟩
    rw [isObject] at msgId groupId sendTime type senderName
    rcases (jsonObjectGetString_isSome_iff _ _).mp senderName with ⟨_, same, hasSender⟩
    cases same
    exact ⟨members, (jsonValueGetObject_eq_some_iff _ _).mp isObject, hasMsg, hasSender,
      msgId, groupId, sendTime, type⟩

/-- Unpacking returns a message exactly for the decodable texts. -/
theorem unpackMessage_returns_iff (json : Bytes) :
    (Exists fun message => unpackMessage json = .ok message) <-> Decodable json :=
  (decodable_iff json).symm

/-- An empty object has no text to copy, and a group number of twenty digits
does not fit into 64 bits. -/
theorem unpackMessage_faults :
    (0 ∉ ascii "\x7b\x7d" ∧ unpackMessage (ascii "\x7b\x7d") = .error .nullPointer) ∧
      (0 ∉ ascii "\x7b\"groupId\": 10000000000000000000\x7d" ∧
        unpackMessage (ascii "\x7b\"groupId\": 10000000000000000000\x7d") =
          .error .conversion) := by
  refine ⟨⟨by decide, rfl⟩, by decide, ?_⟩
  decide +kernel

end Message
end ChatHub
