import ChatHub.Lib.WireNumbers

namespace ChatHub

/-!
# Messages that are passed on

The server decodes what one client sent and encodes it again for the others.
What was decoded once has passed through the conversions of a `double`
already, so packing and unpacking it again changes nothing any more.  It can
only fail, for a string that is cut inside a character, for bytes that are not
UTF-8 and for a type above the range of an `int`.
-/

namespace Relay

open Parson

/-! ## Numbers that were decoded -/

/-- A finite double that is truncated gives an integer with few significant bits. -/
theorem representable_truncate {q : ℚ} (exact_ : Binary64.round q = q) :
    Binary64.Representable (Binary64.truncate q) := by
  by_cases small : |q| < 2 ^ 53
  · apply Binary64.representable_of_small
    have bounds := abs_lt.mp small
    unfold Binary64.truncate
    split
    · have low := Int.floor_nonneg.mpr (by assumption : 0 ≤ q)
      have high : ⌊q⌋ < 2 ^ 53 := Int.floor_lt.mpr (by exact_mod_cast bounds.2)
      rw [abs_of_nonneg low]
      omega
    · next negative =>
        have low : -(2 ^ 53) < ⌈q⌉ := Int.lt_ceil.mpr (by exact_mod_cast bounds.1)
        have high : ⌈q⌉ ≤ 0 := Int.ceil_le.mpr (by exact_mod_cast le_of_lt (not_le.mp negative))
        rw [abs_of_nonpos high]
        omega
  · have large : (2 : ℚ) ^ 53 ≤ |q| := not_lt.mp small
    have logLow : (53 : ℤ) ≤ Int.log 2 |q| := by
      apply (Int.zpow_le_iff_le_log (by decide) (lt_of_lt_of_le (by norm_num) large)).mp
      exact_mod_cast large
    rcases Binary64.multiple_of_exact exact_ with ⟨n, multiple⟩
    have place : ((Binary64.precisePlace q).toNat : ℤ) = max (Binary64.precisePlace q) (-1074) := by
      unfold Binary64.precisePlace
      omega
    have whole : q = ((n * 2 ^ (Binary64.precisePlace q).toNat : ℤ) : ℚ) := by
      push_cast
      rw [← zpow_natCast, place]
      exact multiple
    rw [whole] at exact_ ⊢
    rw [Binary64.truncate_intCast]
    exact (Binary64.round_eq_self_iff _).mp exact_

/-- A getter reads a finite double from whatever was parsed. -/
theorem finite_getNumber (text name : Bytes) :
    Binary64.FiniteDouble
      (jsonObjectGetNumber (jsonValueGetObject (jsonParseString text)) name) := by
  have zero : Binary64.FiniteDouble 0 := ⟨rfl, by norm_num⟩
  cases parsed : jsonParseString text with
  | none => exact zero
  | some value =>
      cases jsonParseString_accepted parsed with
      | @object _ members distinct names accepted =>
          unfold jsonObjectGetNumber jsonObjectGetValue jsonValueGetObject
          rw [Option.bind_some]
          cases found : members.find? (fun member => member.1 == name) with
          | none => exact zero
          | some member =>
              have acceptedMember := accepted member (List.mem_of_find?_eq_some found)
              rw [Option.map_some]
              unfold jsonValueGetNumber
              split
              · next number same =>
                  rw [Option.some.inj same] at acceptedMember
                  cases acceptedMember
                  assumption
              · exact zero
      | _ => exact zero

theorem convert_eq_truncate {bits : Nat} {q : ℚ} {z : ℤ} (converted : Message.convert bits q = .ok z) :
    z = Binary64.truncate q ∧ -2 ^ (bits - 1) ≤ z ∧ z < 2 ^ (bits - 1) := by
  unfold Message.convert at converted
  split at converted
  · next inRange =>
      cases converted
      exact ⟨rfl, inRange⟩
  · cases converted

/-- The numbers of a decoded message have 64 bits, few of them significant. -/
theorem decoded_numbers {json : Bytes} {message : Message}
    (decoded : Message.unpackMessage json = .ok message) :
    WireNumbers.SixtyFourBit message ∧ Binary64.Representable message.msgId ∧
      Binary64.Representable message.groupId ∧ Binary64.Representable message.sendTime := by
  rcases (Message.unpackMessage_eq_ok_iff json message).mp decoded with
    ⟨isMsgId, isGroupId, isSendTime, _⟩
  have msgId := convert_eq_truncate isMsgId
  have groupId := convert_eq_truncate isGroupId
  have sendTime := convert_eq_truncate isSendTime
  refine ⟨⟨msgId.2, groupId.2, sendTime.2⟩, ?_, ?_, ?_⟩
  · rw [msgId.1]
    exact representable_truncate (finite_getNumber json _).rounded
  · rw [groupId.1]
    exact representable_truncate (finite_getNumber json _).rounded
  · rw [sendTime.1]
    exact representable_truncate (finite_getNumber json _).rounded

/-! ## Encoding a decoded message -/

/-- A decoded message comes back from being encoded if and only if both strings
are UTF-8 and its type is in the range of an `int`.  Both strings may fill
their arrays. -/
theorem decoded_again_iff {json : Bytes} {message : Message}
    (decoded : Message.unpackMessage json = .ok message) :
    Message.unpackMessage message.packMessage = .ok message <->
      isValidUtf8 message.msg.text = true ∧ isValidUtf8 message.senderNameString = true ∧
      message.type.toNat < 2 ^ 31 := by
  rcases decoded_numbers decoded with ⟨wide, msgId, groupId, sendTime⟩
  rw [← message.msgString_eq]
  constructor
  · exact WireNumbers.valid_of_unpacked wide
  · rintro ⟨msgValid, senderValid, small⟩
    have lossless : WireNumbers.Lossless message :=
      ⟨wide, msgValid, senderValid, small, msgId, groupId, sendTime⟩
    exact lossless.unpacked

/-- A name that fills its array and numbers that a `double` has rounded. -/
def roundedText : Bytes :=
  ascii "\x7b\"msgId\": 9007199254740993, \"groupId\": -2.75, \"senderName\":" ++
    ascii "\"abcdefghijklmnopqrstuv\", \"type\": 2, \"msg\": \"caf\\u00e9\"\x7d"

theorem decoded_again_roundedText : Exists fun message =>
    Message.unpackMessage roundedText = .ok message ∧ message.msgId = 2 ^ 53 ∧
      message.groupId = -2 ∧ Not (message.senderName.Terminated) ∧
      Message.unpackMessage message.packMessage = .ok message := by
  have reached : (Message.unpackMessage roundedText).toOption.map (fun message =>
      decide (message.msgId = 2 ^ 53 ∧ message.groupId = -2 ∧
        Not (message.senderName.Terminated) ∧
        isValidUtf8 message.msg.text = true ∧ isValidUtf8 message.senderNameString = true ∧
        message.type.toNat < 2 ^ 31)) = some true := by
    decide +kernel
  cases decoded : Message.unpackMessage roundedText with
  | error fault =>
      rw [decoded] at reached
      cases reached
  | ok message =>
      rw [decoded] at reached
      have facts := of_decide_eq_true (Option.some.inj reached)
      exact ⟨message, rfl, facts.1, facts.2.1, facts.2.2.1,
        (decoded_again_iff decoded).mpr facts.2.2.2⟩

end Relay
end ChatHub
