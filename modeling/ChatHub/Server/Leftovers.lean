import ChatHub.Lib.Parson.Continuation
import ChatHub.Server.Framing

namespace ChatHub

/-!
# What the array held before

The array of `readcb` is neither initialized nor terminated.  If the received
bytes hold no NUL, the text of `unpack_message` goes on with what an earlier
invocation has left in the array, and behind its end with whatever lies there.
This matters exactly if the received bytes are the unfinished beginning of a
message.
-/

namespace Leftovers

open Framing

/-- What is decoded if this was in the array and lies behind it. -/
def decodeAt (buf behind input : Bytes) : Except Fault Message :=
  decode (buf ++ behind) input

/-- The message, if there is one, does not depend on what the array held and
what lies behind it. -/
def ReceivedAlone (input : Bytes) : Prop :=
  forall buf other, buf.length = maxBuff -> other.length = maxBuff -> forall behind beyond,
    (decodeAt buf behind input).toOption = (decodeAt other beyond input).toOption

/-- The received bytes that are in the array behind the loop. -/
def left (input : Bytes) : Bytes :=
  drain [] input

/-- A text without a NUL that does not decode and is the beginning of a text
that does. -/
structure Unfinished (text : Bytes) : Prop where
  unterminated : 0 ∉ text
  undecodable : Not (Message.Decodable text)
  continued : Exists fun more => 0 ∉ more ∧ Message.Decodable (text ++ more)

/-! ## The array behind the loop -/

/-- A chunk takes the place of the beginning of the array. -/
theorem chunk_length {buf : Bytes} (array : buf.length = maxBuff) (input : Bytes) :
    (input.take maxBuff ++ buf.drop (input.take maxBuff).length).length = maxBuff := by
  rw [List.length_append, List.length_drop, List.length_take, array]
  omega

theorem drain_length {buf : Bytes} (array : buf.length = maxBuff) (input : Bytes) :
    (drain buf input).length = maxBuff := by
  have rounds : forall {rounds : Nat} {buf input : Bytes}, buf.length = maxBuff ->
      (drainRounds rounds buf input).length = maxBuff := by
    intro rounds
    induction rounds with
    | zero => exact fun array => array
    | succ rounds inductionHypothesis =>
        intro buf input array
        rw [drainRounds]
        split
        · exact array
        · exact inductionHypothesis (chunk_length array input)
  exact rounds array

/-- The loop writes to the array only. -/
theorem drain_append {buf : Bytes} (array : buf.length = maxBuff) (behind input : Bytes) :
    drain (buf ++ behind) input = drain buf input ++ behind := by
  have rounds : forall {rounds : Nat} {buf input : Bytes}, buf.length = maxBuff ->
      drainRounds rounds (buf ++ behind) input = drainRounds rounds buf input ++ behind := by
    intro rounds
    induction rounds with
    | zero => exact fun _ => rfl
    | succ rounds inductionHypothesis =>
        intro buf input array
        rw [drainRounds, drainRounds]
        by_cases empty : input = []
        · rw [if_pos empty, if_pos empty]
        · have inside : (input.take maxBuff).length ≤ buf.length := by
            rw [array, List.length_take]
            exact Nat.min_le_left _ _
          rw [if_neg empty, if_neg empty, List.drop_append_of_le_length inside, ← List.append_assoc]
          exact inductionHypothesis (chunk_length array input)
  exact rounds array

/-- The received bytes come first, and the array keeps the rest. -/
theorem drain_left {buf : Bytes} (array : buf.length = maxBuff) (input : Bytes) :
    drain buf input = left input ++ buf.drop (left input).length := by
  unfold left
  by_cases fits : input.length ≤ maxBuff
  · rw [drain_of_fits fits, drain_of_fits fits, List.drop_nil, List.append_nil]
  · have nonempty : input ≠ [] := by
      intro empty
      rw [empty] at fits
      exact fits (Nat.zero_le _)
    have chunk : (input.take maxBuff).length = maxBuff := by
      rw [List.length_take]
      omega
    -- the first chunk fills the array
    have filled : drain buf input = drain (input.take maxBuff) (input.drop maxBuff) := by
      rw [drain_loop, if_neg nonempty, chunk, List.drop_eq_nil_of_le (Nat.le_of_eq array),
        List.append_nil]
    have alone : drain [] input = drain (input.take maxBuff) (input.drop maxBuff) := by
      rw [drain_loop, if_neg nonempty, List.drop_nil, List.append_nil]
    rw [filled, alone, drain_length chunk, List.drop_eq_nil_of_le (Nat.le_of_eq array),
      List.append_nil]

theorem left_length_le (input : Bytes) : (left input).length ≤ maxBuff := by
  have array : (List.replicate maxBuff (0 : UInt8)).length = maxBuff := List.length_replicate
  have length := congrArg List.length (drain_left array input)
  rw [drain_length array, List.length_append] at length
  omega

theorem decodeAt_left {buf : Bytes} (array : buf.length = maxBuff) (behind input : Bytes) :
    decodeAt buf behind input = Message.unpackMessage
      (cstr (left input ++ (buf.drop (left input).length ++ behind))) := by
  unfold decodeAt decode
  rw [drain_append array, drain_left array, List.append_assoc]

/-! ## What is decoded -/

/-- A text that does not decode gives no message. -/
theorem toOption_of_undecodable {text : Bytes} (undecodable : Not (Message.Decodable text)) :
    (Message.unpackMessage text).toOption = none := by
  cases decoded : Message.unpackMessage text with
  | error fault => rfl
  | ok message =>
      exact absurd ((Message.decodable_iff text).mpr ⟨message, decoded⟩) undecodable

/-- A complete text is decoded in the same way whatever stands behind it. -/
theorem unpackMessage_append {text : Bytes} (decodable : Message.Decodable text) (more : Bytes) :
    Message.unpackMessage (text ++ more) = Message.unpackMessage text := by
  rcases decodable with ⟨members, parsed, _⟩
  unfold Message.unpackMessage
  rw [Parson.jsonParseString_append parsed more, parsed]

/-- If the received bytes are not unfinished, whatever follows them plays no
role. -/
theorem received_of_finished {text : Bytes} (finished : Not (Unfinished text)) (back : Bytes) :
    (Message.unpackMessage (cstr (text ++ back))).toOption =
      (Message.unpackMessage (cstr text)).toOption := by
  by_cases terminated : 0 ∈ text
  · rw [cstr_append_of_mem terminated]
  rw [cstr_append_of_not_mem terminated, cstr_of_not_mem terminated]
  by_cases decodable : Message.Decodable text
  · rw [unpackMessage_append decodable]
  · rw [toOption_of_undecodable decodable]
    apply toOption_of_undecodable
    intro continued
    exact finished ⟨terminated, decodable, cstr back, not_mem_cstr back, continued⟩

/-- Every continuation of the received bytes may be there. -/
theorem decodeAt_continued {input more : Bytes} (unterminated : 0 ∉ left input) (noNul : 0 ∉ more) :
    Exists fun buf => Exists fun behind => buf.length = maxBuff ∧
      decodeAt buf behind input = Message.unpackMessage (left input ++ more) := by
  have room := left_length_le input
  let memory : Bytes := more ++ List.replicate maxBuff 0
  let buf : Bytes := List.replicate (left input).length 0 ++ memory.take (maxBuff - (left input).length)
  have array : buf.length = maxBuff := by
    simp only [buf, memory, List.length_append, List.length_replicate, List.length_take]
    omega
  have rest : buf.drop (left input).length = memory.take (maxBuff - (left input).length) :=
    List.drop_left' List.length_replicate
  refine ⟨buf, memory.drop (maxBuff - (left input).length), array, ?_⟩
  have zeros : memory = more ++ 0 :: List.replicate (maxBuff - 1) 0 := rfl
  rw [decodeAt_left array, rest, List.take_append_drop, cstr_append_of_not_mem unterminated, zeros,
    cstr_append_nul noNul]

/-- For all bytes that arrive, the message comes from them alone exactly if
those that are left in the array are not unfinished. -/
theorem receivedAlone_iff_finished (input : Bytes) :
    ReceivedAlone input <-> Not (Unfinished (left input)) := by
  constructor
  · rintro alone ⟨unterminated, undecodable, more, noNul, continued⟩
    rcases decodeAt_continued unterminated noNul with ⟨buf, behind, array, decoded⟩
    rcases decodeAt_continued unterminated List.not_mem_nil with
      ⟨other, beyond, otherArray, otherDecoded⟩
    rcases (Message.decodable_iff _).mp continued with ⟨message, returned⟩
    have same := alone buf other array otherArray behind beyond
    rw [decoded, otherDecoded, List.append_nil, toOption_of_undecodable undecodable, returned] at same
    cases same
  · intro finished buf other array otherArray behind beyond
    rw [decodeAt_left array, decodeAt_left otherArray, received_of_finished finished,
      received_of_finished finished]

/-- A message that lacks its closing brace. -/
def unfinished : Bytes :=
  ascii "\x7b\"senderName\": \"bob\", \"msg\": \"hi\""

/-- If the array was full of closing braces before, the message is complete,
and if it was full of zeros it is not. -/
theorem unfinished_not_receivedAlone : Not (forall input, ReceivedAlone input) := by
  have reached : ((decodeAt (List.replicate maxBuff 0x7D) [] unfinished).toOption.isSome,
      (decodeAt (List.replicate maxBuff 0) [] unfinished).toOption.isSome) = (true, false) := by
    decide +kernel
  intro always
  have same := always unfinished (List.replicate maxBuff 0x7D) (List.replicate maxBuff 0)
    List.length_replicate List.length_replicate [] []
  rw [same] at reached
  rcases Prod.mk.inj reached with ⟨isSome, isNone⟩
  rw [isSome] at isNone
  cases isNone

end Leftovers
end ChatHub
