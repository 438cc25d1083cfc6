import ChatHub.Base.Carries
import ChatHub.Base.Run
import ChatHub.Lib.WireNumbers

namespace ChatHub

/-!
# From the byte stream to messages

`readcb` empties the input buffer of a connection into one array of
`MAX_BUFF` bytes, chunk after chunk over the same array, and then decodes
the array once.  The array is neither initialized nor terminated, so what it
held before and the memory behind it are a parameter here.  The client writes
every message as its JSON text with the terminating NUL, and TCP may cut and
join these blocks anywhere.

The receiving side is a run in which the client sends messages and `readcb`
is invoked on some of the bytes that are on their way.  The messages come
through in order as long as every invocation sees exactly one block, which fits
into the array, of a message that can be read back from its text.
-/

namespace Framing

/-- The loop of `readcb` that removes everything from the input buffer, cut
off after `rounds` rounds. -/
def drainRounds : Nat -> Bytes -> Bytes -> Bytes
  | 0, buf, _ => buf
  | rounds + 1, buf, input =>
      if input = [] then buf
      else
        drainRounds rounds (input.take maxBuff ++ buf.drop (input.take maxBuff).length)
          (input.drop maxBuff)

/-- The loop.  Every round removes a byte at least. -/
def drain (buf input : Bytes) : Bytes :=
  drainRounds input.length buf input

/-- The message that `readcb` decodes.  Without a NUL in the array the text
goes on with the memory behind it, which `buf` includes. -/
@[irreducible] def decode (buf input : Bytes) : Except Fault Message :=
  Message.unpackMessage (cstr (drain buf input))

/-- `readcb` up to the call of `handleAllMessage`: the message it passes on,
if it does not drop an empty one. -/
def received (buf input : Bytes) : Except Fault (Option Message) :=
  match decode buf input with
  | .error fault => .error fault
  | .ok message => .ok (if message.msgString = [] then none else some message)

/-- The block that the client passes to `bufferevent_write`. -/
def block (message : Message) : Bytes :=
  message.packMessage ++ [0]

/-- The client's messages and what became of them. -/
structure Stream where
  /-- the messages sent so far -/
  sent : List Message
  /-- the bytes that `readcb` has not seen yet -/
  inFlight : Bytes
  /-- the messages passed to `handleAllMessage` so far -/
  handled : List Message
  /-- the fault at which the server stopped -/
  stopped : Option Fault

/-- Nothing has been sent. -/
def start : Stream where
  sent := []
  inFlight := []
  handled := []
  stopped := none

/-- A message is sent, or `readcb` runs on some bytes, with an array and
memory behind it of some content. -/
inductive Event where
  | send (message : Message)
  | deliver (count : Nat) (buf : Bytes)

/-- `readcb` on the next `count` bytes. -/
def deliver (stream : Stream) (count : Nat) (buf : Bytes) : Stream :=
  match received buf (stream.inFlight.take count) with
  | .error fault =>
      { stream with inFlight := stream.inFlight.drop count, stopped := some fault }
  | .ok none => { stream with inFlight := stream.inFlight.drop count }
  | .ok (some message) =>
      { stream with
        inFlight := stream.inFlight.drop count, handled := stream.handled ++ [message] }

/-- A step while the server runs.  Empty messages are not sent, and `readcb`
is invoked on at least one byte. -/
def step (stream : Stream) : Event -> Option Stream
  | .send message =>
      if stream.stopped = none ∧ message.msgString ≠ [] then
        some { stream with
          sent := stream.sent ++ [message], inFlight := stream.inFlight ++ block message }
      else none
  | .deliver count buf =>
      if stream.stopped = none ∧ 0 < count ∧ count ≤ stream.inFlight.length ∧
          maxBuff ≤ buf.length then
        some (deliver stream count buf)
      else none

/-- Every message is handled once, in order, as it was sent: what was handled
is the beginning of what was sent, and all of it when no byte is left. -/
def Faithful (stream : Stream) : Prop :=
  stream.stopped = none ∧ stream.handled <+: stream.sent ∧
    (stream.inFlight = [] -> stream.handled = stream.sent)

/-- An invocation of `readcb` sees one block: the bytes up to and including the
first NUL, which fit into the array.  The message that comes next can be read
back from its text. -/
def OneBlock (stream : Stream) : Event -> Prop
  | .send _ => True
  | .deliver count _ => count = (cstr stream.inFlight).length + 1 ∧ count ≤ maxBuff ∧
      forall message, stream.sent[stream.handled.length]? = some message ->
        WireNumbers.Lossless message

/-! ## One block -/

theorem drop_maxBuff_length {input : Bytes} {rounds : Nat} (nonempty : input ≠ [])
    (enough : input.length ≤ rounds + 1) : (input.drop maxBuff).length ≤ rounds := by
  have positive := List.length_pos_iff.mpr nonempty
  have room : 0 < maxBuff := by decide
  rw [List.length_drop]
  omega

/-- More rounds than bytes make no difference. -/
theorem drainRounds_enough {rounds : Nat} {input : Bytes} (enough : input.length ≤ rounds)
    (buf : Bytes) : drainRounds rounds buf input = drain buf input := by
  have stable : forall {rounds : Nat} {input : Bytes}, input.length ≤ rounds -> forall buf,
      drainRounds (rounds + 1) buf input = drainRounds rounds buf input := by
    intro rounds
    induction rounds with
    | zero =>
        intro input enough buf
        rw [List.length_eq_zero_iff.mp (Nat.le_zero.mp enough)]
        rfl
    | succ rounds inductionHypothesis =>
        intro input enough buf
        rw [drainRounds]
        conv => right; rw [drainRounds]
        by_cases empty : input = []
        · rw [if_pos empty, if_pos empty]
        · rw [if_neg empty, if_neg empty,
            inductionHypothesis (drop_maxBuff_length empty enough)]
  induction rounds, enough using Nat.le_induction with
  | base => rfl
  | succ rounds enough inductionHypothesis => rw [stable enough, inductionHypothesis]

/-- One round of the loop. -/
theorem drain_loop (buf input : Bytes) :
    drain buf input = if input = [] then buf
      else drain (input.take maxBuff ++ buf.drop (input.take maxBuff).length)
        (input.drop maxBuff) := by
  cases input with
  | nil => rfl
  | cons byte rest =>
      have nonempty : byte :: rest ≠ [] := List.cons_ne_nil byte rest
      rw [if_neg nonempty, ← drainRounds_enough (drop_maxBuff_length nonempty (Nat.le_refl _))]
      unfold drain
      rw [List.length_cons, drainRounds, if_neg nonempty]

/-- Input that fits is copied to the beginning of the array. -/
theorem drain_of_fits {input : Bytes} (fits : input.length ≤ maxBuff) (buf : Bytes) :
    drain buf input = input ++ buf.drop input.length := by
  rw [drain_loop]
  by_cases empty : input = []
  · rw [if_pos empty, empty]
    rfl
  · rw [if_neg empty, List.take_of_length_le fits, List.drop_eq_nil_of_le fits, drain_loop, if_pos rfl]

/-- Only the first block of the input is decoded, whatever the array held
and whatever follows. -/
theorem decode_block (message : Message) {rest : Bytes}
    (fits : (block message ++ rest).length ≤ maxBuff) (buf : Bytes) :
    decode buf (block message ++ rest) = Message.unpackMessage message.packMessage := by
  have drained : drain buf (block message ++ rest) =
      message.packMessage ++ 0 :: (rest ++ buf.drop (block message ++ rest).length) := by
    rw [drain_of_fits fits]
    unfold block
    simp only [List.append_assoc]
    rfl
  unfold decode
  rw [drained]
  exact message.unpackMessage_block _

theorem received_block {message : Message}
    (unpacked : Message.unpackMessage message.packMessage = .ok message)
    (nonempty : message.msgString ≠ []) {rest : Bytes}
    (fits : (block message ++ rest).length ≤ maxBuff) (buf : Bytes) :
    received buf (block message ++ rest) = .ok (some message) := by
  unfold received
  rw [decode_block message fits, unpacked]
  simp only [if_neg nonempty]

theorem block_length (message : Message) : (block message).length = message.packMessage.length + 1 := by
  unfold block
  rw [List.length_append, List.length_singleton]

theorem block_ne_nil (message : Message) : block message ≠ [] :=
  List.append_ne_nil_of_right_ne_nil _ (List.cons_ne_nil 0 [])

/-- The first block ends with the first NUL. -/
theorem front_length {inFlight : Bytes} {message : Message} {waiting : List Message}
    (carries : Carries block inFlight (message :: waiting)) :
    (cstr inFlight).length + 1 = (block message).length := by
  have shape : inFlight = message.packMessage ++ 0 :: waiting.flatMap block := by
    rw [show inFlight = (message :: waiting).flatMap block from carries, List.flatMap_cons]
    unfold block
    rw [List.append_assoc]
    rfl
  rw [block_length, shape, cstr_append_nul message.noNul_packMessage]

/-! ## Runs -/

/-- The bytes on their way are the blocks of the messages not handled yet. -/
structure InStep (stream : Stream) : Prop where
  running : stream.stopped = none
  nonempty : forall message, message ∈ stream.sent -> message.msgString ≠ []
  pending : Exists fun waiting => stream.sent = stream.handled ++ waiting ∧
    Carries block stream.inFlight waiting

theorem inStep_start : InStep start where
  running := rfl
  nonempty := fun _ member => absurd member List.not_mem_nil
  pending := ⟨[], rfl, Carries.nil⟩

theorem InStep.faithful {stream : Stream} (inStep : InStep stream) : Faithful stream := by
  rcases inStep.pending with ⟨waiting, sent, carries⟩
  refine ⟨inStep.running, ⟨waiting, sent.symm⟩, fun empty => ?_⟩
  rw [empty] at carries
  rw [sent, carries.eq_nil block_ne_nil, List.append_nil]

theorem InStep.send {stream next : Stream} {message : Message} (inStep : InStep stream)
    (taken : step stream (.send message) = some next) : InStep next := by
  simp only [step, Option.ite_none_right_eq_some, Option.some.injEq] at taken
  rcases taken with ⟨⟨_, nonempty⟩, same⟩
  rcases inStep.pending with ⟨waiting, sent, carries⟩
  subst same
  refine ⟨inStep.running, ?_, waiting ++ [message], ?_, carries.write message⟩
  · intro other member
    rcases List.mem_append.mp member with old | new
    · exact inStep.nonempty other old
    · rw [List.mem_singleton.mp new]
      exact nonempty
  · change stream.sent ++ [message] = stream.handled ++ (waiting ++ [message])
    rw [sent, List.append_assoc]

/-- An invocation that sees one block handles the first waiting message. -/
theorem InStep.deliver {stream next : Stream} {count : Nat} {buf : Bytes}
    (inStep : InStep stream) (oneBlock : OneBlock stream (.deliver count buf))
    (taken : step stream (.deliver count buf) = some next) : InStep next := by
  simp only [step, Option.ite_none_right_eq_some, Option.some.injEq] at taken
  rcases taken with ⟨⟨_, positive, available, _⟩, same⟩
  rcases oneBlock with ⟨toNul, fits, lossless⟩
  rcases inStep.pending with ⟨waiting, sent, carries⟩
  cases waiting with
  | nil =>
      rw [show stream.inFlight = [] from carries] at available
      exact absurd (Nat.lt_of_lt_of_le positive available) (Nat.not_lt_zero _)
  | cons message rest =>
      have member : message ∈ stream.sent := by
        rw [sent]
        exact List.mem_append_right _ List.mem_cons_self
      have length : count = (block message).length := toNul.trans (front_length carries)
      rcases carries.first with ⟨front, others⟩
      rw [← length] at front others
      have blockFits : (block message ++ []).length ≤ maxBuff := by
        rw [List.append_nil, ← length]
        exact fits
      have comesNext : stream.sent[stream.handled.length]? = some message := by
        rw [sent, List.getElem?_append_right (Nat.le_refl _), Nat.sub_self]
        rfl
      have outcome := received_block (lossless message comesNext).unpacked
        (inStep.nonempty message member) blockFits buf
      rw [List.append_nil] at outcome
      unfold Framing.deliver at same
      rw [front, outcome] at same
      subst same
      refine ⟨inStep.running, inStep.nonempty, rest, ?_, others⟩
      change stream.sent = stream.handled ++ [message] ++ rest
      rw [sent, List.append_assoc]
      rfl

/-- In every run whose invocations of `readcb` each see one block of a message
that can be read back, every state is faithful: no message is lost, handled
twice or replaced by a fragment, and the server never stops. -/
theorem faithful_of_one_block {events : List Event} (guarded : Run.Guarded step OneBlock start events) :
    Run.Always step Faithful start events := by
  have inStep : Run.Always step InStep start events := by
    refine Run.invariant_guarded inStep_start ?_ guarded
    intro stream event next inStep oneBlock taken
    cases event with
    | send message => exact inStep.send taken
    | deliver count buf => exact inStep.deliver oneBlock taken
  exact Run.Always.mono (fun _ inStep => inStep.faithful) inStep

/-- The invocation that sees the first waiting block. -/
theorem oneBlock_deliver {stream : Stream} {message : Message} {waiting : List Message}
    (carries : Carries block stream.inFlight (message :: waiting))
    (fits : (block message).length ≤ maxBuff)
    (lossless : forall message, message ∈ stream.sent -> WireNumbers.Lossless message) (buf : Bytes) :
    OneBlock stream (.deliver (block message).length buf) :=
  ⟨(front_length carries).symm, fits, fun _ isNext => lossless _ (List.mem_of_getElem? isNext)⟩

/-- An invocation takes its bytes, and what was sent is the same. -/
theorem deliver_frame (stream : Stream) (count : Nat) (buf : Bytes) :
    (deliver stream count buf).inFlight = stream.inFlight.drop count ∧
      (deliver stream count buf).sent = stream.sent := by
  unfold deliver
  split <;> exact ⟨rfl, rfl⟩

/-- A message of no known type to a group whose number takes 54 bits. -/
def oddSample : Message :=
  { Message.sample with groupId := 2 ^ 53 + 2, type := 15 }

theorem oddSample_lossless : WireNumbers.Lossless oddSample where
  wide := ⟨by decide, by decide, by decide⟩
  msgValid := by decide +kernel
  senderValid := by decide +kernel
  typeSmall := by decide
  msgId := Binary64.representable_of_small (by decide)
  groupId := ⟨2 ^ 52 + 1, 1, by decide, by decide⟩
  sendTime := Binary64.representable_of_small (by decide)

/-- Two blocks are sent together and delivered one by one, to an array that was
zero and to one that was full of braces. -/
def eachBlock : List Event :=
  [.send oddSample, .send Message.sample,
    .deliver (block oddSample).length (List.replicate maxBuff 0),
    .deliver (block Message.sample).length (List.replicate (2 * maxBuff) 0x7D)]

theorem eachBlock_guarded : Run.Guarded step OneBlock start eachBlock := by
  have bothFit : (block oddSample).length ≤ maxBuff ∧ (block Message.sample).length ≤ maxBuff := by
    decide +kernel
  have bothLossless : forall message, message ∈ [oddSample, Message.sample] ->
      WireNumbers.Lossless message :=
    List.forall_mem_cons.mpr ⟨oddSample_lossless, List.forall_mem_singleton.mpr
      (WireNumbers.lossless_of_wellformed Message.sample_wellformed)⟩
  intro first takenFirst
  refine ⟨trivial, ?_⟩
  intro second takenSecond
  refine ⟨trivial, ?_⟩
  simp only [step, Option.ite_none_right_eq_some, Option.some.injEq] at takenFirst takenSecond
  have carries : Carries block second.inFlight [oddSample, Message.sample] ∧
      second.sent = [oddSample, Message.sample] := by
    rw [← takenSecond.2, ← takenFirst.2]
    exact ⟨(Carries.nil.write oddSample).write Message.sample, rfl⟩
  intro third takenThird
  refine ⟨oneBlock_deliver carries.1 bothFit.1 (carries.2 ▸ bothLossless) _, ?_⟩
  simp only [step, Option.ite_none_right_eq_some, Option.some.injEq] at takenThird
  have frame := deliver_frame second (block oddSample).length (List.replicate maxBuff 0)
  rw [takenThird.2] at frame
  have others : Carries block third.inFlight [Message.sample] := by
    rw [frame.1]
    exact carries.1.first.2
  exact fun _ _ =>
    ⟨oneBlock_deliver others bothFit.2 (frame.2.trans carries.2 ▸ bothLossless) _, trivial⟩

theorem faithful_eachBlock : Run.Always step Faithful start eachBlock :=
  faithful_of_one_block eachBlock_guarded

/-- Of two blocks that arrive together the second is lost. -/
theorem joined_blocks_lose {first second : Message}
    (unpacked : Message.unpackMessage first.packMessage = .ok first)
    (nonempty : first.msgString ≠ []) (nonemptySecond : second.msgString ≠ [])
    (fits : (block first ++ block second).length ≤ maxBuff) {buf : Bytes}
    (array : maxBuff ≤ buf.length) :
    Not (Run.Always step Faithful start
      [.send first, .send second, .deliver (block first ++ block second).length buf]) := by
  have sentBoth : Run.after step start [.send first, .send second] =
      some ⟨[first, second], block first ++ block second, [], none⟩ := by
    simp only [Run.after, step, start, nonempty, nonemptySecond, ne_eq, not_false_eq_true,
      and_self, if_true]
    rfl
  let both : Stream := ⟨[first, second], block first ++ block second, [], none⟩
  have positive : 0 < (block first ++ block second).length := by simp [block]
  have taken : step both (.deliver (block first ++ block second).length buf) =
      some (deliver both (block first ++ block second).length buf) :=
    if_pos ⟨rfl, positive, Nat.le_refl _, array⟩
  have delivered : deliver both (block first ++ block second).length buf =
      ⟨[first, second], [], [first], none⟩ := by
    have front : both.inFlight.take (block first ++ block second).length =
        block first ++ block second := List.take_length
    have back : both.inFlight.drop (block first ++ block second).length = [] := List.drop_length
    unfold deliver
    rw [front, back, received_block unpacked nonempty fits]
    rfl
  have reached : Run.after step start
      [.send first, .send second, .deliver (block first ++ block second).length buf] =
      some ⟨[first, second], [], [first], none⟩ := by
    have joined := @Run.after_append _ _ step start [.send first, .send second]
      [.deliver (block first ++ block second).length buf]
    rw [sentBoth, Option.bind_some] at joined
    refine joined.trans ?_
    simp only [Run.after]
    rw [taken, delivered]
  intro always
  have all := (always.finish reached).2.2 rfl
  exact absurd (List.cons.inj all).2 (List.cons_ne_nil second []).symm

/-- The same message twice, arriving together. -/
theorem joinedBlocks_lose :
    Not (Run.Always step Faithful start
      [.send Message.sample, .send Message.sample,
        .deliver (block Message.sample ++ block Message.sample).length
          (List.replicate maxBuff 0)]) :=
  joined_blocks_lose (WireNumbers.lossless_of_wellformed Message.sample_wellformed).unpacked
    (by decide +kernel) (by decide +kernel) (by decide +kernel)
    (Nat.le_of_eq List.length_replicate.symm)

end Framing
end ChatHub
