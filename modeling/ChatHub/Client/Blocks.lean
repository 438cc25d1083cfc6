import ChatHub.Base.Run
import ChatHub.Base.Carries
import ChatHub.Client.Callbacks
import ChatHub.Lib.WireNumbers

namespace ChatHub

/-!
# From the server's blocks to the client's actions

The server writes every message as `MAX_BUFF` bytes: the JSON text with its
NUL and whatever the heap holds behind it.  `read_cb` is invoked whenever
bytes have arrived.  It takes at most `MAX_BUFF` of the bytes that wait, once,
and remembers nothing.

A run writes blocks and lets some of the bytes in flight arrive.  Reading
stays at the beginning of a block as long as a whole block waits at every
invocation, and it keeps up as long as only one waits when the last byte has
arrived.  Both are necessary.
-/

namespace Blocks

open Client

/-- What the server passes to `bufferevent_write`. -/
def block (message : Message) (behind : Bytes) : Bytes :=
  message.packMessage ++ 0 :: behind

/-- The messages written to one client and what became of them. -/
structure Stream where
  /-- the messages written so far -/
  sent : List Message
  /-- the bytes that have not arrived yet -/
  inFlight : Bytes
  /-- the bytes that have arrived and that `read_cb` has not taken yet -/
  input : Bytes
  client : Client
  /-- the messages that `read_cb` decoded so far -/
  handled : List Message
  /-- how many bytes `read_cb` has taken so far, which is where it reads next -/
  consumed : Nat
  /-- the fault at which the client stopped -/
  stopped : Option Fault

/-- Nothing has been written. -/
def start : Stream where
  sent := []
  inFlight := []
  input := []
  client := Client.start
  handled := []
  consumed := 0
  stopped := none

/-- A message is written, with the bytes behind its text, or some bytes
arrive, with any memory behind the array of `read_cb`. -/
inductive Event where
  | write (message : Message) (behind : Bytes)
  | arrive (count : Nat) (behind : Bytes)

/-- `read_cb` on the bytes that wait. -/
def receive (stream : Stream) (behind : Bytes) : Stream :=
  match stream.client.readCb behind stream.input with
  | .error fault => { stream with stopped := some fault }
  | .ok (client, rest) =>
      { stream with
        input := rest
        client := client
        handled := stream.handled ++ (decode behind stream.input).toOption.toList
        consumed := stream.consumed + (stream.input.length - rest.length) }

/-- The next bytes in flight have arrived. -/
def Stream.moved (stream : Stream) (count : Nat) : Stream :=
  { stream with
    inFlight := stream.inFlight.drop count
    input := stream.input ++ stream.inFlight.take count }

/-- A step while the client runs. -/
def step (stream : Stream) : Event -> Option Stream
  | .write message behind =>
      if stream.stopped = none ∧ (block message behind).length = maxBuff then
        some { stream with
          sent := stream.sent ++ [message], inFlight := stream.inFlight ++ block message behind }
      else none
  | .arrive count behind =>
      if stream.stopped = none ∧ 0 < count ∧ count ≤ stream.inFlight.length then
        some (receive (stream.moved count) behind)
      else none

/-- What the text of a written message decodes to. -/
def decoded (message : Message) : Except Fault Message :=
  Message.unpackMessage message.packMessage

/-- The client reads on at the beginning of a block and has acted on the
first messages, each once and in order, and on all of them when nothing is in
flight. -/
def Faithful (stream : Stream) : Prop :=
  stream.stopped = none ∧ maxBuff ∣ stream.consumed ∧
    stream.client = stream.handled.foldl Client.act Client.start ∧
    Exists fun messages => stream.sent.map decoded = messages.map Except.ok ∧
      stream.handled <+: messages ∧ (stream.inFlight = [] -> stream.handled = messages)

/-- Texts decode without a fault, a whole block waits at every invocation of
`read_cb`, and only one waits when the last byte has arrived. -/
def FullBlock (stream : Stream) : Event -> Prop
  | .write message _ => Exists fun message' => decoded message = .ok message'
  | .arrive count _ =>
      maxBuff ≤ stream.input.length + count ∧
        (count = stream.inFlight.length -> stream.input.length + count = maxBuff)

/-! ## One invocation -/

/-- A whole block is decoded, whatever follows. -/
theorem decode_block {message : Message} {behind : Bytes}
    (whole : (block message behind).length = maxBuff) (rest beyond : Bytes) :
    decode beyond (block message behind ++ rest) = decoded message := by
  have taken : readBuffer (block message behind ++ rest) = block message behind := by
    unfold readBuffer
    rw [← whole, List.take_left, Nat.sub_self, List.replicate_zero, List.append_nil]
  unfold decode
  rw [taken]
  unfold block
  rw [List.append_assoc]
  exact message.unpackMessage_block (behind ++ beyond)

/-- An invocation takes at most `MAX_BUFF` bytes and acts on one message. -/
theorem receive_cases (stream : Stream) (behind : Bytes) :
    (Exists fun fault => decode behind stream.input = .error fault ∧
      receive stream behind = { stream with stopped := some fault }) ∨
    Exists fun message => decode behind stream.input = .ok message ∧
      receive stream behind =
        { stream with
          input := stream.input.drop maxBuff
          client := stream.client.act message
          handled := stream.handled ++ [message]
          consumed := stream.consumed + min maxBuff stream.input.length } := by
  cases outcome : decode behind stream.input with
  | error fault =>
      left
      refine ⟨fault, rfl, ?_⟩
      unfold receive readCb
      rw [outcome]
  | ok message =>
      right
      have taken : stream.input.length - (stream.input.drop maxBuff).length =
          min maxBuff stream.input.length := by
        rw [List.length_drop]
        omega
      refine ⟨message, rfl, ?_⟩
      unfold receive readCb
      simp only [outcome, taken]
      rfl

/-! ## Runs -/

/-- Messages and the bytes behind their texts. -/
abbrev Pending := List (Message × Bytes)

/-- The block of a message and the bytes behind it. -/
def blockOf (written : Message × Bytes) : Bytes :=
  block written.1 written.2

/-- The bytes that have not been read are those of the blocks whose messages
were not handled, and if all of them have arrived then none is left. -/
structure InStep (stream : Stream) : Prop where
  running : stream.stopped = none
  aligned : maxBuff ∣ stream.consumed
  acted : stream.client = stream.handled.foldl Client.act Client.start
  drained : stream.inFlight = [] -> stream.input = []
  pending : Exists fun pending : Pending => Exists fun todo : List Message =>
    Carries blockOf (stream.input ++ stream.inFlight) pending ∧
    (forall written, written ∈ pending -> (blockOf written).length = maxBuff) ∧
    pending.map (fun written => decoded written.1) = todo.map Except.ok ∧
    stream.sent.map decoded = (stream.handled ++ todo).map Except.ok

theorem inStep_start : InStep start where
  running := rfl
  aligned := Nat.dvd_zero _
  acted := rfl
  drained := fun _ => rfl
  pending := ⟨[], [], Carries.nil, fun _ member => absurd member List.not_mem_nil, rfl, rfl⟩

theorem blockOf_ne_nil (written : Message × Bytes) : blockOf written ≠ [] :=
  List.append_ne_nil_of_right_ne_nil _ (List.cons_ne_nil 0 written.2)

theorem map_ok_injective {left right : List Message}
    (same : left.map (Except.ok (ε := Fault)) = right.map Except.ok) : left = right :=
  List.map_injective_iff.mpr (fun _ _ => Except.ok.inj) same

theorem InStep.faithful {stream : Stream} (inStep : InStep stream) : Faithful stream := by
  rcases inStep.pending with ⟨pending, todo, waiting, _, decodes, sent⟩
  refine ⟨inStep.running, inStep.aligned, inStep.acted, stream.handled ++ todo, sent,
    List.prefix_append _ _, fun arrived => ?_⟩
  rw [inStep.drained arrived, arrived] at waiting
  rw [waiting.eq_nil blockOf_ne_nil] at decodes
  rw [List.map_eq_nil_iff.mp decodes.symm, List.append_nil]

theorem InStep.write {stream next : Stream} {message : Message} {behind : Bytes}
    (inStep : InStep stream) (decodes : FullBlock stream (.write message behind))
    (taken : step stream (.write message behind) = some next) : InStep next := by
  simp only [step, Option.ite_none_right_eq_some, Option.some.injEq] at taken
  rcases taken with ⟨⟨_, whole⟩, same⟩
  rcases decodes with ⟨message', decodes⟩
  rcases inStep.pending with ⟨pending, todo, waiting, wholes, decodesAll, sent⟩
  subst same
  refine ⟨inStep.running, inStep.aligned, inStep.acted, ?_, pending ++ [(message, behind)],
    todo ++ [message'], ?_, ?_, ?_, ?_⟩
  · intro arrived
    exact absurd (List.append_eq_nil_iff.mp arrived).2 (blockOf_ne_nil (message, behind))
  · have written := waiting.write (message, behind)
    rw [List.append_assoc] at written
    exact written
  · intro written member
    rcases List.mem_append.mp member with old | new
    · exact wholes written old
    · rw [List.mem_singleton.mp new]
      exact whole
  · rw [List.map_append, List.map_append, decodesAll, List.map_singleton, List.map_singleton, decodes]
  · change (stream.sent ++ [message]).map decoded = (stream.handled ++ (todo ++ [message'])).map Except.ok
    rw [List.map_append, sent, List.map_singleton, decodes]
    simp only [List.map_append, List.map_cons, List.map_nil, List.append_assoc]

theorem Stream.moved_length (stream : Stream) {count : Nat}
    (available : count ≤ stream.inFlight.length) :
    (stream.moved count).input.length = stream.input.length + count := by
  change (stream.input ++ stream.inFlight.take count).length = _
  rw [List.length_append, List.length_take, Nat.min_eq_left available]

theorem InStep.arrive {stream next : Stream} {count : Nat} {behind : Bytes} (inStep : InStep stream)
    (fullBlock : FullBlock stream (.arrive count behind))
    (taken : step stream (.arrive count behind) = some next) : InStep next := by
  simp only [step, Option.ite_none_right_eq_some, Option.some.injEq] at taken
  rcases taken with ⟨⟨_, positive, available⟩, same⟩
  rcases fullBlock with ⟨full, last⟩
  rcases inStep.pending with ⟨pending, todo, waiting, wholes, decodesAll, sent⟩
  have moved : Carries blockOf ((stream.moved count).input ++ (stream.moved count).inFlight) pending := by
    change Carries blockOf (stream.input ++ stream.inFlight.take count ++ stream.inFlight.drop count) pending
    rw [List.append_assoc, List.take_append_drop]
    exact waiting
  have length := stream.moved_length available
  rw [← length] at full last
  cases pending with
  | nil =>
      have nothing := (List.append_eq_nil_iff.mp moved).1
      rw [nothing] at full
      exact absurd full (by decide)
  | cons first rest =>
      have whole := wholes first List.mem_cons_self
      have arrived := moved.first_arrived (Nat.le_trans (Nat.le_of_eq whole) full)
      rw [whole] at arrived
      rcases arrived with ⟨front, back⟩
      cases todo with
      | nil => cases decodesAll
      | cons message others =>
          rw [List.map_cons, List.map_cons, List.cons.injEq] at decodesAll
          have decodes : decode behind (stream.moved count).input = .ok message := by
            rw [front]
            exact (decode_block whole _ behind).trans decodesAll.1
          rcases receive_cases (stream.moved count) behind with
            ⟨fault, faults, _⟩ | ⟨message', decodes', received⟩
          · rw [decodes] at faults
            cases faults
          · rw [decodes] at decodes'
            cases decodes'
            rw [received, Nat.min_eq_left full] at same
            subst same
            refine ⟨inStep.running, ?_, ?_, ?_, rest, others, back, ?_, decodesAll.2, ?_⟩
            · exact (Nat.dvd_add_right inStep.aligned).mpr (Nat.dvd_refl maxBuff)
            · change stream.client.act message = (stream.handled ++ [message]).foldl Client.act Client.start
              rw [List.foldl_append, ← inStep.acted]
              rfl
            · intro arrived
              have all : count = stream.inFlight.length :=
                Nat.le_antisymm available (List.drop_eq_nil_iff.mp arrived)
              exact List.drop_eq_nil_of_le (Nat.le_of_eq (last all))
            · exact fun written member => wholes written (List.mem_cons_of_mem _ member)
            · change stream.sent.map decoded = (stream.handled ++ [message] ++ others).map Except.ok
              rw [sent, List.append_assoc]
              rfl

/-- If one more message was to be handled, one block waits. -/
theorem InStep.one_waits {stream : Stream} (inStep : InStep stream) {message : Message}
    (all : stream.sent.map decoded = (stream.handled ++ [message]).map Except.ok) :
    stream.input.length + stream.inFlight.length = maxBuff := by
  rcases inStep.pending with ⟨pending, todo, waiting, wholes, decodesAll, sent⟩
  have oneLeft : todo = [message] :=
    List.append_cancel_left (map_ok_injective (sent.symm.trans all))
  have oneBlock : pending.length = 1 := by
    have lengths := congrArg List.length decodesAll
    rw [List.length_map, List.length_map, oneLeft] at lengths
    exact lengths
  have total := waiting.length wholes
  rw [List.length_append, oneBlock, Nat.one_mul] at total
  exact total

/-- What is read from less than a block ends inside of it. -/
theorem InStep.misaligned {stream : Stream} (inStep : InStep stream) {count : Nat}
    (positive : 0 < count) (short : count < maxBuff) : Not (maxBuff ∣ stream.consumed + count) := by
  intro aligned
  have divides := (Nat.dvd_add_right inStep.aligned).mp aligned
  exact absurd short (Nat.not_lt.mpr (Nat.le_of_dvd positive divides))

/-- Reading from less than a block, or leaving bytes behind when all have
arrived, is visible at once. -/
theorem InStep.breaks {stream next : Stream} {event : Event} (inStep : InStep stream)
    (notFull : Not (FullBlock stream event)) (taken : step stream event = some next) :
    Not (Faithful next) := by
  rintro ⟨running, aligned, _, messages, sentNow, _, allHandled⟩
  cases event with
  | write message behind =>
      simp only [step, Option.ite_none_right_eq_some, Option.some.injEq] at taken
      rw [← taken.2] at sentNow
      have member : decoded message ∈ (stream.sent ++ [message]).map decoded :=
        List.mem_map_of_mem (List.mem_append_right _ List.mem_cons_self)
      rw [sentNow] at member
      rcases List.mem_map.mp member with ⟨message', _, decodes⟩
      exact notFull ⟨message', decodes.symm⟩
  | arrive count behind =>
      simp only [step, Option.ite_none_right_eq_some, Option.some.injEq] at taken
      rcases taken with ⟨⟨_, positive, available⟩, same⟩
      have length := stream.moved_length available
      rcases receive_cases (stream.moved count) behind with ⟨fault, _, received⟩ | ⟨message, _, received⟩
      · rw [received] at same
        rw [← same] at running
        cases running
      · rw [received] at same
        subst same
        by_cases full : maxBuff ≤ stream.input.length + count
        · -- more than one block waits, so one is not handled
          have last : count = stream.inFlight.length ∧ stream.input.length + count ≠ maxBuff := by
            by_contra otherwise
            exact notFull ⟨full, fun all => by_contra fun more => otherwise ⟨all, more⟩⟩
          have arrived : stream.inFlight.drop count = [] :=
            List.drop_eq_nil_of_le (Nat.le_of_eq last.1.symm)
          have handledAll : stream.handled ++ [message] = messages := allHandled arrived
          rw [← handledAll] at sentNow
          have waiting := inStep.one_waits sentNow
          exact last.2 (by omega)
        · -- less than a block is taken, and reading goes on inside it
          change maxBuff ∣ stream.consumed + min maxBuff (stream.moved count).input.length at aligned
          rw [length, Nat.min_eq_right (by omega)] at aligned
          exact inStep.misaligned (by omega) (by omega) aligned

/-- Every message is handled once, in order and from the beginning of its
block, in every state of a run, if and only if every invocation of `read_cb`
finds a whole block, and only one when the last byte has arrived. -/
theorem acts_once_iff_full_blocks (events : List Event) :
    Run.Always step Faithful start events <-> Run.Guarded step FullBlock start events := by
  refine Run.always_iff_guarded InStep (fun _ => True) inStep_start
    (fun _ inStep _ => inStep.faithful) ?_ ?_
    (Run.invariant trivial (fun _ _ _ _ _ => trivial) events)
  · intro stream event next inStep _ _ full taken
    cases event with
    | write message behind => exact inStep.write full taken
    | arrive count behind => exact inStep.arrive full taken
  · intro stream event next inStep _ _ notFull taken
    exact inStep.breaks notFull taken

/-- Of two blocks that arrive together the second is not handled. -/
theorem blocks_together {message : Message} {behind : Bytes}
    (decodes : Exists fun message' => decoded message = .ok message')
    (whole : (block message behind).length = maxBuff) :
    Not (Run.Always step Faithful start
      [.write message behind, .write message behind, .arrive (2 * maxBuff) []]) := by
  intro always
  let once : Stream := ⟨[message], block message behind, [], Client.start, [], 0, none⟩
  let twice : Stream :=
    ⟨[message, message], block message behind ++ block message behind, [], Client.start, [], 0, none⟩
  have length : (block message behind ++ block message behind).length = 2 * maxBuff := by
    rw [List.length_append, whole, Nat.two_mul]
  have firstTaken : step start (.write message behind) = some once := if_pos ⟨rfl, whole⟩
  have secondTaken : step once (.write message behind) = some twice := if_pos ⟨rfl, whole⟩
  have thirdTaken : step twice (.arrive (2 * maxBuff) []) =
      some (receive (twice.moved (2 * maxBuff)) []) :=
    if_pos ⟨rfl, by decide, Nat.le_of_eq length.symm⟩
  have inStep := (inStep_start.write decodes firstTaken).write decodes secondTaken
  refine inStep.breaks ?_ thirdTaken
    (((always.2 once firstTaken).2 twice secondTaken).2 _ thirdTaken)
  intro full
  have one : 0 + 2 * maxBuff = maxBuff := full.2 length.symm
  exact absurd one (by decide)

/-- The heap behind the text is zero. -/
def zeros (message : Message) : Bytes :=
  List.replicate (maxBuff - (message.packMessage.length + 1)) 0

theorem sampleTwice_not_faithful :
    Not (Run.Always step Faithful start
      [.write Message.sample (zeros Message.sample), .write Message.sample (zeros Message.sample),
        .arrive (2 * maxBuff) []]) := by
  have fits : Message.sample.packMessage.length + 1 ≤ maxBuff := by decide +kernel
  apply blocks_together ⟨_, (WireNumbers.lossless_of_wellformed Message.sample_wellformed).unpacked⟩
  unfold block zeros
  rw [List.length_append, List.length_cons, List.length_replicate]
  omega

end Blocks
end ChatHub
