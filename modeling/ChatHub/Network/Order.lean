import ChatHub.Network.System
import ChatHub.Server.Answering

namespace ChatHub

/-!
# Everything arrives in the order of the server

The server handles the messages of a client in the order in which they were
typed, and every client reads what it is due because of the messages that the
server handled, in their order.  Nothing is repeated or changed on the way, and
what a client has sent is not lost.

This holds as long as what is typed can be sent and an invocation sees what
it should: the server one block of the client, and a client a whole array, and
only one when the last byte has arrived.  If moreover no client asks for a
login twice, no client stops.
-/

/-- What the server reads as it was typed: a message that has a send time, is
not empty and fits into an array. -/
structure Message.Sendable (message : Message) : Prop where
  wellformed : message.Wellformed
  nonempty : message.msgString ≠ []
  stamped : 0 < message.sendTime
  fits : message.packMessage.length < maxBuff

namespace Network

open World

/-- The messages of a connection among those that were handled. -/
def handledFrom (bev : Bufferevent) (history : List Handled) : List Message :=
  addressed bev (history.map (fun handled => (handled.sender, handled.message)))

/-- What is due to a connection because of a message is what the server wrote
on it. -/
def DueWritten (handled : Handled) (bev : Bufferevent) (part : List Message) : Prop :=
  Due handled bev part ∧ writtenTo bev (handled.next.written.drop handled.world.written.length) =
    part.map (Write.ofMessage bev)

/-- The server handles what a client typed, and the client reads what it is
due, everything in the order of the server. -/
structure Relays (bev : Bufferevent) (history : List Handled) (party : Party) : Prop where
  handles : handledFrom bev history <+: party.typed
  handlesAll : party.toServer = [] -> handledFrom bev history = party.typed
  reads : Exists fun parts : List (List Message) =>
    List.Forall₂ (fun handled part => DueWritten handled bev part) history parts ∧
      party.read <+: parts.flatten ∧ (party.toClient = [] -> party.read = parts.flatten)

/-- The client also runs. -/
structure Serves (bev : Bufferevent) (history : List Handled) (party : Party) : Prop
    extends Relays bev history party where
  running : party.stopped = none

/-- Every client is served. -/
def Faithful (network : Network) : Prop :=
  forall bev, Serves bev network.history (network.parties bev)

/-- What is typed can be sent, the server sees one block, and a client sees a
whole array, and only one when the last byte has arrived. -/
def Careful (network : Network) : Event -> Prop
  | .manage _ => True
  | .stdin bev typed => Exists fun client => Exists fun sent =>
      (network.parties bev).client.stdinCb typed = .ok (client, sent) ∧
        forall message, sent = some message -> message.Sendable
  | .serve bev count _ _ => count = (cstr (network.parties bev).toServer).length + 1
  | .arrive bev count _ =>
      maxBuff ≤ (network.parties bev).input.length + count ∧
        (count = (network.parties bev).toClient.length ->
          (network.parties bev).input.length + count = maxBuff)

/-- A client asks for a login only once, so that it frees the password once. -/
def LogsInOnce (network : Network) : Event -> Prop
  | .stdin bev typed => forall client message,
      (network.parties bev).client.stdinCb typed = .ok (client, some message) ->
        message.type = MessageType.login.code -> (network.parties bev).client.passwordFreed = false
  | .manage _ | .serve _ _ _ _ | .arrive _ _ _ => True

/-! ## What holds in every state -/

/-- The bytes that are on their way are those of messages that were typed and
not handled, or that are due and not read. -/
structure InStep (bev : Bufferevent) (history : List Handled) (party : Party) : Prop where
  sendable : forall message, message ∈ party.typed -> message.Sendable
  drained : party.toClient = [] -> party.input = []
  requests : Exists fun waiting : List Message =>
    party.typed = handledFrom bev history ++ waiting ∧
      Carries Framing.block party.toServer waiting
  replies : Exists fun parts : List (List Message) => Exists fun pending : Blocks.Pending =>
    List.Forall₂ (fun handled part => DueWritten handled bev part) history parts ∧
      parts.flatten = party.read ++ pending.map Prod.fst ∧
      Carries Blocks.blockOf (party.input ++ party.toClient) pending ∧
      forall written, written ∈ pending -> (Blocks.blockOf written).length = maxBuff

/-- The server is as it is in every run, it handled what could be sent, and
the bytes of every client are in step. -/
structure Consistent (network : Network) : Prop where
  sane : Sane network.world
  kept : Answering.Kept network.world
  sendable : forall handled, handled ∈ network.history -> handled.message.Sendable
  saneBefore : forall handled, handled ∈ network.history -> Sane handled.world
  inStep : forall bev, InStep bev network.history (network.parties bev)

theorem inStep_start (bev : Bufferevent) : InStep bev [] Party.start where
  sendable := fun _ member => absurd member List.not_mem_nil
  drained := fun _ => rfl
  requests := ⟨[], rfl, Carries.nil⟩
  replies := ⟨[], [], List.Forall₂.nil, rfl, Carries.nil,
    fun _ member => absurd member List.not_mem_nil⟩

section Party

variable {bev : Bufferevent} {history : List Handled} {party : Party}

theorem InStep.relays (inStep : InStep bev history party) : Relays bev history party := by
  rcases inStep.requests with ⟨waiting, typed, toServer⟩
  rcases inStep.replies with ⟨parts, pending, due, all, toClient, _⟩
  refine ⟨⟨waiting, typed.symm⟩, fun empty => ?_, parts, due, ⟨_, all.symm⟩, fun empty => ?_⟩
  · rw [empty] at toServer
    rw [typed, toServer.eq_nil Framing.block_ne_nil, List.append_nil]
  · rw [inStep.drained empty, empty] at toClient
    rw [all, toClient.eq_nil Blocks.blockOf_ne_nil, List.map_nil, List.append_nil]

/-! ## Clients -/

theorem InStep.stdin (inStep : InStep bev history party) {typed : Client.Typed}
    (careful : Exists fun client => Exists fun sent =>
      party.client.stdinCb typed = .ok (client, sent) ∧
        forall message, sent = some message -> message.Sendable) :
    InStep bev history (party.stdin typed) := by
  rcases careful with ⟨client, sent, ran, sendable⟩
  rcases inStep.requests with ⟨waiting, isTyped, toServer⟩
  rcases Party.stdin_cases ran with ⟨_, stops⟩ | ⟨_, sends⟩
  · rw [stops]
    exact ⟨inStep.sendable, inStep.drained, inStep.requests, inStep.replies⟩
  · rw [sends]
    refine ⟨?_, inStep.drained, ⟨waiting ++ sent.toList, ?_, toServer.writes⟩, inStep.replies⟩
    · intro message member
      rcases List.mem_append.mp member with old | new
      · exact inStep.sendable message old
      · exact sendable message (Option.mem_toList.mp new)
    · change party.typed ++ sent.toList = _
      rw [isTyped, List.append_assoc]

/-- A message that is due to the connection. -/
def IsDue (bev : Bufferevent) (history : List Handled) (message : Message) : Prop :=
  Exists fun handled => Exists fun part =>
    handled ∈ history ∧ Due handled bev part ∧ message ∈ part

/-- Everything that is due is due because of one of the messages. -/
theorem due_of_mem {parts : List (List Message)}
    (due : List.Forall₂ (fun handled part => DueWritten handled bev part) history parts) {message : Message}
    (member : message ∈ parts.flatten) : IsDue bev history message := by
  induction due with
  | nil => cases member
  | @cons handled part _ _ first _ inductionHypothesis =>
      rw [List.flatten_cons] at member
      rcases List.mem_append.mp member with isFirst | isLater
      · exact ⟨handled, part, List.mem_cons_self, first.1, isFirst⟩
      · rcases inductionHypothesis isLater with ⟨other, its, isOther, isDue, inPart⟩
        exact ⟨other, its, List.mem_cons_of_mem _ isOther, isDue, inPart⟩

/-- An invocation of `read_cb` that sees a whole array reads the next message
that is due. -/
theorem InStep.arrive (inStep : InStep bev history party)
    (sendable : forall handled, handled ∈ history -> handled.message.Sendable) {count : Nat}
    (available : count ≤ party.toClient.length) (full : maxBuff ≤ party.input.length + count)
    (last : count = party.toClient.length -> party.input.length + count = maxBuff) (behind : Bytes) :
    Exists fun message => IsDue bev history message ∧
      ((party.moved count).receive behind).client = party.client.act message ∧
      ((party.moved count).receive behind).typed = party.typed ∧
      ((party.moved count).receive behind).stopped = party.stopped ∧
      InStep bev history ((party.moved count).receive behind) := by
  rcases inStep.replies with ⟨parts, pending, due, all, toClient, whole⟩
  have moved : Carries Blocks.blockOf ((party.moved count).input ++ (party.moved count).toClient)
      pending := by
    change Carries Blocks.blockOf
      (party.input ++ party.toClient.take count ++ party.toClient.drop count) pending
    rw [List.append_assoc, List.take_append_drop]
    exact toClient
  have length : (party.moved count).input.length = party.input.length + count := by
    change (party.input ++ party.toClient.take count).length = _
    rw [List.length_append, List.length_take, Nat.min_eq_left available]
  rw [← length] at full last
  cases pending with
  | nil =>
      have nothing := (List.append_eq_nil_iff.mp moved).1
      rw [nothing] at full
      exact absurd full (by decide)
  | cons first rest =>
      have isWhole := whole first List.mem_cons_self
      have isDue : IsDue bev history first.1 := by
        apply due_of_mem due
        rw [all]
        exact List.mem_append_right _ List.mem_cons_self
      have wellformed : first.1.Wellformed := by
        rcases isDue with ⟨handled, part, member, isDue, inPart⟩
        exact isDue.wellformed (sendable handled member).wellformed first.1 inPart
      have arrived := moved.first_arrived (Nat.le_trans (Nat.le_of_eq isWhole) full)
      rw [isWhole] at arrived
      have decodes : Client.decode behind (party.moved count).input = .ok first.1 := by
        rw [arrived.1]
        exact (Blocks.decode_block isWhole _ behind).trans
          (WireNumbers.lossless_of_wellformed wellformed).unpacked
      rw [Party.receive_ok decodes]
      refine ⟨first.1, isDue, rfl, rfl, rfl, inStep.sendable, fun empty => ?_,
        inStep.requests, parts, rest, due, ?_, arrived.2,
        fun written member => whole written (List.mem_cons_of_mem _ member)⟩
      · have isAll : count = party.toClient.length :=
          Nat.le_antisymm available (List.drop_eq_nil_iff.mp empty)
        exact List.drop_eq_nil_of_le (Nat.le_of_eq (last isAll))
      · change _ = party.read ++ [first.1] ++ rest.map Prod.fst
        rw [all, List.map_cons, List.append_assoc]
        rfl

end Party

/-! ## The server -/

/-- If something waits, an invocation that sees one block handles the message
that was typed first. -/
theorem InStep.handles {bev : Bufferevent} {history : List Handled} {party : Party}
    (inStep : InStep bev history party) (waits : party.toServer ≠ []) :
    (cstr party.toServer).length + 1 ≤ party.toServer.length ∧
      Exists fun message => Exists fun rest : List Message => message.Sendable ∧
        party.typed = handledFrom bev history ++ message :: rest ∧
        Carries Framing.block (party.toServer.drop ((cstr party.toServer).length + 1)) rest ∧
        forall buf, Framing.received buf
          (party.toServer.take ((cstr party.toServer).length + 1)) = .ok (some message) := by
  rcases inStep.requests with ⟨waiting, typed, toServer⟩
  cases waiting with
  | nil => exact absurd toServer waits
  | cons message rest =>
      have sendable : message.Sendable := by
        apply inStep.sendable
        rw [typed]
        exact List.mem_append_right _ List.mem_cons_self
      have blockFits : (Framing.block message ++ []).length ≤ maxBuff := by
        rw [List.append_nil, Framing.block_length]
        exact sendable.fits
      have available : (Framing.block message).length ≤ party.toServer.length := by
        rw [show party.toServer = (message :: rest).flatMap Framing.block from toServer,
          List.flatMap_cons, List.length_append]
        exact Nat.le_add_right _ _
      rw [Framing.front_length toServer]
      refine ⟨available, message, rest, sendable, typed, toServer.first.2, fun buf => ?_⟩
      have unpacked := (WireNumbers.lossless_of_wellformed sendable.wellformed).unpacked
      have received := Framing.received_block unpacked sendable.nonempty blockFits buf
      rw [List.append_nil] at received
      rw [toServer.first.1]
      exact received

/-- An array that begins with a text that fits is a block. -/
theorem block_of_passed {bev : Bufferevent} {message : Message} {array : Bufferevent × Bytes}
    (fits : message.packMessage.length < maxBuff) (passed : Passed (.ofMessage bev message) array) :
    array.1 = bev ∧ Exists fun behind => array.2 = Blocks.block message behind ∧
      (Blocks.block message behind).length = maxBuff := by
  rcases passed with ⟨same, length, behind, begins⟩
  change (List.take maxBuff (message.packMessage ++ [0])) ++ behind = array.2 at begins
  have short : (message.packMessage ++ [0]).length ≤ maxBuff := by
    rw [List.length_append, List.length_singleton]
    exact fits
  rw [List.take_of_length_le short, List.append_assoc] at begins
  have isBlock : array.2 = Blocks.block message behind := begins.symm
  exact ⟨same, behind, isBlock, isBlock ▸ length⟩

/-- The arrays that are passed on for a connection are blocks of what was
packed for it. -/
theorem blocks_of_passed {packed : List (Bufferevent × Message)} {arrays : List (Bufferevent × Bytes)}
    (fits : forall entry, entry ∈ packed -> entry.2.packMessage.length < maxBuff)
    (passed : List.Forall₂ Passed (packed.map (fun entry => .ofMessage entry.1 entry.2)) arrays)
    (bev : Bufferevent) : Exists fun pending : Blocks.Pending =>
      pending.map Prod.fst = addressed bev packed ∧
      (addressed bev arrays).flatten = pending.flatMap Blocks.blockOf ∧
      forall written, written ∈ pending -> (Blocks.blockOf written).length = maxBuff := by
  rw [List.forall₂_map_left_iff] at passed
  induction passed with
  | nil => exact ⟨[], rfl, rfl, fun _ member => absurd member List.not_mem_nil⟩
  | @cons entry array packed arrays first _ inductionHypothesis =>
      rcases inductionHypothesis (fun other member => fits other (List.mem_cons_of_mem _ member)) with
        ⟨pending, messages, bytes, whole⟩
      rcases block_of_passed (fits entry List.mem_cons_self) first with
        ⟨sameBev, behind, isBlock, isWhole⟩
      rw [← List.singleton_append, addressed_append, ← @List.singleton_append _ _ arrays,
        addressed_append]
      rcases entry with ⟨receiver, message⟩
      rcases array with ⟨receiver', array⟩
      change receiver' = receiver at sameBev
      change array = _ at isBlock
      subst sameBev isBlock
      rw [addressed_singleton, addressed_singleton]
      by_cases isFor : bev = receiver'
      · rw [if_pos isFor, if_pos isFor]
        refine ⟨(message, behind) :: pending, ?_, ?_, ?_⟩
        · rw [List.map_cons, messages]
          rfl
        · rw [List.flatMap_cons, ← bytes]
          rfl
        · exact List.forall_mem_cons.mpr ⟨isWhole, whole⟩
      · rw [if_neg isFor, if_neg isFor]
        exact ⟨pending, messages, bytes, whole⟩

theorem handledFrom_append (bev : Bufferevent) (history : List Handled) (handled : Handled) :
    handledFrom bev (history ++ [handled]) =
      handledFrom bev history ++ if bev = handled.sender then [handled.message] else [] := by
  unfold handledFrom
  rw [List.map_append, addressed_append, List.map_singleton, addressed_singleton]

/-- A connection is in step again when a message has been handled and what it
is due because of it is on its way. -/
theorem InStep.served {bev : Bufferevent} {history : List Handled} {party : Party}
    (inStep : InStep bev history party) {handled : Handled} {arrays : List Bytes} {toServer : Bytes}
    {part : List Message} {more : Blocks.Pending} (due : DueWritten handled bev part)
    (messages : more.map Prod.fst = part) (bytes : arrays.flatten = more.flatMap Blocks.blockOf)
    (whole : forall written, written ∈ more -> (Blocks.blockOf written).length = maxBuff)
    (requests : Exists fun waiting : List Message =>
      party.typed = handledFrom bev (history ++ [handled]) ++ waiting ∧
        Carries Framing.block toServer waiting) :
    InStep bev (history ++ [handled]) { party.send arrays with toServer := toServer } := by
  rcases inStep.replies with ⟨parts, pending, dueAll, all, toClient, wholeAll⟩
  refine ⟨inStep.sendable, fun empty => ?_, requests, parts ++ [part],
    pending ++ more, List.rel_append dueAll (List.Forall₂.cons due List.Forall₂.nil), ?_, ?_, ?_⟩
  · exact inStep.drained (List.append_eq_nil_iff.mp empty).1
  · change (parts ++ [part]).flatten = party.read ++ (pending ++ more).map Prod.fst
    rw [List.flatten_append, all, List.map_append, messages, List.append_assoc]
    simp only [List.flatten_cons, List.flatten_nil, List.append_nil]
  · change Carries Blocks.blockOf (party.input ++ (party.toClient ++ arrays.flatten)) _
    rw [← List.append_assoc, bytes]
    exact toClient.writes
  · intro written member
    rcases List.mem_append.mp member with old | new
    · exact wholeAll written old
    · exact whole written new

/-- What the server did when it read from a connection. -/
structure Reading (network : Network) (bev : Bufferevent) (buf input : Bytes)
    (arrays : List (Bufferevent × Bytes)) (next : World) : Prop where
  isOpen : bev ∈ network.world.conns.opened
  ran : perform (readcb bev buf input) network.world = some next
  taken : World.step network.world (.read bev buf input) = some next
  passed : List.Forall₂ Passed (next.written.drop network.world.written.length) arrays

theorem step_serve {network next : Network} {bev : Bufferevent} {count : Nat} {buf : Bytes}
    {arrays : List (Bufferevent × Bytes)}
    (taken : step network (.serve bev count buf arrays) = some next) :
    0 < count ∧ count ≤ (network.parties bev).toServer.length ∧ Exists fun world =>
      Reading network bev buf ((network.parties bev).toServer.take count) arrays world ∧
      next = network.served bev count buf arrays world := by
  simp only [step] at taken
  split at taken
  · cases taken
  · next world reads =>
      simp only [Option.ite_none_right_eq_some, Option.some.injEq] at taken
      rcases taken with ⟨⟨positive, available, passed⟩, same⟩
      have ran := reads
      simp only [World.step, Option.ite_none_right_eq_some] at ran
      exact ⟨positive, available, world, ⟨ran.1.1, ran.2, reads, passed⟩, same.symm⟩

/-- The server read one block and handled the message that was typed first. -/
structure HandledFirst (network next : Network) (bev : Bufferevent) (count : Nat) (buf : Bytes)
    (arrays : List (Bufferevent × Bytes)) (message : Message) (rest : List Message) (world : World) :
    Prop where
  reading : Reading network bev buf ((network.parties bev).toServer.take count) arrays world
  same : next = network.served bev count buf arrays world
  sendable : message.Sendable
  typed : (network.parties bev).typed = handledFrom bev network.history ++ message :: rest
  back : Carries Framing.block ((network.parties bev).toServer.drop count) rest
  received : Framing.received buf ((network.parties bev).toServer.take count) = .ok (some message)
  history : next.history = network.history ++ [⟨bev, message, network.world, world⟩]
  ran : perform (handleAllMessage bev message) network.world = some world

theorem Consistent.handlesFirst {network next : Network} (consistent : Consistent network)
    {bev : Bufferevent} {count : Nat} {buf : Bytes} {arrays : List (Bufferevent × Bytes)}
    (oneBlock : count = (cstr (network.parties bev).toServer).length + 1)
    (taken : step network (.serve bev count buf arrays) = some next) :
    Exists fun message => Exists fun rest => Exists fun world =>
      HandledFirst network next bev count buf arrays message rest world := by
  rcases step_serve taken with ⟨positive, available, world, reading, same⟩
  have waits : (network.parties bev).toServer ≠ [] := by
    intro empty
    rw [empty] at available
    exact absurd (Nat.lt_of_lt_of_le positive available) (Nat.not_lt_zero _)
  rcases (consistent.inStep bev).handles waits with ⟨_, message, rest, sendable, typed, back, decodes⟩
  have received := decodes buf
  rw [← oneBlock] at back received
  have ran := reading.ran
  rw [perform_readcb consistent.sane reading.isOpen received] at ran
  refine ⟨message, rest, world, reading, same, sendable, typed, back, received, ?_, ran⟩
  rw [same]
  change network.history ++ handledBy _ _ _ _ _ = _
  unfold handledBy
  rw [received]

theorem Consistent.serve {network next : Network} (consistent : Consistent network)
    {bev : Bufferevent} {count : Nat} {buf : Bytes} {arrays : List (Bufferevent × Bytes)}
    (oneBlock : count = (cstr (network.parties bev).toServer).length + 1)
    (taken : step network (.serve bev count buf arrays) = some next) : Consistent next := by
  rcases consistent.handlesFirst oneBlock taken with ⟨message, rest, world, reading, same, sendable,
    typed, back, _, history, ran⟩
  rcases handleAllMessage_writes consistent.sane consistent.kept.truthful sendable.stamped ran with
    ⟨packed, written, due⟩
  change world.written = network.world.written ++ _ at written
  have passed := reading.passed
  rw [written, List.drop_left] at passed
  have fits : forall entry, entry ∈ packed -> entry.2.packMessage.length < maxBuff := by
    intro entry member
    apply (due entry.1).fits sendable.wellformed sendable.fits
    exact List.mem_filterMap.mpr ⟨entry, member, if_pos rfl⟩
  refine ⟨?_, ?_, ?_, ?_, fun other => ?_⟩
  · rw [same]
    exact consistent.sane.step reading.taken
  · rw [same]
    exact consistent.kept.step reading.taken
  · intro handled member
    rw [history] at member
    rcases List.mem_append.mp member with old | new
    · exact consistent.sendable handled old
    · rw [List.mem_singleton.mp new]
      exact sendable
  · intro handled member
    rw [history] at member
    rcases List.mem_append.mp member with old | new
    · exact consistent.saneBefore handled old
    · rw [List.mem_singleton.mp new]
      exact consistent.sane
  · rcases blocks_of_passed fits passed other with ⟨more, messages, bytes, whole⟩
    rw [history, same]
    have dueWritten : DueWritten ⟨bev, message, network.world, world⟩ other (addressed other packed) := by
      refine ⟨due other, ?_⟩
      rw [written, List.drop_left]
      exact writtenTo_map other id packed
    refine (consistent.inStep other).served dueWritten messages bytes whole ?_
    rw [handledFrom_append]
    by_cases isSender : other = bev
    · subst isSender
      rw [if_pos rfl, if_pos rfl]
      exact ⟨rest, by rw [typed, List.append_assoc]; rfl, back⟩
    · rw [if_neg isSender, if_neg isSender, List.append_nil]
      exact (consistent.inStep other).requests

/-! ## Runs -/

theorem Consistent.step {network next : Network} {event : Event} (consistent : Consistent network)
    (careful : Careful network event) (taken : Network.step network event = some next) :
    Consistent next := by
  cases event with
  | manage event =>
      rcases step_manage taken with ⟨_, world, changed, same⟩
      subst same
      exact ⟨consistent.sane.step changed, consistent.kept.step changed, consistent.sendable,
        consistent.saneBefore, consistent.inStep⟩
  | stdin bev typed =>
      rw [step_stdin taken]
      refine ⟨consistent.sane, consistent.kept, consistent.sendable, consistent.saneBefore, ?_⟩
      exact (Function.forall_update_iff network.parties
        (fun other party => InStep other network.history party)).mpr
          ⟨(consistent.inStep bev).stdin careful, fun other _ => consistent.inStep other⟩
  | serve bev count buf arrays => exact consistent.serve careful taken
  | arrive bev count behind =>
      rcases step_arrive taken with ⟨available, same⟩
      rcases (consistent.inStep bev).arrive consistent.sendable available careful.1 careful.2 behind with
        ⟨_, _, _, _, _, arrived⟩
      rw [same]
      refine ⟨consistent.sane, consistent.kept, consistent.sendable, consistent.saneBefore, ?_⟩
      exact (Function.forall_update_iff network.parties
        (fun other party => InStep other network.history party)).mpr
          ⟨arrived, fun other _ => consistent.inStep other⟩

/-- A server that has been running for a while is as it should be. -/
theorem consistent_start {clock : Nat -> Int} {setup : List World.Event} {world : World}
    (reached : Run.after World.step (World.start clock) setup = some world) :
    Consistent (start world) where
  sane := (Run.invariant (sane_start clock) (fun _ _ _ sane taken => sane.step taken) setup).finish
    reached
  kept := (Run.invariant (Answering.kept_start clock) (fun _ _ _ kept taken => kept.step taken)
    setup).finish reached
  sendable := fun _ member => absurd member List.not_mem_nil
  saneBefore := fun _ member => absurd member List.not_mem_nil
  inStep := inStep_start

theorem always_consistent {clock : Nat -> Int} {setup : List World.Event} {world : World}
    (reached : Run.after World.step (World.start clock) setup = some world) {events : List Event}
    (careful : Run.Guarded step Careful (start world) events) :
    Run.Always step Consistent (start world) events :=
  Run.invariant_guarded (consistent_start reached)
    (fun _ _ _ consistent isCareful taken => consistent.step isCareful taken) careful

/-- Every client runs. -/
def Running (network : Network) : Prop :=
  forall bev, (network.parties bev).stopped = none ∧ (network.parties bev).client.aborted = false

theorem act_aborted (client : Client) (message : Message) :
    (client.act message).aborted = client.aborted := by
  unfold Client.act
  split
  · split <;> rfl
  · split <;> rfl

/-- A call that frees the password for the first time does not abort. -/
theorem Running.stdin {network : Network} (running : Running network) {bev : Bufferevent}
    {typed : Client.Typed} (careful : Careful network (.stdin bev typed))
    (once : LogsInOnce network (.stdin bev typed)) :
    ((network.parties bev).stdin typed).stopped = none ∧
      ((network.parties bev).stdin typed).client.aborted = false := by
  rcases careful with ⟨client, sent, ran, _⟩
  have runs : client.aborted = false := by
    cases Identity.stdinCb_typing ran with
    | chat => exact (running bev).2
    | login _ _ isLogin _ _ runs => exact runs (once client _ ran isLogin)
    | other _ _ _ runs => exact runs.trans (running bev).2
  rcases Party.stdin_cases ran with ⟨aborts, _⟩ | ⟨_, sends⟩
  · rw [runs] at aborts
    cases aborts
  · rw [sends]
    exact ⟨(running bev).1, runs⟩

theorem Running.step {network next : Network} {event : Event} (running : Running network)
    (consistent : Consistent network) (careful : Careful network event)
    (once : LogsInOnce network event) (taken : Network.step network event = some next) :
    Running next := by
  cases event with
  | manage event =>
      rcases step_manage taken with ⟨_, world, _, same⟩
      exact same ▸ running
  | stdin bev typed =>
      rw [step_stdin taken]
      exact (Function.forall_update_iff network.parties
        (fun _ party => party.stopped = none ∧ party.client.aborted = false)).mpr
          ⟨running.stdin careful once, fun other _ => running other⟩
  | serve bev count buf arrays =>
      rcases step_serve taken with ⟨_, _, world, _, same⟩
      exact same ▸ running
  | arrive bev count behind =>
      rcases step_arrive taken with ⟨available, same⟩
      rcases (consistent.inStep bev).arrive consistent.sendable available careful.1 careful.2 behind with
        ⟨message, _, client, _, stopped, _⟩
      rw [same]
      refine (Function.forall_update_iff network.parties
        (fun _ party => party.stopped = none ∧ party.client.aborted = false)).mpr
          ⟨⟨stopped.trans (running bev).1, ?_⟩, fun other _ => running other⟩
      rw [client, act_aborted]
      exact (running bev).2

/-- In every careful run in which no client asks for a login twice, from any
state that the server reaches before, every client is served: what it types is
handled in the order in which it was typed, and it reads what it is due in the
order in which the server handles messages. -/
theorem serves_in_order {clock : Nat -> Int} {setup : List World.Event} {world : World}
    (reached : Run.after World.step (World.start clock) setup = some world) {events : List Event}
    (careful : Run.Guarded step (fun network event => Careful network event ∧ LogsInOnce network event)
      (start world) events) :
    Run.Always step Faithful (start world) events := by
  have always := @Run.invariant_guarded _ _ step (fun network => Consistent network ∧ Running network)
    (fun network event => Careful network event ∧ LogsInOnce network event) (start world)
    ⟨consistent_start reached, fun _ => ⟨rfl, rfl⟩⟩
    (fun _ _ _ holds met taken =>
      ⟨holds.1.step met.1 taken, holds.2.step holds.1 met.1 met.2 taken⟩) events careful
  exact always.mono (fun _ holds bev => ⟨(holds.1.inStep bev).relays, (holds.2 bev).1⟩)

/-! ## A session -/

/-- A sufficient test for messages in ASCII. -/
def sendableTest (message : Message) : Bool :=
  decide message.msg.Terminated && decide message.senderName.Terminated &&
    (message.msg.text ++ message.senderName.text).all (fun byte => Nat.blt byte.toNat 0x80) &&
    [message.msgId, message.groupId, message.sendTime].all
      (fun number => Nat.ble number.natAbs (2 ^ 53)) &&
    (message.type == MessageType.login.code || message.type == MessageType.text.code) &&
    !message.msgString.isEmpty && decide (0 < message.sendTime) &&
    Nat.blt message.packMessage.length maxBuff

theorem sendable_of_test {message : Message} (passed : sendableTest message = true) :
    message.Sendable := by
  simp only [sendableTest, Bool.and_eq_true, Bool.or_eq_true, decide_eq_true_eq, List.all_eq_true,
    Nat.blt_eq, Nat.ble_eq, beq_iff_eq, Bool.not_eq_true', List.isEmpty_eq_false_iff] at passed
  rcases passed with ⟨⟨⟨⟨⟨⟨⟨msg, sender⟩, plain⟩, numbers⟩, type⟩, nonempty⟩, stamped⟩, fits⟩
  have exactly : forall number, number ∈ [message.msgId, message.groupId, message.sendTime] ->
      |number| ≤ 2 ^ 53 := by
    intro number member
    have bound := numbers number member
    rw [Int.abs_eq_natAbs]
    exact_mod_cast bound
  refine ⟨⟨msg, sender, ?_, ?_, exactly _ (by simp), exactly _ (by simp), exactly _ (by simp), ?_⟩,
    nonempty, stamped, fits⟩
  · exact Parson.utf8_of_ascii (fun byte member => plain byte (List.mem_append_left _ member))
  · exact Parson.utf8_of_ascii (fun byte member => plain byte (List.mem_append_right _ member))
  · exact type.elim (fun isLogin => ⟨.login, isLogin⟩) (fun isText => ⟨.text, isText⟩)

/-- A sufficient test for events of which the messages are in ASCII. -/
def carefulTest (network : Network) : Event -> Bool
  | .manage _ => true
  | .stdin bev typed =>
      match (network.parties bev).client.stdinCb typed with
      | .error _ => false
      | .ok (_, sent) => sent.all sendableTest
  | .serve bev count _ _ => decide (count = (cstr (network.parties bev).toServer).length + 1)
  | .arrive bev count _ =>
      decide (maxBuff ≤ (network.parties bev).input.length + count ∧
        (count = (network.parties bev).toClient.length ->
          (network.parties bev).input.length + count = maxBuff))

theorem careful_of_test {network : Network} {event : Event}
    (passed : carefulTest network event = true) : Careful network event := by
  cases event with
  | manage event => trivial
  | stdin bev typed =>
      simp only [carefulTest] at passed
      split at passed
      · cases passed
      · next client sent ran =>
          refine ⟨client, sent, ran, fun message isSent => ?_⟩
          rw [isSent] at passed
          exact sendable_of_test passed
  | serve bev count buf arrays =>
      rw [carefulTest, decide_eq_true_eq] at passed
      exact passed
  | arrive bev count behind =>
      rw [carefulTest, decide_eq_true_eq] at passed
      exact passed

/-- A test for events in which nobody asks for a login again. -/
def logsInOnceTest (network : Network) : Event -> Bool
  | .stdin bev typed => !(network.parties bev).client.passwordFreed ||
      ((network.parties bev).client.stdinCb typed).toOption.all
        (fun called => called.2.all (fun message => message.type != MessageType.login.code))
  | .manage _ | .serve _ _ _ _ | .arrive _ _ _ => true

theorem logsInOnce_of_test {network : Network} {event : Event}
    (passed : logsInOnceTest network event = true) : LogsInOnce network event := by
  cases event with
  | manage | serve | arrive => trivial
  | stdin bev typed =>
      intro client message ran isLogin
      simp only [logsInOnceTest, ran, Except.toOption, Option.all_some, isLogin, bne_self_eq_false,
        Bool.or_false, Bool.not_eq_true'] at passed
      exact passed

/-- Two users are registered and have a chatroom. -/
def roomSetup : List World.Event :=
  [.accept 5, .accept 6, .accept 7, arrival ⟨2, 7⟩ (request .register 0 "bob secret"),
    arrival ⟨2, 7⟩ (request .register 0 "eve secret"), .createChatroom 1 2]

/-- A user asks for a login with this name. -/
def typedLogin (name : String) : Client.Typed where
  line := ascii "1"
  username := ascii name
  password := ascii "secret"
  noticed := true
  chatroomId := 0
  textTime := 1
  sendTime := 1

/-- What is sent for it. -/
def loginMessage (name : String) : Message :=
  { Message.newMessgae with
    msg := CharArray.strncpy maxMsgData (ascii name ++ ascii " secret 1")
    senderName := CharArray.strncpy maxChars (ascii name)
    sendTime := 1
    type := MessageType.login.code }

/-- A user types a greeting for the chatroom. -/
def typedGreeting : Client.Typed where
  line := ascii "1:hello"
  username := []
  password := []
  noticed := true
  chatroomId := 0
  textTime := 1
  sendTime := 1

/-- What the first user sends for it. -/
def greeting : Message :=
  { Message.newMessgae with
    msg := CharArray.strncpy maxMsgData (ascii "hello")
    senderName := CharArray.strncpy maxChars (ascii "bob")
    sendTime := 1
    groupId := 1
    type := MessageType.text.code }

/-- The server reads one message and passes what it packs on, with zeros
behind it. -/
def serveOne (bev : Bufferevent) (message : Message) (packed : List (Bufferevent × Message)) :
    Event :=
  .serve bev (Framing.block message).length (List.replicate maxBuff 0)
    (packed.map (fun write => (write.1, Blocks.block write.2 (Blocks.zeros write.2))))

/-- Both users log in, and one of them greets the other. -/
def session : List Event :=
  [.stdin ⟨0, 5⟩ (typedLogin "bob"),
    serveOne ⟨0, 5⟩ (loginMessage "bob")
      [(⟨0, 5⟩, answering (loginMessage "bob") .login 1)],
    .arrive ⟨0, 5⟩ maxBuff [],
    .stdin ⟨1, 6⟩ (typedLogin "eve"),
    serveOne ⟨1, 6⟩ (loginMessage "eve")
      [(⟨1, 6⟩, answering (loginMessage "eve") .login 2)],
    .arrive ⟨1, 6⟩ maxBuff [],
    .stdin ⟨0, 5⟩ typedGreeting,
    serveOne ⟨0, 5⟩ greeting [(⟨1, 6⟩, greeting)],
    .arrive ⟨1, 6⟩ maxBuff []]

/-- The session is careful, nobody logs in twice, and it ends when the greeting
has been read. -/
theorem session_careful : Exists fun world =>
    Run.after World.step (World.start (fun _ => 0)) roomSetup = some world ∧
      Run.Guarded step (fun network event => Careful network event ∧ LogsInOnce network event)
        (start world) session ∧
      Run.Guarded step Careful (start world) session ∧
      Exists fun network => Run.after step (start world) session = some network ∧
        greeting ∈ (network.parties ⟨1, 6⟩).read := by
  have facts : (Run.after World.step (World.start (fun _ => 0)) roomSetup).map (fun world =>
      (Run.check step (fun network event => carefulTest network event && logsInOnceTest network event)
          (start world) session,
        (Run.after step (start world) session).map
          (fun network => decide (greeting ∈ (network.parties ⟨1, 6⟩).read)))) =
      some (true, some true) := by
    decide +kernel
  rcases Option.map_eq_some_iff.mp facts with ⟨world, reached, both⟩
  rw [Prod.mk.injEq, Option.map_eq_some_iff] at both
  rcases both with ⟨checked, network, leads, isRead⟩
  have guarded := @Run.guarded_of_check _ _ step (fun _ => True)
    (fun network event => Careful network event ∧ LogsInOnce network event) _ (start world) trivial
    (fun _ _ _ _ _ => trivial)
    (fun _ _ _ passed =>
      (Bool.and_eq_true_iff.mp passed).imp careful_of_test logsInOnce_of_test) session checked
  have careful := @Run.Guarded.mono _ _ step (fun _ => True) _ Careful (start world) trivial
    (fun _ _ _ _ _ _ => trivial) (fun _ _ _ met => met.1) session guarded
  exact ⟨world, reached, guarded, careful, network, leads, of_decide_eq_true isRead⟩

theorem serves_in_order_session : Exists fun world =>
    Run.after World.step (World.start (fun _ => 0)) roomSetup = some world ∧
      Run.Always step Faithful (start world) session := by
  rcases session_careful with ⟨world, reached, guarded, _⟩
  exact ⟨world, reached, serves_in_order reached guarded⟩

end Network
end ChatHub
