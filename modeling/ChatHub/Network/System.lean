import Mathlib.Data.List.Forall2
import ChatHub.Client.Blocks
import ChatHub.Server.Written

namespace ChatHub

/-!
# Clients and server together

The server, a client on every connection, and the bytes on their way between
them.  A client sends the blocks that `stdin_cb` passes to
`bufferevent_write`.  The server is invoked on some of the bytes that a client
sent, and passes arrays on, which begin with what it packed.  A client is invoked when
some of the bytes for it have arrived.  A call that aborts sends nothing, and
what earlier calls sent is on its way.

The network also remembers which messages the server handled, in their order,
and what every client typed and read.  Nothing in the programs reads that.
-/

/-- One end of a connection: a client, and the bytes from and to it. -/
structure Party where
  client : Client
  /-- the messages that `stdin_cb` passed to `bufferevent_write` -/
  typed : List Message
  /-- the bytes that the server has not read yet -/
  toServer : Bytes
  /-- the bytes that have not arrived at the client yet -/
  toClient : Bytes
  /-- the bytes that have arrived and that `read_cb` has not taken yet -/
  input : Bytes
  /-- the messages that `read_cb` decoded -/
  read : List Message
  /-- the fault at which the client stopped -/
  stopped : Option Fault

/-- The server and all clients. -/
structure Network where
  world : World
  parties : Bufferevent -> Party
  /-- the messages that the server handled, in their order -/
  history : List World.Handled

namespace Party

/-- The client has just connected. -/
def start : Party where
  client := Client.start
  typed := []
  toServer := []
  toClient := []
  input := []
  read := []
  stopped := none

/-- `stdin_cb` -/
def stdin (party : Party) (typed : Client.Typed) : Party :=
  match party.client.onInput typed with
  | .error fault => { party with stopped := some fault }
  | .ok (client, sent) =>
      { party with
        client := client
        typed := party.typed ++ sent.toList
        toServer := party.toServer ++ sent.toList.flatMap Framing.block }

/-- The next bytes have arrived. -/
def moved (party : Party) (count : Nat) : Party :=
  { party with
    toClient := party.toClient.drop count, input := party.input ++ party.toClient.take count }

/-- `read_cb` on the bytes that wait. -/
def receive (party : Party) (behind : Bytes) : Party :=
  match party.client.readCb behind party.input with
  | .error fault => { party with stopped := some fault }
  | .ok (client, rest) =>
      { party with
        client := client
        input := rest
        read := party.read ++ (Client.decode behind party.input).toOption.toList }

/-- A call that aborts stops the client, and any other call that returns sends
its message. -/
theorem stdin_cases {party : Party} {typed : Client.Typed} {client : Client} {sent : Option Message}
    (ran : party.client.stdinCb typed = .ok (client, sent)) :
    (client.aborted = true ∧ party.stdin typed = { party with stopped := some .useAfterFree }) ∨
    (client.aborted = false ∧ party.stdin typed =
      { party with
        client := client
        typed := party.typed ++ sent.toList
        toServer := party.toServer ++ sent.toList.flatMap Framing.block }) := by
  unfold stdin Client.onInput
  rw [ran]
  cases aborts : client.aborted with
  | true =>
      left
      simp only [bind, Except.bind, aborts, if_true, and_self]
  | false =>
      right
      simp only [bind, Except.bind, aborts, Bool.false_eq_true, if_false, pure, Except.pure, and_self]

/-- A client acts on what it decodes. -/
theorem receive_ok {party : Party} {behind : Bytes} {message : Message}
    (decodes : Client.decode behind party.input = .ok message) :
    party.receive behind =
      { party with
        client := party.client.act message
        input := party.input.drop maxBuff
        read := party.read ++ [message] } := by
  unfold receive Client.readCb
  rw [decodes]
  rfl

/-- What the server passed on is on its way. -/
def send (party : Party) (arrays : List Bytes) : Party :=
  { party with toClient := party.toClient ++ arrays.flatten }

end Party

namespace Network

open World

/-- Nobody has typed anything yet. -/
def start (world : World) : Network where
  world := world
  parties := fun _ => Party.start
  history := []

/-- What happens: the server does something else than reading, a user types,
the server reads from a connection, with some content of its array and the
memory behind it, and passes arrays on, or bytes arrive at a client, with some
memory behind its array. -/
inductive Event where
  | manage (event : World.Event)
  | stdin (bev : Bufferevent) (typed : Client.Typed)
  | serve (bev : Bufferevent) (count : Nat) (buf : Bytes) (arrays : List (Bufferevent × Bytes))
  | arrive (bev : Bufferevent) (count : Nat) (behind : Bytes)

/-- The event is no invocation of `readcb`. -/
def Manages : World.Event -> Prop
  | .read _ _ _ => False
  | _ => True

instance : DecidablePred Manages
  | .read _ _ _ => isFalse id
  | .accept _ | .close _ | .createChatroom _ _ | .leaveChatrooom _ _ | .delChatrooom _ =>
      isTrue trivial

/-- `bufferevent_write(bev, json, size)`: the array of this size begins with
the text and its NUL, as far as they fit. -/
def Passed (write : Write) (array : Bufferevent × Bytes) : Prop :=
  array.1 = write.bev ∧ array.2.length = write.size ∧
    (write.json ++ [0]).take write.size <+: array.2

instance (write : Write) (array : Bufferevent × Bytes) : Decidable (Passed write array) :=
  inferInstanceAs (Decidable (_ ∧ _ ∧ _))

/-- What `readcb` handles of these bytes. -/
def handledBy (world next : World) (bev : Bufferevent) (buf input : Bytes) : List Handled :=
  match Framing.received buf input with
  | .ok (some message) => [⟨bev, message, world, next⟩]
  | _ => []

/-- `readcb` on the next bytes of a connection, when the server is in this
world afterwards. -/
def served (network : Network) (bev : Bufferevent) (count : Nat) (buf : Bytes)
    (arrays : List (Bufferevent × Bytes)) (next : World) : Network where
  world := next
  parties := fun other =>
    { (network.parties other).send (addressed other arrays) with
      toServer :=
        if other = bev then (network.parties bev).toServer.drop count
        else (network.parties other).toServer }
  history := network.history ++
    handledBy network.world next bev buf ((network.parties bev).toServer.take count)

/-- One event.  There is no next state after a fault of the server; a client
with a fault stops. -/
def step (network : Network) : Event -> Option Network
  | .manage event =>
      if Manages event then
        (World.step network.world event).map (fun next => { network with world := next })
      else none
  | .stdin bev typed =>
      if (network.parties bev).stopped = none then
        some { network with
          parties := Function.update network.parties bev ((network.parties bev).stdin typed) }
      else none
  | .serve bev count buf arrays =>
      match World.step network.world (.read bev buf ((network.parties bev).toServer.take count)) with
      | none => none
      | some next =>
          if 0 < count ∧ count ≤ (network.parties bev).toServer.length ∧
              List.Forall₂ Passed (next.written.drop network.world.written.length) arrays then
            some (network.served bev count buf arrays next)
          else none
  | .arrive bev count behind =>
      if (network.parties bev).stopped = none ∧ 0 < count ∧
          count ≤ (network.parties bev).toClient.length then
        some { network with
          parties := Function.update network.parties bev
            (((network.parties bev).moved count).receive behind) }
      else none

/-! ## What an event does -/

section Step

variable {network next : Network} {bev : Bufferevent}

theorem step_manage {event : World.Event} (taken : step network (.manage event) = some next) :
    Manages event ∧ Exists fun world => World.step network.world event = some world ∧
      next = { network with world := world } := by
  simp only [step, Option.ite_none_right_eq_some, Option.map_eq_some_iff] at taken
  rcases taken with ⟨manages, world, changed, same⟩
  exact ⟨manages, world, changed, same.symm⟩

theorem step_stdin {typed : Client.Typed} (taken : step network (.stdin bev typed) = some next) :
    next = { network with
      parties := Function.update network.parties bev ((network.parties bev).stdin typed) } := by
  simp only [step, Option.ite_none_right_eq_some, Option.some.injEq] at taken
  exact taken.2.symm

theorem step_arrive {count : Nat} {behind : Bytes}
    (taken : step network (.arrive bev count behind) = some next) :
    count ≤ (network.parties bev).toClient.length ∧
      next = { network with
        parties := Function.update network.parties bev
          (((network.parties bev).moved count).receive behind) } := by
  simp only [step, Option.ite_none_right_eq_some, Option.some.injEq] at taken
  exact ⟨taken.1.2.2, taken.2.symm⟩

end Step

end Network
end ChatHub
