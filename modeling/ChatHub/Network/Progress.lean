import ChatHub.Network.Order
import ChatHub.Server.Survival

namespace ChatHub

/-!
# What is handled next

A client whose message waits is served unless the server does not survive the
message.  Nothing else can hold it up: the bytes are there, and arrays for
everything that is written can be passed on.
-/

namespace Network

open World

/-- The server can be invoked on the block of the message that a client typed
first among those that wait. -/
def CanServe (network : Network) (bev : Bufferevent) : Prop :=
  Exists fun count => Exists fun buf => Exists fun arrays =>
    Careful network (.serve bev count buf arrays) ∧
      (step network (.serve bev count buf arrays)).isSome = true

/-- A text with zeros behind its NUL, or as much of it as fits. -/
def arrayOf (write : Write) : Bufferevent × Bytes :=
  (write.bev, (write.json ++ [0]).take write.size ++
    List.replicate (write.size - ((write.json ++ [0]).take write.size).length) 0)

theorem passed_arrayOf (write : Write) : Passed write (arrayOf write) := by
  refine ⟨rfl, ?_, List.prefix_append _ _⟩
  have short := List.length_take_le write.size (write.json ++ [0])
  unfold arrayOf
  simp only [List.length_append, List.length_replicate]
  omega

theorem passed_arrays (writes : List Write) :
    List.Forall₂ Passed writes (writes.map arrayOf) := by
  rw [List.forall₂_map_right_iff]
  exact List.forall₂_same.mpr (fun write _ => passed_arrayOf write)

/-- In a consistent state, the first message that waits can be handled if it
is survivable. -/
theorem Consistent.canServe_iff {network : Network} (consistent : Consistent network)
    {bev : Bufferevent} (isOpen : bev ∈ network.world.conns.opened)
    (waits : (network.parties bev).toServer ≠ []) :
    Exists fun message => Exists fun rest =>
      (network.parties bev).typed = handledFrom bev network.history ++ message :: rest ∧
        (CanServe network bev <-> Survival.Survivable network.world bev message) := by
  rcases (consistent.inStep bev).handles waits with ⟨available, message, rest, _, typed, _, decodes⟩
  refine ⟨message, rest, typed, ?_⟩
  rw [← Survival.handleAllMessage_returns_iff consistent.kept consistent.sane isOpen]
  constructor
  · rintro ⟨count, buf, arrays, oneBlock, isStep⟩
    rcases Option.isSome_iff_exists.mp isStep with ⟨next, taken⟩
    rcases step_serve taken with ⟨_, _, world, reading, _⟩
    have received := decodes buf
    rw [← show count = _ from oneBlock] at received
    have ran := reading.ran
    rw [perform_readcb consistent.sane isOpen received] at ran
    exact Option.isSome_of_eq_some ran
  · intro returns
    rcases Option.isSome_iff_exists.mp returns with ⟨world, ran⟩
    let buf : Bytes := List.replicate maxBuff 0
    rw [← perform_readcb consistent.sane isOpen (decodes buf)] at ran
    have reads : World.step network.world (.read bev buf ((network.parties bev).toServer.take
        ((cstr (network.parties bev).toServer).length + 1))) = some world := by
      simp only [World.step]
      rw [if_pos ⟨isOpen, Nat.le_of_eq List.length_replicate.symm⟩]
      exact ran
    refine ⟨_, buf, (world.written.drop network.world.written.length).map arrayOf, rfl, ?_⟩
    unfold Network.step
    simp only [reads]
    rw [if_pos ⟨Nat.succ_pos _, available, passed_arrays _⟩]
    rfl

/-- In every state of a careful run, what an open connection typed first among
the messages that wait can be handled if and only if the server survives it. -/
theorem next_served_iff {clock : Nat -> Int} {setup : List World.Event} {world : World}
    (reached : Run.after World.step (World.start clock) setup = some world) {events : List Event}
    (careful : Run.Guarded step Careful (start world) events) :
    Run.Always step (fun network => forall bev, bev ∈ network.world.conns.opened ->
      (network.parties bev).toServer ≠ [] -> Exists fun message => Exists fun rest =>
        (network.parties bev).typed = handledFrom bev network.history ++ message :: rest ∧
          (CanServe network bev <-> Survival.Survivable network.world bev message))
      (start world) events :=
  (always_consistent reached careful).mono
    (fun _ consistent _ isOpen waits => consistent.canServe_iff isOpen waits)

theorem next_served_iff_session : Exists fun world =>
    Run.after World.step (World.start (fun _ => 0)) roomSetup = some world ∧
      Run.Always step (fun network => forall bev, bev ∈ network.world.conns.opened ->
        (network.parties bev).toServer ≠ [] -> Exists fun message => Exists fun rest =>
          (network.parties bev).typed = handledFrom bev network.history ++ message :: rest ∧
            (CanServe network bev <-> Survival.Survivable network.world bev message))
        (start world) session := by
  rcases session_careful with ⟨world, reached, _, careful, _⟩
  exact ⟨world, reached, next_served_iff reached careful⟩

end Network
end ChatHub
