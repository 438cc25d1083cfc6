import ChatHub.Server.Delivery

namespace ChatHub

/-!
# Who receives a room's messages

A chat message goes to the connections that the descriptors in the members'
records lead to.  A record names the connection of a login until the next
login or logout of that user, also when the connection has ended, and the
kernel hands its descriptor out again.  Along runs in which that does not
happen, and in which the client table never keeps a freed bufferevent, a
room's messages reach only connections on which a member logged in.
-/

namespace World

/-- Nothing that `handleChat` does with a message in this world leaves the
room: no freed bufferevent is used, and whatever is written goes to an open
connection on which a member of the chatroom logged in. -/
def Confidential (world : World) : Prop :=
  forall sender, sender ∈ world.conns.opened -> forall message : Message,
    (handleChat sender message world).1 ≠ .error .useAfterFree ∧
    Exists fun copies =>
      (handleChat sender message world).2.written = world.written ++ copies ∧
      forall write, write ∈ copies -> write.bev ∈ world.conns.opened ∧
        Exists fun userId => Dao.Member world.db.store message.groupId userId ∧
          (write.bev, userId) ∈ world.logins

/-- No record names the descriptor of a new connection, and a closing
connection is found in the client table. -/
def Careful (world : World) : Event -> Prop
  | .accept fd => forall userId, Dao.positiveSockfd world.db.store userId ≠ some fd
  | .close bev => world.conns.CloseFindsSlot (.close bev)
  | _ => True

/-- A record that names the descriptor of an open connection does so because
of a login on that connection. -/
structure Traced (world : World) : Prop where
  sound : world.conns.Sound
  login : forall userId fd, Dao.positiveSockfd world.db.store userId = some fd ->
    forall bev, bev ∈ world.conns.opened -> bev.fd = fd -> (bev, userId) ∈ world.logins

theorem traced_start (clock : Nat -> Int) : Traced (start clock) where
  sound := Clients.sound_init (by decide)
  login := fun _ _ _ _ member => absurd member List.not_mem_nil

theorem Traced.ordinary {world next : World} (traced : Traced world) (sane : Sane world)
    (change : OrdinaryChange world next) : Traced next := by
  refine ⟨?_, fun userId fd positive => ?_⟩
  · rw [change.conns]
    exact traced.sound
  · rw [change.conns, change.logins]
    exact traced.login userId fd (change.named sane.records positive)

theorem Traced.recordLogin {world next : World} (traced : Traced world) (sane : Sane world)
    {this : Bufferevent} {userId : Int} (isOpen : this ∈ world.conns.opened)
    (change : LoginChange world next this userId) : Traced next := by
  refine ⟨?_, ?_⟩
  · rw [change.conns]
    exact traced.sound
  · intro other fd positive bev isOpenBev sameFd
    rw [change.conns] at isOpenBev
    rw [change.logins]
    rcases change.named sane isOpen positive with before | ⟨isUser, isThis⟩
    · exact List.mem_cons_of_mem _ (traced.login other fd before bev isOpenBev sameFd)
    · rw [sane.distinct.sameFd bev this isOpenBev isOpen (sameFd.trans isThis), isUser]
      exact List.mem_cons_self

theorem Traced.accept {world next : World} (traced : Traced world) {fd : Int}
    (unnamed : Careful world (.accept fd))
    (taken : world.conns.step (.accept fd) = some next.conns)
    (same : next = { world with conns := next.conns }) : Traced next := by
  have sound := traced.sound.accept taken
  rcases Clients.step_accept taken with ⟨_, clients', _, conns⟩
  rw [same]
  refine ⟨sound, ?_⟩
  intro userId other positive bev isOpen sameFd
  rw [conns] at isOpen
  rcases List.mem_cons.mp isOpen with new | old
  · rw [← sameFd, new] at positive
    exact absurd positive (unnamed userId)
  · exact traced.login userId other positive bev old sameFd

theorem Traced.close {world next : World} (traced : Traced world) {bev : Bufferevent}
    (finds : Careful world (.close bev))
    (taken : world.conns.step (.close bev) = some next.conns)
    (same : next = { world with conns := next.conns }) : Traced next := by
  have sound := traced.sound.close finds taken
  rcases Clients.step_close taken with ⟨_, value, clients', _, conns⟩
  rw [same]
  refine ⟨sound, ?_⟩
  intro userId fd positive other isOpen sameFd
  rw [conns] at isOpen
  exact traced.login userId fd positive other (List.mem_of_mem_erase isOpen) sameFd

theorem Traced.step {world next : World} {event : Event} (traced : Traced world)
    (sane : Sane world) (careful : Careful world event)
    (taken : World.step world event = some next) : Traced next := by
  cases step_effect sane.normal taken with
  | ordinary change => exact traced.ordinary sane change
  | login isOpen _ change => exact traced.recordLogin sane isOpen change
  | accept range accepted same => exact traced.accept careful accepted same
  | close closed same => exact traced.close careful closed same

/-- What a descriptor of the room leads to is an open connection on which a
member logged in. -/
theorem Traced.receiver {world : World} (traced : Traced world) (sane : Sane world)
    {chatroomId fd : Int} (inRoom : fd ∈ Dao.roomFds world.db.store chatroomId)
    {bev : Bufferevent} (found : world.conns.clients.hashGet fd = .ok (some bev)) :
    bev ∈ world.conns.opened ∧ Exists fun userId =>
      Dao.Member world.db.store chatroomId userId ∧ (bev, userId) ∈ world.logins := by
  rcases traced.sound.open_of_hashGet found with ⟨isOpen, sameFd⟩
  rcases (Dao.mem_roomFds sane.rooms).mp inRoom with ⟨userId, _, isMember, positive⟩
  exact ⟨isOpen, userId, isMember, traced.login userId fd positive bev isOpen sameFd⟩

theorem Traced.confidential {world : World} (traced : Traced world) (sane : Sane world) :
    Confidential world := by
  intro sender _ message
  by_cases known : forall userId, userId ∈ Dao.roomMembers world.db.store message.groupId ->
      (Dao.sockfdOf world.db.store userId).isSome
  · rcases handleChat_run sane sender known with ⟨db, normal, _, same⟩
    rcases @sendCopies_run { world with db := db } normal sender
      (Dao.roomFds world.db.store message.groupId) message with
      ⟨done, rest, copies, split, _, sent, ending⟩
    rw [same]
    constructor
    · intro freed
      rcases ending with ⟨_, finished⟩ | ⟨fd, fault, inRest, _, stopped, use⟩
      · rw [finished] at freed
        cases freed
      · rw [stopped] at freed
        rcases use (Except.error.inj freed) with ⟨bev, found, notOpen⟩
        have inRoom : fd ∈ Dao.roomFds world.db.store message.groupId := by
          rw [split]
          exact List.mem_append_right _ inRest
        exact notOpen (traced.receiver sane inRoom found).1
    · refine ⟨copies, sent.written, fun write member => ?_⟩
      have isReceiver : write.bev ∈ copies.map Write.bev := List.mem_map_of_mem member
      rw [sent.receivers] at isReceiver
      rcases List.mem_filterMap.mp isReceiver with ⟨fd, inDone, receives⟩
      have inRoom : fd ∈ Dao.roomFds world.db.store message.groupId := by
        rw [split]
        exact List.mem_append_left _ inDone
      exact traced.receiver sane inRoom (receiverOf_eq_some_iff.mp receives).1
  · push Not at known
    rcases known with ⟨userId, member, unknown⟩
    have faulted := handleChat_faults sane sender member (Option.not_isSome_iff_eq_none.mp unknown)
    rw [faulted.1]
    refine ⟨by simp, [], ?_, fun _ member => absurd member List.not_mem_nil⟩
    rw [faulted.2, List.append_nil]

/-- In every run in which no new connection gets a descriptor that a record
names, and in which every closing connection is found in the client table, a
room's messages reach only connections on which a member logged in. -/
theorem confidential_of_careful (clock : Nat -> Int) {events : List Event}
    (careful : Run.Guarded step Careful (start clock) events) :
    Run.Always step Confidential (start clock) events := by
  have kept := @Run.invariant_guarded _ _ step (fun world => Sane world ∧ Traced world) Careful
    (start clock) ⟨sane_start clock, traced_start clock⟩
    (fun world event next holds careful taken =>
      ⟨holds.1.step taken, holds.2.step holds.1 careful taken⟩) events careful
  exact kept.mono (fun world holds => holds.2.confidential holds.1)

/-- Two connections, one of which registers and logs in.  The other one sends
a message to the room. -/
def quietRoom : List Event :=
  [.accept 5, .accept 6, arrival ⟨0, 5⟩ (request .register 0 "bob secret"),
    arrival ⟨0, 5⟩ (request .login 0 "bob secret"), .createChatroom 1 1,
    arrival ⟨1, 6⟩ (request .text 1 "hello")]

/-- A sufficient test for runs in which nothing is closed. -/
def carefulTest (world : World) : Event -> Bool
  | .accept fd => world.unusedFd fd
  | .close _ => false
  | _ => true

theorem careful_of_test {world : World} {event : Event} (sane : Sane world)
    (passed : carefulTest world event = true) : Careful world event := by
  cases event with
  | accept fd => exact sane.not_named passed
  | close bev => cases passed
  | read bev buf input => exact trivial
  | createChatroom userId1 userId2 => exact trivial
  | leaveChatrooom chatroomId username => exact trivial
  | delChatrooom chatroomId => exact trivial

theorem quietRoom_careful : Run.Guarded step Careful (start (fun _ => 0)) quietRoom :=
  Run.guarded_of_check (sane_start (fun _ => 0)) (fun _ _ _ sane taken => sane.step taken)
    (fun _ _ sane passed => careful_of_test sane passed)
    (by decide +kernel : Run.check step carefulTest (start (fun _ => 0)) quietRoom = true)

theorem confidential_of_careful_quietRoom :
    Run.Always step Confidential (start (fun _ => 0)) quietRoom :=
  confidential_of_careful (fun _ => 0) quietRoom_careful

/-- A user logs in and is disconnected, and descriptor 5 is handed out again. -/
def reusedDescriptor : List Event :=
  [.accept 5, arrival ⟨0, 5⟩ (request .register 0 "bob secret"),
    arrival ⟨0, 5⟩ (request .login 0 "bob secret"), .createChatroom 1 1, .close ⟨0, 5⟩,
    .accept 5, .accept 6]

/-- The second connection on descriptor 5, on which nobody has logged in,
receives what is sent to the room. -/
theorem reusedDescriptor_not_confidential :
    Not (Run.Always step Confidential (start (fun _ => 0)) reusedDescriptor) := by
  have reached : (Run.after step (start (fun _ => 0)) reusedDescriptor).map (fun world =>
      (decide (⟨2, 6⟩ ∈ world.conns.opened), world.logins,
        (handleChat ⟨2, 6⟩ (request .text 1 "hello") world).2.written.drop world.written.length
          |>.map Write.bev)) =
      some (true, [(⟨0, 5⟩, 1)], [⟨1, 5⟩]) := by
    decide +kernel
  rcases Option.map_eq_some_iff.mp reached with ⟨world, leads, facts⟩
  rw [Prod.mk.injEq, Prod.mk.injEq, decide_eq_true_eq] at facts
  rcases facts with ⟨isOpen, logins, receivers⟩
  intro always
  rcases (always.finish leads ⟨2, 6⟩ isOpen (request .text 1 "hello")).2 with
    ⟨copies, written, confidential⟩
  rw [written, List.drop_left] at receivers
  have isReceiver : (⟨1, 5⟩ : Bufferevent) ∈ copies.map Write.bev := by
    rw [receivers]
    exact List.mem_singleton_self _
  rcases List.mem_map.mp isReceiver with ⟨write, member, same⟩
  rcases (confidential write member).2 with ⟨userId, _, login⟩
  rw [logins, List.mem_singleton, Prod.mk.injEq] at login
  have serials := congrArg Bufferevent.serial (login.1.symm.trans same)
  exact absurd serials (by decide)

end World
end ChatHub
