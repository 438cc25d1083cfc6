import ChatHub.Server.Delivery

namespace ChatHub

/-!
# Exactly one copy for each recipient

Copies are sent per member and not per connection.  So a recipient gets one
copy exactly if no two members of the chatroom name its descriptor.  A copy
is queued by `bufferevent_write` and leaves the program after the handler has
returned, which therefore is a part of delivery.

Whether two members can name one descriptor is decided by the logins: a
login leaves the descriptor in every other record that names it.
-/

namespace World

open ChatHub.Action

/-- The connection gets a message to the chatroom: a descriptor of a member
leads to it, and it is not the sender. -/
def Recipient (world : World) (sender : Bufferevent) (chatroomId : Int) (bev : Bufferevent) : Prop :=
  bev ≠ sender ∧ Exists fun userId => Exists fun fd =>
    Dao.Member world.db.store chatroomId userId ∧
    Dao.positiveSockfd world.db.store userId = some fd ∧
    world.conns.clients.hashGet fd = .ok (some bev)

/-- The handler returns, every recipient was written one copy, and no other
connection was written anything. -/
def ExactlyOnce (world : World) (sender : Bufferevent) (message : Message) : Prop :=
  (handleChat sender message world).1 = .ok () ∧ Exists fun copies =>
    (handleChat sender message world).2.written = world.written ++ copies ∧
    (forall entry, entry ∈ copies -> IsCopy message entry.json) ∧
    forall bev,
      (Recipient world sender message.groupId bev -> (copies.map Write.bev).count bev = 1) ∧
      (Not (Recipient world sender message.groupId bev) -> (copies.map Write.bev).count bev = 0)

/-- Every member of the chatroom has logged in. -/
def MembersLoggedIn (world : World) (chatroomId : Int) : Prop :=
  forall userId, Dao.Member world.db.store chatroomId userId ->
    Exists fun bev => (bev, userId) ∈ world.logins

/-- The handler gets past the descriptor of every member, and no two members
name a descriptor that leads to a connection other than the sender. -/
structure OneEach (world : World) (sender : Bufferevent) (chatroomId : Int) : Prop where
  deliverable : forall userId fd, Dao.Member world.db.store chatroomId userId ->
    Dao.positiveSockfd world.db.store userId = some fd -> Deliverable world.conns sender fd
  unshared : forall left right fd bev, Dao.Member world.db.store chatroomId left ->
    Dao.Member world.db.store chatroomId right ->
    Dao.positiveSockfd world.db.store left = some fd ->
    Dao.positiveSockfd world.db.store right = some fd ->
    world.conns.clients.hashGet fd = .ok (some bev) -> bev ≠ sender -> left = right

/-! ## The members that are looked up -/

section Members

variable {world : World} {chatroomId : Int}

theorem member_iff_looked_up (sane : Sane world) (loggedIn : MembersLoggedIn world chatroomId)
    (userId : Int) : userId ∈ Dao.roomMembers world.db.store chatroomId <->
      Dao.Member world.db.store chatroomId userId := by
  rw [Dao.mem_roomMembers sane.rooms]
  constructor
  · exact fun both => both.2
  · intro isMember
    refine ⟨?_, isMember⟩
    rcases loggedIn userId isMember with ⟨bev, login⟩
    have positive := (sane.loggedIn bev userId login).1
    rcases isMember with ⟨set, holds, inSet⟩
    rcases Dao.rooms_setAt sane.rooms holds _ inSet with ⟨other, same, isUser⟩
    rw [← intText_injective same] at isUser
    rwa [toInt32_eq_self isUser.1 isUser.2] at positive

theorem looked_up_known (sane : Sane world) (loggedIn : MembersLoggedIn world chatroomId) :
    forall userId, userId ∈ Dao.roomMembers world.db.store chatroomId ->
      (Dao.sockfdOf world.db.store userId).isSome := by
  intro userId lookedUp
  rcases loggedIn userId ((member_iff_looked_up sane loggedIn userId).mp lookedUp) with ⟨bev, login⟩
  exact (sane.loggedIn bev userId login).2

/-- The connection that a member's descriptor leads to. -/
def reaches (world : World) (sender : Bufferevent) (userId : Int) : Option Bufferevent :=
  (Dao.positiveSockfd world.db.store userId).bind (receiverOf world.conns sender)

theorem reaches_eq_some_iff {sender bev : Bufferevent} {userId : Int} :
    reaches world sender userId = some bev <-> bev ≠ sender ∧ Exists fun fd =>
      Dao.positiveSockfd world.db.store userId = some fd ∧
      world.conns.clients.hashGet fd = .ok (some bev) := by
  unfold reaches
  rw [Option.bind_eq_some_iff]
  constructor
  · rintro ⟨fd, positive, receives⟩
    rcases receiverOf_eq_some_iff.mp receives with ⟨found, notSender⟩
    exact ⟨notSender, fd, positive, found⟩
  · rintro ⟨notSender, fd, positive, found⟩
    exact ⟨fd, positive, receiverOf_eq_some_iff.mpr ⟨found, notSender⟩⟩

/-- A connection is written to once for every member that reaches it. -/
theorem count_receivers (world : World) (sender : Bufferevent) (chatroomId : Int)
    (bev : Bufferevent) :
    ((Dao.roomFds world.db.store chatroomId).filterMap (receiverOf world.conns sender)).count bev =
      (Dao.roomMembers world.db.store chatroomId).countP
        (fun userId => reaches world sender userId == some bev) := by
  unfold Dao.roomFds
  rw [List.filterMap_filterMap, List.count_filterMap]
  rfl

theorem recipient_iff (sane : Sane world) (loggedIn : MembersLoggedIn world chatroomId)
    (sender bev : Bufferevent) :
    Recipient world sender chatroomId bev <-> Exists fun userId =>
      userId ∈ Dao.roomMembers world.db.store chatroomId ∧
      reaches world sender userId = some bev := by
  constructor
  · rintro ⟨notSender, userId, fd, isMember, positive, found⟩
    exact ⟨userId, (member_iff_looked_up sane loggedIn userId).mpr isMember,
      reaches_eq_some_iff.mpr ⟨notSender, fd, positive, found⟩⟩
  · rintro ⟨userId, lookedUp, reached⟩
    rcases reaches_eq_some_iff.mp reached with ⟨notSender, fd, positive, found⟩
    exact ⟨notSender, userId, fd, (member_iff_looked_up sane loggedIn userId).mp lookedUp,
      positive, found⟩

end Members

/-! ## One member for each recipient -/

section Counting

variable {Element : Type}

theorem countP_eq_one [DecidableEq Element] {elements : List Element} (nodup : elements.Nodup)
    {holds : Element -> Bool} {element : Element} (member : element ∈ elements)
    (isOne : holds element = true)
    (only : forall other, other ∈ elements -> holds other = true -> other = element) :
    elements.countP holds = 1 := by
  have same : elements.countP holds = elements.count element := by
    apply List.countP_congr
    intro other isMember
    constructor
    · intro isHolds
      rw [only other isMember isHolds]
      exact beq_self_eq_true element
    · intro isElement
      rw [eq_of_beq isElement]
      exact isOne
  rw [same]
  exact List.count_eq_one_of_mem nodup member

theorem eq_of_countP_eq_one {elements : List Element} {holds : Element -> Bool}
    (one : elements.countP holds = 1) {left right : Element} (leftMember : left ∈ elements)
    (rightMember : right ∈ elements) (leftHolds : holds left = true)
    (rightHolds : holds right = true) : left = right := by
  rw [List.countP_eq_length_filter] at one
  rcases List.length_eq_one_iff.mp one with ⟨only, same⟩
  have isOnly : forall element, element ∈ elements -> holds element = true -> element = only := by
    intro element member isHolds
    have inFilter := List.mem_filter.mpr ⟨member, isHolds⟩
    rw [same] at inFilter
    exact List.mem_singleton.mp inFilter
  exact (isOnly left leftMember leftHolds).trans (isOnly right rightMember rightHolds).symm

end Counting

/-- Without duplicates, one member reaches every recipient. -/
theorem count_eq_one {world : World} {sender : Bufferevent} {chatroomId : Int} (sane : Sane world)
    (loggedIn : MembersLoggedIn world chatroomId) (oneEach : OneEach world sender chatroomId)
    {bev : Bufferevent} (isRecipient : Recipient world sender chatroomId bev) :
    ((Dao.roomFds world.db.store chatroomId).filterMap (receiverOf world.conns sender)).count bev =
      1 := by
  rw [count_receivers]
  rcases (recipient_iff sane loggedIn sender bev).mp isRecipient with ⟨userId, lookedUp, reached⟩
  apply countP_eq_one (Dao.roomMembers_nodup sane.rooms chatroomId) lookedUp
  · simp only [reached, beq_self_eq_true]
  · intro other otherLookedUp otherReaches
    rcases reaches_eq_some_iff.mp reached with ⟨notSender, fd, positive, found⟩
    rcases reaches_eq_some_iff.mp (eq_of_beq otherReaches) with ⟨_, otherFd, otherPositive, otherFound⟩
    -- a connection is found under its own descriptor only
    have sameFd : otherFd = fd :=
      (sane.keyed.fd_of_hashGet otherFound).symm.trans (sane.keyed.fd_of_hashGet found)
    rw [sameFd] at otherPositive
    exact oneEach.unshared other userId fd bev
      ((member_iff_looked_up sane loggedIn other).mp otherLookedUp)
      ((member_iff_looked_up sane loggedIn userId).mp lookedUp) otherPositive positive found notSender

theorem count_eq_zero {world : World} {sender : Bufferevent} {chatroomId : Int} (sane : Sane world)
    (loggedIn : MembersLoggedIn world chatroomId) {bev : Bufferevent}
    (noRecipient : Not (Recipient world sender chatroomId bev)) :
    ((Dao.roomFds world.db.store chatroomId).filterMap (receiverOf world.conns sender)).count bev =
      0 := by
  rw [count_receivers, List.countP_eq_zero]
  intro userId lookedUp reached
  exact noRecipient ((recipient_iff sane loggedIn sender bev).mpr
    ⟨userId, lookedUp, eq_of_beq reached⟩)

/-! ## When delivery is exactly once -/

/-- The handler returns exactly if the loop gets past every descriptor, and
has then written one copy for each of them. -/
theorem handleChat_returns {world : World} (sane : Sane world) (sender : Bufferevent)
    {message : Message}
    (known : forall userId, userId ∈ Dao.roomMembers world.db.store message.groupId ->
      (Dao.sockfdOf world.db.store userId).isSome) :
    ((handleChat sender message world).1 = .ok () <->
      forall fd, fd ∈ Dao.roomFds world.db.store message.groupId ->
        Deliverable world.conns sender fd) ∧
    ((handleChat sender message world).1 = .ok () -> Exists fun copies =>
      Sent world (handleChat sender message world).2 sender
        (Dao.roomFds world.db.store message.groupId) message copies) := by
  rcases handleChat_run sane sender known with ⟨db, normal, _, same⟩
  rcases @sendCopies_run { world with db := db } normal sender
    (Dao.roomFds world.db.store message.groupId) message with
    ⟨done, rest, copies, split, deliverable, sent, ending⟩
  rw [same]
  rcases ending with ⟨noRest, finished⟩ | ⟨fd, fault, inRest, stuck, stopped, _⟩
  · rw [noRest, List.append_nil] at split
    rw [← split] at deliverable sent
    rw [finished]
    exact ⟨⟨fun _ => deliverable, fun _ => rfl⟩,
      fun _ => ⟨copies, sent.written, sent.receivers, sent.isCopy⟩⟩
  · rw [stopped]
    refine ⟨⟨fun returned => (nomatch returned), fun all => ?_⟩, fun returned => (nomatch returned)⟩
    have inRoom : fd ∈ Dao.roomFds world.db.store message.groupId := by
      rw [split]
      exact List.mem_append_right _ inRest
    exact absurd (all fd inRoom) stuck

theorem exactlyOnce_iff {world : World} (sane : Sane world) {sender : Bufferevent}
    {message : Message} (loggedIn : MembersLoggedIn world message.groupId) :
    ExactlyOnce world sender message <-> OneEach world sender message.groupId := by
  rcases handleChat_returns sane sender (looked_up_known sane loggedIn) with ⟨returns, sends⟩
  constructor
  · rintro ⟨returned, copies, written, _, counts⟩
    rcases sends returned with ⟨others, sent⟩
    have same : others = copies := List.append_cancel_left (sent.written.symm.trans written)
    subst same
    refine ⟨?_, ?_⟩
    · intro userId fd isMember positive
      apply returns.mp returned
      exact List.mem_filterMap.mpr
        ⟨userId, (member_iff_looked_up sane loggedIn userId).mpr isMember, positive⟩
    · intro left right fd bev leftMember rightMember leftFd rightFd found notSender
      have once := (counts bev).1 ⟨notSender, left, fd, leftMember, leftFd, found⟩
      rw [sent.receivers, count_receivers] at once
      apply eq_of_countP_eq_one once
        ((member_iff_looked_up sane loggedIn left).mpr leftMember)
        ((member_iff_looked_up sane loggedIn right).mpr rightMember)
      · exact beq_iff_eq.mpr (reaches_eq_some_iff.mpr ⟨notSender, fd, leftFd, found⟩)
      · exact beq_iff_eq.mpr (reaches_eq_some_iff.mpr ⟨notSender, fd, rightFd, found⟩)
  · intro oneEach
    have returned : (handleChat sender message world).1 = .ok () := by
      apply returns.mpr
      intro fd inRoom
      rcases List.mem_filterMap.mp inRoom with ⟨userId, lookedUp, positive⟩
      exact oneEach.deliverable userId fd
        ((member_iff_looked_up sane loggedIn userId).mp lookedUp) positive
    rcases sends returned with ⟨copies, sent⟩
    refine ⟨returned, copies, sent.written, sent.isCopy, fun bev => ?_⟩
    rw [sent.receivers]
    exact ⟨count_eq_one sane loggedIn oneEach, count_eq_zero sane loggedIn⟩

/-! ## Which runs deliver exactly once -/

/-- The client table keeps an empty slot, a closing connection is found in
it, and a user logs in only where no other user's record names the
connection. -/
def Tidy (world : World) : Event -> Prop
  | .accept _ => world.conns.clients.size + 1 < 1024
  | .close bev => world.conns.CloseFindsSlot (.close bev)
  | .read bev buf input => forall userId, LogsIn world buf input userId ->
      forall other, Dao.positiveSockfd world.db.store other = some bev.fd -> other = userId
  | _ => True

/-- No descriptor is named twice, and every lookup ends at an open connection
or at none. -/
structure Unshared (world : World) : Prop where
  sound : world.conns.Sound
  counted : world.conns.clients.Counted
  room : world.conns.clients.size < 1024
  unshared : forall left right fd, Dao.positiveSockfd world.db.store left = some fd ->
    Dao.positiveSockfd world.db.store right = some fd -> left = right

theorem unshared_start (clock : Nat -> Int) : Unshared (start clock) where
  sound := Clients.sound_init (by decide)
  counted := HashMap.counted_hashInit (by decide)
  room := by
    change (0 : Int) < 1024
    decide
  unshared := fun _ _ _ named => nomatch named

theorem Unshared.ordinary {world next : World} (unshared : Unshared world) (sane : Sane world)
    (change : OrdinaryChange world next) : Unshared next := by
  refine ⟨?_, ?_, ?_, fun left right fd leftFd rightFd => ?_⟩
  · rw [change.conns]
    exact unshared.sound
  · rw [change.conns]
    exact unshared.counted
  · rw [change.conns]
    exact unshared.room
  · exact unshared.unshared left right fd (change.named sane.records leftFd)
      (change.named sane.records rightFd)

theorem Unshared.login {world next : World} (unshared : Unshared world) (sane : Sane world)
    {this : Bufferevent} {userId : Int} (isOpen : this ∈ world.conns.opened)
    (alone : forall other, Dao.positiveSockfd world.db.store other = some this.fd -> other = userId)
    (change : LoginChange world next this userId) : Unshared next := by
  refine ⟨?_, ?_, ?_, ?_⟩
  · rw [change.conns]
    exact unshared.sound
  · rw [change.conns]
    exact unshared.counted
  · rw [change.conns]
    exact unshared.room
  · intro left right fd leftFd rightFd
    rcases change.named sane isOpen leftFd with leftOld | ⟨leftUser, leftThis⟩ <;>
    rcases change.named sane isOpen rightFd with rightOld | ⟨rightUser, rightThis⟩
    · exact unshared.unshared left right fd leftOld rightOld
    · rw [rightThis] at leftOld
      exact (alone left leftOld).trans rightUser.symm
    · rw [leftThis] at rightOld
      exact leftUser.trans (alone right rightOld).symm
    · exact leftUser.trans rightUser.symm

theorem Unshared.accept {world next : World} (unshared : Unshared world) {fd : Int}
    (room : Tidy world (.accept fd)) (taken : world.conns.step (.accept fd) = some next.conns)
    (same : next = { world with conns := next.conns }) : Unshared next := by
  have sound := unshared.sound.accept taken
  rcases Clients.step_accept taken with ⟨_, clients', ran, conns⟩
  have size : clients'.size ≤ world.conns.clients.size + 1 := by
    rcases HashMap.hashSet_cases ran with ⟨_, sameTable⟩ | ⟨_, _, _, _, _, _, sameTable⟩ |
      ⟨_, _, _, _, sameTable⟩
    · rw [sameTable]
      omega
    · rw [sameTable]
      exact Int.le_add_one (Int.le_refl _)
    · rw [sameTable]
  rw [same]
  refine ⟨sound, ?_, ?_, unshared.unshared⟩
  · rw [conns]
    exact unshared.counted.hashSet ran
  · rw [conns]
    exact Int.lt_of_le_of_lt size room

theorem Unshared.close {world next : World} (unshared : Unshared world) {bev : Bufferevent}
    (finds : Tidy world (.close bev)) (taken : world.conns.step (.close bev) = some next.conns)
    (same : next = { world with conns := next.conns }) : Unshared next := by
  have sound := unshared.sound.close finds taken
  rcases Clients.step_close taken with ⟨_, value, clients', ran, conns⟩
  have size : clients'.size ≤ world.conns.clients.size := by
    rcases HashMap.hashDelete_cases ran with ⟨_, _, ⟨_, _, sameTable⟩ | ⟨_, _, _, _, sameTable⟩⟩
    · rw [sameTable]
    · rw [sameTable]
      exact Int.sub_le_self _ (by decide)
  rw [same]
  refine ⟨sound, ?_, ?_, unshared.unshared⟩
  · rw [conns]
    exact unshared.counted.hashDelete ran
  · rw [conns]
    exact Int.lt_of_le_of_lt size unshared.room

theorem Unshared.step {world next : World} {event : Event} (unshared : Unshared world)
    (sane : Sane world) (tidy : Tidy world event)
    (taken : World.step world event = some next) : Unshared next := by
  cases step_effect sane.normal taken with
  | ordinary change => exact unshared.ordinary sane change
  | login isOpen logsIn change => exact unshared.login sane isOpen (tidy _ logsIn) change
  | accept range accepted same => exact unshared.accept tidy accepted same
  | close closed same => exact unshared.close tidy closed same

theorem Unshared.oneEach {world : World} (unshared : Unshared world) (sender : Bufferevent)
    (chatroomId : Int) : OneEach world sender chatroomId where
  deliverable := fun userId fd _ _ => by
    have ends := (unshared.counted.probe_isSome_iff fd).mpr (Or.inl unshared.room)
    rcases (world.conns.clients.hashGet_returns_iff fd).mpr ends with ⟨receiver, found⟩
    refine ⟨receiver, found, fun bev isBev _ => ?_⟩
    rw [isBev] at found
    exact (unshared.sound.open_of_hashGet found).1
  unshared := fun left right fd _ _ _ leftFd rightFd _ _ =>
    unshared.unshared left right fd leftFd rightFd

/-- Every message that a connection sends to a chatroom whose members have
logged in is delivered exactly once. -/
def DeliversOnce (world : World) : Prop :=
  forall sender, sender ∈ world.conns.opened -> forall message : Message,
    MembersLoggedIn world message.groupId -> ExactlyOnce world sender message

/-- In every world that a run reaches, a message is delivered exactly once if
and only if no two members of the chatroom name a descriptor that leads to a
connection other than the sender, and every member's descriptor can be
delivered to.  And this is so along every tidy run. -/
theorem exactly_once (clock : Nat -> Int) (events : List Event) :
    Run.Always step (fun world => forall sender message,
        MembersLoggedIn world message.groupId ->
          (ExactlyOnce world sender message <-> OneEach world sender message.groupId))
      (start clock) events ∧
    (Run.Guarded step Tidy (start clock) events ->
      Run.Always step DeliversOnce (start clock) events) := by
  constructor
  · have sane := @Run.invariant _ _ step Sane (start clock) (sane_start clock)
      (fun _ _ _ sane taken => sane.step taken) events
    exact sane.mono (fun world sane sender message loggedIn => exactlyOnce_iff sane loggedIn)
  · intro tidy
    have kept := @Run.invariant_guarded _ _ step (fun world => Sane world ∧ Unshared world) Tidy
      (start clock) ⟨sane_start clock, unshared_start clock⟩
      (fun _ _ _ holds tidy taken => ⟨holds.1.step taken, holds.2.step holds.1 tidy taken⟩)
      events tidy
    exact kept.mono (fun world holds sender _ message loggedIn =>
      (exactlyOnce_iff holds.1 loggedIn).mpr (holds.2.oneEach sender message.groupId))

/-- A sufficient test for runs in which nothing is closed. -/
def tidyTest (world : World) : Event -> Bool
  | .accept _ => decide (world.conns.clients.size + 1 < 1024)
  | .close _ => false
  | .read bev _ _ => world.unusedFd bev.fd
  | _ => true

theorem tidy_of_test {world : World} {event : Event} (sane : Sane world)
    (passed : tidyTest world event = true) : Tidy world event := by
  cases event with
  | accept fd =>
      rw [tidyTest, decide_eq_true_eq] at passed
      exact passed
  | close bev => cases passed
  | read bev buf input =>
      intro userId _ other named
      exact absurd named (sane.not_named passed other)
  | createChatroom userId1 userId2 => exact trivial
  | leaveChatrooom chatroomId username => exact trivial
  | delChatrooom chatroomId => exact trivial

/-- The members of a chatroom, given as a list. -/
theorem membersLoggedIn_of_list {world : World} {chatroomId : Int} {users : List Int}
    (members : (Redis.setAt world.db.store (chatroomKey chatroomId)).map Redis.Members.members =
      some (users.map intText))
    (loggedIn : forall userId, userId ∈ users -> userId ∈ world.logins.map Prod.snd) :
    MembersLoggedIn world chatroomId := by
  rintro userId ⟨set, holds, inSet⟩
  rw [holds, Option.map_some, Option.some.injEq] at members
  rw [members] at inSet
  rcases List.mem_map.mp inSet with ⟨other, isUser, same⟩
  rw [← intText_injective same]
  rcases List.mem_map.mp (loggedIn other isUser) with ⟨⟨bev, user⟩, login, sameUser⟩
  exact ⟨bev, sameUser ▸ login⟩

/-- Two users register on one connection each and log in there. -/
def separateConnections : List Event :=
  [.accept 5, .accept 6, arrival ⟨0, 5⟩ (request .register 0 "bob secret"),
    arrival ⟨1, 6⟩ (request .register 0 "eve secret"),
    arrival ⟨0, 5⟩ (request .login 0 "bob secret"),
    arrival ⟨1, 6⟩ (request .login 0 "eve secret"), .createChatroom 1 2]

theorem separateConnections_tidy :
    Run.Guarded step Tidy (start (fun _ => 0)) separateConnections :=
  Run.guarded_of_check (sane_start (fun _ => 0)) (fun _ _ _ sane taken => sane.step taken)
    (fun _ _ sane passed => tidy_of_test sane passed)
    (by decide +kernel : Run.check step tidyTest (start (fun _ => 0)) separateConnections = true)

/-- What one of them sends to their room is delivered exactly once. -/
theorem exactly_once_separateConnections :
    Exists fun world => Run.after step (start (fun _ => 0)) separateConnections = some world ∧
      MembersLoggedIn world 1 ∧ ExactlyOnce world ⟨0, 5⟩ (request .text 1 "hello") := by
  have reached : (Run.after step (start (fun _ => 0)) separateConnections).map (fun world =>
      ((Redis.setAt world.db.store (chatroomKey 1)).map Redis.Members.members,
        world.logins.map Prod.snd, world.conns.opened)) =
      some (some ([1, 2].map intText), [2, 1], [⟨1, 6⟩, ⟨0, 5⟩]) := by
    decide +kernel
  rcases Option.map_eq_some_iff.mp reached with ⟨world, leads, facts⟩
  rw [Prod.mk.injEq, Prod.mk.injEq] at facts
  rcases facts with ⟨members, logins, opened⟩
  have loggedIn : MembersLoggedIn world 1 := by
    apply membersLoggedIn_of_list members
    rw [logins]
    decide
  have isOpen : ⟨0, 5⟩ ∈ world.conns.opened := by
    rw [opened]
    decide
  exact ⟨world, leads, loggedIn, ((exactly_once (fun _ => 0) separateConnections).2
    separateConnections_tidy).finish leads ⟨0, 5⟩ isOpen (request .text 1 "hello") loggedIn⟩

/-- A user logs in and is disconnected, and another one logs in on a new
connection with the same descriptor. -/
def takenOver : List Event :=
  [.accept 5, arrival ⟨0, 5⟩ (request .register 0 "bob secret"),
    arrival ⟨0, 5⟩ (request .register 0 "eve secret"),
    arrival ⟨0, 5⟩ (request .login 0 "bob secret"), .close ⟨0, 5⟩, .accept 5,
    arrival ⟨1, 5⟩ (request .login 0 "eve secret"), .accept 6, .createChatroom 1 2]

/-- The second connection is written two copies of a message to their room. -/
theorem takenOver_not_once :
    Not (Run.Always step DeliversOnce (start (fun _ => 0)) takenOver) := by
  have reached : (Run.after step (start (fun _ => 0)) takenOver).map (fun world =>
      ((Redis.setAt world.db.store (chatroomKey 1)).map Redis.Members.members,
        world.logins.map Prod.snd, decide (⟨2, 6⟩ ∈ world.conns.opened),
        (handleChat ⟨2, 6⟩ (request .text 1 "hello") world).2.written.drop world.written.length
          |>.map Write.bev)) =
      some (some ([1, 2].map intText), [2, 1], true, [⟨1, 5⟩, ⟨1, 5⟩]) := by
    decide +kernel
  rcases Option.map_eq_some_iff.mp reached with ⟨world, leads, facts⟩
  rw [Prod.mk.injEq, Prod.mk.injEq, Prod.mk.injEq, decide_eq_true_eq] at facts
  rcases facts with ⟨members, logins, isOpen, receivers⟩
  have loggedIn : MembersLoggedIn world 1 := by
    apply membersLoggedIn_of_list members
    rw [logins]
    decide
  intro always
  rcases always.finish leads ⟨2, 6⟩ isOpen (request .text 1 "hello") loggedIn with
    ⟨_, copies, written, _, counts⟩
  rw [written, List.drop_left] at receivers
  have twice : (copies.map Write.bev).count (⟨1, 5⟩ : Bufferevent) = 2 := by
    rw [receivers]
    decide
  by_cases isRecipient : Recipient world ⟨2, 6⟩ 1 ⟨1, 5⟩
  · rw [(counts ⟨1, 5⟩).1 isRecipient] at twice
    exact absurd twice (by decide)
  · rw [(counts ⟨1, 5⟩).2 isRecipient] at twice
    exact absurd twice (by decide)

end World
end ChatHub
