import ChatHub.Server.Agreement
import ChatHub.Server.ExactlyOnce
import ChatHub.Server.WriteSize

namespace ChatHub

/-!
# What a message makes the server write

A request is answered on its own connection, with the message itself and the
result in the place of its text.  A chat message is written once for every
descriptor of its chatroom, on the connection that the table has for the
descriptor, but never on its own.  Other messages are not answered.

The copies of a message with a send time are all the same: `save_message`,
which runs after each of them, only sets a time that is missing.
-/

namespace World

open ChatHub.Action

/-- A message that the server handled, the world in which it did, and the
world that this left. -/
structure Handled where
  sender : Bufferevent
  message : Message
  world : World
  next : World

/-- How many copies of a chat message a connection gets. -/
def Handled.copies (handled : Handled) (bev : Bufferevent) : Nat :=
  ((Dao.roomFds handled.world.db.store handled.message.groupId).filterMap
    (receiverOf handled.world.conns handled.sender)).count bev

/-- The types that are answered. -/
def Request (type : MessageType) : Prop :=
  type = .register ∨ type = .login ∨ type = .logout

/-- The messages that a connection gets because of a message. -/
inductive Due (handled : Handled) (bev : Bufferevent) : List Message -> Prop where
  | copies (isChat : handled.message.type = MessageType.text.code ∨
      handled.message.type = MessageType.image.code) :
      Due handled bev (List.replicate (handled.copies bev) handled.message)
  | reply {type : MessageType} (request : Request type) (isType : handled.message.type = type.code)
      {result : Int} (range : Dao.UserId result)
      (remembered : type = .login -> 0 < result -> (handled.sender, result) ∈ handled.next.logins) :
      Due handled bev
        (if bev = handled.sender then [answering handled.message type result] else [])
  | nothing (unanswered : forall type, Request type -> handled.message.type ≠ type.code)
      (noChat : handled.message.type ≠ MessageType.text.code ∧
        handled.message.type ≠ MessageType.image.code) :
      Due handled bev []

/-- What is for this connection, in its order. -/
def addressed {Item : Type} (bev : Bufferevent) (items : List (Bufferevent × Item)) : List Item :=
  items.filterMap (fun item => if item.1 = bev then some item.2 else none)

/-- What is written on this connection, in its order. -/
def writtenTo (bev : Bufferevent) (writes : List Write) : List Write :=
  writes.filter (fun write => decide (write.bev = bev))

/-! ## Requests -/

section Requests

variable {world next : World} {this : Bufferevent} {message : Message}

theorem registerUser_yields (user : User) : Yields Dao.UserId (registerUser user) := by
  refine yields_bind (yields_any _) (fun present _ => ?_)
  refine yields_ite (yields_pure (by decide)) (yields_ite (yields_pure (by decide)) ?_)
  refine yields_bind (Dao.nextId_yields _) (fun userId isUser => ?_)
  refine yields_bind (yields_any _) (fun time _ => ?_)
  refine yields_bind (yields_any _) (fun reply _ => ?_)
  refine yields_ite (yields_pure (by decide)) ?_
  refine yields_bind (yields_any _) (fun reply _ => ?_)
  exact yields_ite (yields_pure (by decide)) (yields_pure isUser)

/-- The result of a logout is an error or a number from the index. -/
theorem logoutUser_range (truthful : Agreement.Truthful world.db.store) {user : User}
    (byName : user.userId = 0) {db : Db} {result : Int}
    (ran : logoutUser user world.db = (.ok result, db)) : Dao.UserId result := by
  rcases ok_of_bind ran with ⟨found, resolvedDb, resolved, rest⟩
  unfold resolveUserid at resolved
  rw [if_pos byName] at resolved
  cases found with
  | none =>
      cases rest
      decide
  | some userId =>
      rcases Dao.lookupUserid_finds resolved with ⟨_, _, text, isText, isId⟩
      rcases truthful.index _ text isText with ⟨other, isUser, same⟩
      have isOther : userId = other := by rw [← isId, same, Dao.atoll_userId isUser]
      rcases ok_of_bind rest with ⟨time, _, _, asking⟩
      rcases ok_of_bind asking with ⟨reply, _, _, returned⟩
      split at returned
      · cases returned
        decide
      · cases returned
        exact isOther ▸ isUser

theorem handleRegister_writes (ran : perform (handleRegister this message) world = some next) :
    Exists fun result => Dao.UserId result ∧
      next.written = world.written ++ [.ofMessage this (answering message .register result)] := by
  rcases perform_bind ran with ⟨user, sameAs, parsed, rest⟩
  have sameWorld : world = sameAs := congrArg Prod.snd parsed
  subst sameWorld
  rcases perform_dao_bind rest with ⟨userId, db, answered, written⟩
  rw [perform_write written]
  exact ⟨userId, registerUser_yields user _ _ _ answered, rfl⟩

theorem handleLogout_writes (truthful : Agreement.Truthful world.db.store)
    (ran : perform (handleLogout this message) world = some next) :
    Exists fun result => Dao.UserId result ∧
      next.written = world.written ++ [.ofMessage this (answering message .logout result)] := by
  rcases perform_bind ran with ⟨user, sameAs, parsed, rest⟩
  have sameWorld : world = sameAs := congrArg Prod.snd parsed
  subst sameWorld
  rcases perform_dao_bind rest with ⟨userId, db, answered, written⟩
  rw [perform_write written]
  exact ⟨userId, logoutUser_range truthful (Passwords.msg2user_byName (congrArg Prod.fst parsed))
    answered, rfl⟩

/-- A positive answer to a login is remembered. -/
theorem handleLogin_writes (truthful : Agreement.Truthful world.db.store)
    (ran : perform (handleLogin this message) world = some next) :
    Exists fun result => Dao.UserId result ∧
      next.written = world.written ++ [.ofMessage this (answering message .login result)] ∧
      (0 < result -> (this, result) ∈ next.logins) := by
  rcases perform_bind ran with ⟨user, sameAs, parsed, rest⟩
  have sameWorld : world = sameAs := congrArg Prod.snd parsed
  subst sameWorld
  rcases perform_dao_bind rest with ⟨result, db, answered, finished⟩
  have range := Agreement.loginUser_range truthful
    (Passwords.msg2user_byName (congrArg Prod.fst parsed)) answered
  refine ⟨result, range, ?_⟩
  unfold finishLogin at finished
  split at finished
  · rcases perform_dao_bind finished with ⟨value, after, presence, logging⟩
    rcases perform_bind logging with ⟨_, middle, recorded, written⟩
    cases recorded
    rw [perform_write written]
    exact ⟨rfl, fun _ => List.mem_cons_self⟩
  · next notPositive =>
      rw [perform_write finished]
      refine ⟨rfl, fun positive => ?_⟩
      rw [toInt32_eq_self range.1 range.2] at notPositive
      exact absurd positive notPositive

end Requests

/-! ## Copies -/

/-- A message with a send time is saved as it is. -/
theorem saveMessage_unstamped (chatroomId : Int) {message : Message} (stamped : 0 < message.sendTime) :
    Yields (fun saved : Int × Message => saved.2 = message) (saveMessage chatroomId message) := by
  have keeps : Yields (fun left => left = message) (stampMessage message) := by
    unfold stampMessage
    rw [if_neg (not_le.mpr stamped)]
    exact yields_pure rfl
  refine yields_bind (yields_any _) (fun msgId _ => ?_)
  refine yields_ite (yields_pure rfl) ?_
  refine yields_bind keeps (fun left same => ?_)
  refine yields_bind (yields_any _) (fun reply _ => ?_)
  exact yields_ite (yields_pure same) (yields_pure same)

theorem sendCopies_unstamped (sender : Bufferevent) (fds : List Int) {message : Message}
    (stamped : 0 < message.sendTime) :
    WriteSize.Appends (fun write => write = .ofMessage write.bev message) (sendCopies sender fds message) := by
  induction fds with
  | nil => exact WriteSize.appends_of_frame (fun _ => rfl)
  | cons fd rest inductionHypothesis =>
      refine WriteSize.appends_any (WriteSize.appends_of_frame (fun _ => rfl)) (fun receiver => ?_)
      apply WriteSize.appends_ite inductionHypothesis
      refine WriteSize.appends_any ?_ (fun _ => ?_)
      · cases receiver with
        | none => exact WriteSize.appends_of_frame (fun _ => rfl)
        | some bev => exact WriteSize.appends_write rfl
      · refine WriteSize.appends_bind (WriteSize.appends_of_frame (fun _ => rfl))
          (dao_yields (saveMessage_unstamped _ stamped)) (fun saved same => ?_)
        rw [same]
        exact inductionHypothesis

/-- What is handled to the end has looked up a descriptor for every member. -/
theorem known_of_handled {world next : World} (sane : Sane world) {sender : Bufferevent}
    {message : Message} (ran : perform (handleChat sender message) world = some next) :
    forall userId, userId ∈ Dao.roomMembers world.db.store message.groupId ->
      (Dao.sockfdOf world.db.store userId).isSome := by
  intro userId member
  rcases perform_returns ran with ⟨value, returned⟩
  cases known : Dao.sockfdOf world.db.store userId with
  | some fd => rfl
  | none =>
      have faulted := (handleChat_faults sane sender member known).1
      rw [returned] at faulted
      cases faulted

theorem handleChat_unstamped (sender : Bufferevent) {message : Message}
    (stamped : 0 < message.sendTime) :
    WriteSize.Appends (fun write => write = .ofMessage write.bev message) (handleChat sender message) := by
  refine WriteSize.appends_any (WriteSize.appends_of_frame (fun _ => rfl)) (fun found => ?_)
  cases found.1 with
  | none =>
      exact WriteSize.appends_ite (WriteSize.appends_of_frame (fun _ => rfl))
        (WriteSize.appends_of_frame (fun _ => rfl))
  | some fds => exact sendCopies_unstamped sender _ stamped

/-- A chat message that is handled to the end is written for every descriptor
that leads to another connection. -/
theorem handleChat_writes {world next : World} (sane : Sane world) {sender : Bufferevent}
    {message : Message} (stamped : 0 < message.sendTime)
    (ran : perform (handleChat sender message) world = some next) :
    next.written = world.written ++ ((Dao.roomFds world.db.store message.groupId).filterMap
      (receiverOf world.conns sender)).map (fun bev => .ofMessage bev message) := by
  rcases perform_returns ran with ⟨value, returned⟩
  have returns := (handleChat_returns sane sender (known_of_handled sane ran)).2
  rcases handleChat_unstamped sender stamped world with ⟨writes, written, same⟩
  rw [returned] at returns written
  rcases returns rfl with ⟨copies, sent⟩
  have sameCopies : writes = copies := List.append_cancel_left (written.symm.trans sent.written)
  have uniform : copies.map (fun copy => .ofMessage copy.bev message) = copies :=
    (List.map_congr_left (fun copy member => (same copy (sameCopies ▸ member)).symm)).trans
      (List.map_id _)
  rw [sent.written, ← sent.receivers, List.map_map]
  exact congrArg (world.written ++ ·) uniform.symm

/-! ## All messages -/

theorem writtenTo_append (bev : Bufferevent) (first second : List Write) :
    writtenTo bev (first ++ second) = writtenTo bev first ++ writtenTo bev second :=
  List.filter_append first second

/-- Messages are written on the connections that they are for. -/
theorem writtenTo_map {Item : Type} (bev : Bufferevent) (pack : Item -> Message)
    (items : List (Bufferevent × Item)) :
    writtenTo bev (items.map (fun item => .ofMessage item.1 (pack item.2))) =
      (addressed bev items).map (fun item => .ofMessage bev (pack item)) := by
  induction items with
  | nil => rfl
  | cons item rest inductionHypothesis =>
      unfold writtenTo addressed at inductionHypothesis ⊢
      rw [List.map_cons, List.filter_cons, List.filterMap_cons, inductionHypothesis]
      by_cases isFor : item.1 = bev
      · simp [Write.ofMessage, isFor]
      · simp [Write.ofMessage, isFor]

theorem addressed_append {Item : Type} (bev : Bufferevent) (first second : List (Bufferevent × Item)) :
    addressed bev (first ++ second) = addressed bev first ++ addressed bev second :=
  List.filterMap_append

theorem addressed_singleton {Item : Type} (bev receiver : Bufferevent) (item : Item) :
    addressed bev [(receiver, item)] = if bev = receiver then [item] else [] := by
  unfold addressed
  by_cases isFor : bev = receiver
  · simp [isFor]
  · simp [isFor, Ne.symm isFor]

/-- The same item for many connections. -/
theorem addressed_copies {Item : Type} (bev : Bufferevent) (receivers : List Bufferevent) (item : Item) :
    addressed bev (receivers.map (fun receiver => (receiver, item))) =
      List.replicate (receivers.count bev) item := by
  induction receivers with
  | nil => rfl
  | cons receiver rest inductionHypothesis =>
      rw [List.map_cons, ← List.singleton_append, addressed_append, addressed_singleton,
        inductionHypothesis, List.count_cons]
      by_cases isFor : bev = receiver
      · rw [if_pos isFor, isFor, if_pos (beq_self_eq_true receiver), List.replicate_succ]
        rfl
      · have other : (receiver == bev) = false := beq_false_of_ne (fun same => isFor same.symm)
        rw [if_neg isFor, other, if_neg Bool.false_ne_true]
        rfl

theorem writtenTo_copies (bev : Bufferevent) (receivers : List Bufferevent) (message : Message) :
    writtenTo bev (receivers.map (fun receiver => .ofMessage receiver message)) =
      List.replicate (receivers.count bev) (.ofMessage bev message) := by
  have written := writtenTo_map bev id (receivers.map (fun receiver => (receiver, message)))
  rw [List.map_map, addressed_copies, List.map_replicate] at written
  exact written

/-- Every connection was written the messages that it is due. -/
def WritesDue (handled : Handled) : Prop :=
  Exists fun packed : List (Bufferevent × Message) =>
    handled.next.written = handled.world.written ++
      packed.map (fun entry => .ofMessage entry.1 entry.2) ∧
    forall bev, Due handled bev (addressed bev packed)

theorem writesDue_reply {handled : Handled} {type : MessageType} (request : Request type)
    (isType : handled.message.type = type.code) {result : Int} (range : Dao.UserId result)
    (remembered : type = .login -> 0 < result -> (handled.sender, result) ∈ handled.next.logins)
    (written : handled.next.written =
      handled.world.written ++ [.ofMessage handled.sender (answering handled.message type result)]) :
    WritesDue handled := by
  refine ⟨[(handled.sender, answering handled.message type result)], written,
    fun bev => ?_⟩
  rw [addressed_singleton]
  exact Due.reply request isType range remembered

/-- A message that is handled to the end makes the server write what every
connection is due, and nothing else. -/
theorem handleAllMessage_writes {world next : World} (sane : Sane world)
    (truthful : Agreement.Truthful world.db.store) {sender : Bufferevent} {message : Message}
    (stamped : 0 < message.sendTime)
    (ran : perform (handleAllMessage sender message) world = some next) :
    WritesDue ⟨sender, message, world, next⟩ := by
  unfold handleAllMessage at ran
  split at ran
  · cases ran
  split at ran
  · next isLogin =>
      rcases handleLogin_writes truthful ran with ⟨result, range, written, remembered⟩
      exact writesDue_reply (Or.inr (Or.inl rfl)) isLogin range (fun _ => remembered) written
  split at ran
  · next isLogout =>
      rcases handleLogout_writes truthful ran with ⟨result, range, written⟩
      exact writesDue_reply (Or.inr (Or.inr rfl)) isLogout range (fun never => nomatch never) written
  split at ran
  · next isRegister =>
      rcases handleRegister_writes ran with ⟨result, range, written⟩
      exact writesDue_reply (Or.inl rfl) isRegister range (fun never => nomatch never) written
  split at ran
  · next isChat =>
      refine ⟨((Dao.roomFds world.db.store message.groupId).filterMap
        (receiverOf world.conns sender)).map (fun receiver => (receiver, message)), ?_, fun bev => ?_⟩
      · rw [handleChat_writes sane stamped ran, List.map_map]
        rfl
      · rw [addressed_copies]
        exact Due.copies isChat
  · next notLogin notLogout notRegister notChat =>
      cases ran
      refine ⟨[], (List.append_nil _).symm, fun bev => Due.nothing ?_ (not_or.mp notChat)⟩
      rintro type (isRegister | isLogin | isLogout)
      · exact isRegister ▸ notRegister
      · exact isLogin ▸ notLogin
      · exact isLogout ▸ notLogout

/-- What `readcb` decodes on an open connection is handled. -/
theorem perform_readcb {world : World} (sane : Sane world) {bev : Bufferevent}
    (isOpen : bev ∈ world.conns.opened) {buf input : Bytes} {message : Message}
    (received : Framing.received buf input = .ok (some message)) :
    perform (readcb bev buf input) world = perform (handleAllMessage bev message) world := by
  have nonNegative := sane.distinct.nonNegative bev isOpen
  have ran : readcb bev buf input world =
      (if bev.fd ≠ -1 then handleAllMessage bev message else pure ()) world :=
    bind_ofExcept received world
  rw [if_pos (by omega)] at ran
  unfold perform
  rw [ran]

/-! ## What is due can be read -/

section Due

variable {handled : Handled} {bev : Bufferevent} {messages : List Message}

theorem answering_wellformed {message : Message} (wellformed : message.Wellformed)
    (type : MessageType) {result : Int} (range : Dao.UserId result) :
    (answering message type result).Wellformed :=
  { Agreement.answer_wellformed wellformed range with typeKnown := ⟨type, rfl⟩ }

theorem Due.wellformed (due : Due handled bev messages) (wellformed : handled.message.Wellformed) :
    forall message, message ∈ messages -> message.Wellformed := by
  intro message member
  cases due with
  | copies =>
      rw [List.eq_of_mem_replicate member]
      exact wellformed
  | @reply type _ _ result range =>
      split at member
      · rw [List.mem_singleton.mp member]
        exact answering_wellformed wellformed type range
      · cases member
  | nothing => cases member

theorem printable_of_wellformed {message : Message} (wellformed : message.Wellformed) :
    WriteSize.Printable message where
  toSixtyFourBit := (WireNumbers.lossless_of_wellformed wellformed).wide
  msgTerminated := wellformed.msgTerminated
  senderTerminated := wellformed.senderTerminated
  msgUtf8 := wellformed.msgUtf8
  senderUtf8 := wellformed.senderUtf8

/-- What is due fits into an array with its NUL if the message did. -/
theorem Due.fits (due : Due handled bev messages) (wellformed : handled.message.Wellformed)
    (fits : handled.message.packMessage.length < maxBuff) :
    forall message, message ∈ messages -> message.packMessage.length < maxBuff := by
  intro message member
  have readable := due.wellformed wellformed message member
  cases due with
  | copies =>
      rw [List.eq_of_mem_replicate member]
      exact fits
  | reply =>
      split at member
      · rw [List.mem_singleton.mp member] at readable ⊢
        have printable := printable_of_wellformed readable
        have width := WriteSize.width_answering printable
        rw [WriteSize.packMessage_length printable]
        unfold maxBuff
        omega
      · cases member
  | nothing => cases member

end Due

end World
end ChatHub
