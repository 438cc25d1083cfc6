import ChatHub.Server.Handlers

namespace ChatHub

/-!
# What the handlers issue

Every handler is composed of functions of the data access layer, of lookups
in the client table and of writes.  `Handles` says so, once for each handler
and with the commands that it may issue, and what handlers and events have in
common is derived from it by induction, also when a handler faults on the way
and however the connection to Redis answers.
-/

namespace World

open ChatHub.Action

/-- The action is composed of functions that issue allowed commands, of
lookups, of writes and, if it may, of logins that are remembered. -/
inductive Handles (mayLogin : Prop) (allowed : Redis.Command -> Prop) :
    forall {Value : Type}, Action World Value -> Prop where
  | pure {Value : Type} (value : Value) : Handles mayLogin allowed (pure value)
  | fail {Value : Type} (fault : Fault) :
      Handles mayLogin allowed (fail fault : Action World Value)
  | ofExcept {Value : Type} (result : Except Fault Value) : Handles mayLogin allowed (ofExcept result)
  | hashGet (fd : Int) : Handles mayLogin allowed (hashGet fd)
  | write (bev : Bufferevent) (json : Bytes) (size : Nat) :
      Handles mayLogin allowed (buffereventWrite bev json size)
  | recordLogin (may : mayLogin) (bev : Bufferevent) (userId : Int) :
      Handles mayLogin allowed (recordLogin bev userId)
  | dao {Value : Type} {action : Action Db Value} (composed : Dao.Composed allowed action) :
      Handles mayLogin allowed (dao action)
  | bind {First Value : Type} {kind : First -> Prop} {first : Action World First}
      {second : First -> Action World Value} (handlesFirst : Handles mayLogin allowed first)
      (yields : Yields kind first)
      (handlesSecond : forall value, kind value -> Handles mayLogin allowed (second value)) :
      Handles mayLogin allowed (first >>= second)

/-- The worlds differ by allowed commands, by what was written and, if that
may be, by logins. -/
structure Change (mayLogin : Prop) (allowed : Redis.Command -> Prop) (world next : World) : Prop where
  conns : next.conns = world.conns
  logins : Not mayLogin -> next.logins = world.logins
  outcome : next.db.outcome = world.db.outcome
  store : forall property : Redis.Store -> Prop,
    (forall store command, allowed command -> property store ->
      property (Redis.exec store command).2) ->
    property world.db.store -> property next.db.store

theorem perform_returns {Value : Type} {action : Action World Value} {world next : World}
    (ran : perform action world = some next) : Exists fun value => action world = (.ok value, next) := by
  unfold perform at ran
  split at ran
  · next value after returned =>
      cases ran
      exact ⟨value, returned⟩
  · cases ran

section Rules

variable {mayLogin : Prop} {allowed : Redis.Command -> Prop} {Value Result : Type}

theorem Change.refl (world : World) : Change mayLogin allowed world world where
  conns := rfl
  logins := fun _ => rfl
  outcome := rfl
  store := fun _ _ holds => holds

theorem Change.trans {world middle next : World} (first : Change mayLogin allowed world middle)
    (second : Change mayLogin allowed middle next) : Change mayLogin allowed world next where
  conns := second.conns.trans first.conns
  logins := fun never => (second.logins never).trans (first.logins never)
  outcome := second.outcome.trans first.outcome
  store := fun property preserved holds =>
    second.store property preserved (first.store property preserved holds)

theorem handles_bind {first : Action World Value} {second : Value -> Action World Result}
    (handlesFirst : Handles mayLogin allowed first)
    (handlesSecond : forall value, Handles mayLogin allowed (second value)) :
    Handles mayLogin allowed (first >>= second) :=
  Handles.bind handlesFirst (fun _ _ _ _ => trivial) (fun value _ => handlesSecond value)

theorem handles_ite {condition : Prop} [Decidable condition] {left right : Action World Value}
    (handlesLeft : Handles mayLogin allowed left) (handlesRight : Handles mayLogin allowed right) :
    Handles mayLogin allowed (if condition then left else right) := by
  split
  · exact handlesLeft
  · exact handlesRight

theorem ofExcept_yields (result : Except Fault Value) :
    Yields (fun value => result = .ok value) (ofExcept result : Action World Value) := by
  intro world value after ran
  exact congrArg Prod.fst ran

theorem dao_yields {kind : Value -> Prop} {action : Action Db Value} (yields : Yields kind action) :
    Yields kind (dao action) := by
  intro world value after ran
  have returned : (action world.db).1 = .ok value := congrArg Prod.fst ran
  exact yields world.db value (action world.db).2 (Prod.ext returned rfl)

/-- More commands and more logins may be allowed. -/
theorem Handles.weaken {fewerLogins : Prop} {fewer : Redis.Command -> Prop}
    {action : Action World Value} (handles : Handles fewerLogins fewer action)
    (logins : fewerLogins -> mayLogin) (implies : forall command, fewer command -> allowed command) :
    Handles mayLogin allowed action := by
  induction handles with
  | pure value => exact Handles.pure value
  | fail fault => exact Handles.fail fault
  | ofExcept result => exact Handles.ofExcept result
  | hashGet fd => exact Handles.hashGet fd
  | write bev json size => exact Handles.write bev json size
  | recordLogin may bev userId => exact Handles.recordLogin (logins may) bev userId
  | dao composed => exact Handles.dao (composed.mono implies)
  | bind _ yields _ inductionFirst inductionSecond =>
      exact Handles.bind inductionFirst yields inductionSecond

theorem Handles.mono {fewer : Redis.Command -> Prop} {action : Action World Value}
    (handles : Handles mayLogin fewer action)
    (implies : forall command, fewer command -> allowed command) : Handles mayLogin allowed action :=
  handles.weaken id implies

theorem Handles.loosen {action : Action World Value} (handles : Handles False allowed action) :
    Handles mayLogin allowed action :=
  handles.weaken False.elim (fun _ isAllowed => isAllowed)

/-- Also when it faults on the way, the action makes such a change. -/
theorem Handles.change {action : Action World Value} (handles : Handles mayLogin allowed action)
    (world : World) : Change mayLogin allowed world (action world).2 := by
  induction handles generalizing world with
  | pure value => exact Change.refl world
  | fail fault => exact Change.refl world
  | ofExcept result => exact Change.refl world
  | hashGet fd => exact Change.refl world
  | write bev json size =>
      unfold buffereventWrite
      split
      · exact ⟨rfl, fun _ => rfl, rfl, fun _ _ holds => holds⟩
      · exact Change.refl world
  | recordLogin may bev userId =>
      exact ⟨rfl, fun never => absurd may never, rfl, fun _ _ holds => holds⟩
  | @dao Value action composed =>
      have outcome : (action world.db).2.outcome = world.db.outcome :=
        (@Dao.Composed.keeps _ _ _ composed (fun _ => True) (fun _ _ _ _ => trivial) world.db trivial).1
      exact ⟨rfl, fun _ => rfl, outcome, fun property preserved holds =>
        (composed.keeps preserved holds).2⟩
  | @bind First Value kind first second _ yields _ inductionFirst inductionSecond =>
      have change := inductionFirst world
      rw [bind_apply]
      cases ran : first world with
      | mk result middle =>
          rw [ran] at change
          cases result with
          | ok value => exact change.trans (inductionSecond value (yields world value middle ran) middle)
          | error fault => exact change

theorem Handles.perform {action : Action World Value} (handles : Handles mayLogin allowed action)
    {world next : World} (ran : World.perform action world = some next) :
    Change mayLogin allowed world next := by
  have change := handles.change world
  rcases perform_returns ran with ⟨value, returned⟩
  rw [returned] at change
  exact change

end Rules

/-- An action that returns has run its parts one after the other. -/
theorem perform_bind {Value Result : Type} {first : Action World Value}
    {second : Value -> Action World Result} {world next : World}
    (ran : perform (first >>= second) world = some next) :
    Exists fun value => Exists fun middle =>
      first world = (.ok value, middle) ∧ perform (second value) middle = some next := by
  cases answer : first world with
  | mk result middle =>
      unfold perform at ran
      cases result with
      | error fault =>
          rw [bind_of_error answer] at ran
          cases ran
      | ok value =>
          rw [bind_of_ok answer] at ran
          exact ⟨value, middle, rfl, ran⟩

/-! ## The handlers -/

/-- The commands of a login on a descriptor: lookups, and a user with a
positive number is set online. -/
inductive Admits (fd : Int) : Redis.Command -> Prop where
  | reads {command : Redis.Command} (isRead : Dao.Reads command) : Admits fd command
  | record {userId : Int} (positive : 0 < toInt32 userId) (time : Bytes) :
      Admits fd (Dao.presenceCommand userId 1 fd time)

/-- The commands of a chat message. -/
inductive Posts (groupId : Int) : Redis.Command -> Prop where
  | reads {command : Redis.Command} (isRead : Dao.Reads command) : Posts groupId command
  | saves {command : Redis.Command} (isSave : Dao.Saves groupId command) : Posts groupId command

theorem handleRegister_handles (this : Bufferevent) (message : Message) :
    Handles False (fun command => Exists fun user => msg2user message = .ok user ∧
      Dao.Enrols user command) (handleRegister this message) := by
  apply Handles.bind (Handles.ofExcept _) (ofExcept_yields _)
  intro user parsed
  apply handles_bind
    (Handles.dao ((Dao.registerUser_composed user).mono (fun _ enrols => ⟨user, parsed, enrols⟩)))
  intro userId
  exact Handles.write _ _ _

theorem finishLogin_handles (this : Bufferevent) (message : Message) (user : User) (userId : Int) :
    Handles True (Admits this.fd) (finishLogin this message user userId) := by
  unfold finishLogin
  split
  · next positive =>
      have sets : Dao.Composed (Admits this.fd) (setOnline { user with userId := userId } this.fd) := by
        apply (Dao.setPresence_composed userId 1 this.fd).mono
        rintro command ⟨time, same⟩
        exact same ▸ Admits.record positive time
      apply handles_bind (Handles.dao sets)
      intro result
      apply handles_bind (Handles.recordLogin trivial _ _)
      intro recorded
      exact Handles.write _ _ _
  · exact Handles.write _ _ _

theorem handleLogin_handles (this : Bufferevent) (message : Message) :
    Handles True (Admits this.fd) (handleLogin this message) := by
  apply handles_bind (Handles.ofExcept _)
  intro user
  apply handles_bind
    (Handles.dao ((Dao.loginUser_composed user).mono (fun _ isRead => Admits.reads isRead)))
  intro userId
  exact finishLogin_handles this message user userId

theorem handleLogout_handles (this : Bufferevent) (message : Message) :
    Handles False (Dao.Presence 0 (-1)) (handleLogout this message) := by
  apply handles_bind (Handles.ofExcept _)
  intro user
  apply handles_bind (Handles.dao (Dao.setOffline_composed user))
  intro userId
  exact Handles.write _ _ _

theorem sendCopies_handles (sender : Bufferevent) (fds : List Int) (message : Message) :
    Handles False (Dao.Saves message.groupId) (sendCopies sender fds message) := by
  induction fds generalizing message with
  | nil => exact Handles.pure _
  | cons fd rest inductionHypothesis =>
      apply handles_bind (Handles.hashGet fd)
      intro receiver
      apply handles_ite (inductionHypothesis message)
      apply handles_bind
      · cases receiver with
        | none => exact Handles.pure _
        | some bev => exact Handles.write _ _ _
      · intro written
        apply Handles.bind (Handles.dao (Dao.saveMessage_composed message.groupId message))
          (dao_yields (Dao.saveMessage_yields message.groupId message))
        intro saved sameRoom
        rw [← sameRoom]
        exact inductionHypothesis saved.2

theorem handleChat_handles (sender : Bufferevent) (message : Message) :
    Handles False (Posts message.groupId) (handleChat sender message) := by
  apply handles_bind
    (Handles.dao ((Dao.getFdByid_composed message.groupId).mono (fun _ isRead => Posts.reads isRead)))
  intro found
  split
  · exact (sendCopies_handles _ _ _).mono (fun _ isSave => Posts.saves isSave)
  · exact handles_ite (Handles.pure _) (Handles.fail _)

/-! ## Messages and events -/

/-- The commands that a message may cause. -/
inductive MessageCommands (this : Bufferevent) (message : Message) : Redis.Command -> Prop where
  | register {user : User} {command : Redis.Command}
      (isType : message.type = MessageType.register.code) (parsed : msg2user message = .ok user)
      (isSo : Dao.Enrols user command) : MessageCommands this message command
  | login {command : Redis.Command} (isType : message.type = MessageType.login.code)
      (isSo : Admits this.fd command) : MessageCommands this message command
  | logout {command : Redis.Command} (isType : message.type = MessageType.logout.code)
      (isSo : Dao.Presence 0 (-1) command) : MessageCommands this message command
  | chat {command : Redis.Command}
      (isType : message.type = MessageType.text.code ∨ message.type = MessageType.image.code)
      (isSo : Posts message.groupId command) : MessageCommands this message command

theorem handleAllMessage_handles (this : Bufferevent) (message : Message) :
    Handles True (MessageCommands this message) (handleAllMessage this message) := by
  unfold handleAllMessage
  apply handles_ite (Handles.fail _)
  split
  · next isType => exact (handleLogin_handles this message).mono (fun _ => MessageCommands.login isType)
  split
  · next isType =>
      exact ((handleLogout_handles this message).mono
        (fun _ => MessageCommands.logout isType)).loosen
  split
  · next isType =>
      apply ((handleRegister_handles this message).mono _).loosen
      rintro command ⟨user, parsed, enrols⟩
      exact MessageCommands.register isType parsed enrols
  split
  · next isType =>
      exact ((handleChat_handles this message).mono (fun _ => MessageCommands.chat isType)).loosen
  · exact Handles.pure _

theorem handleAllMessage_login (this : Bufferevent) {message : Message}
    (isType : message.type = MessageType.login.code) :
    handleAllMessage this message = handleLogin this message := by
  unfold handleAllMessage
  rw [isType, if_neg (by decide), if_pos rfl]

theorem handleAllMessage_logout (this : Bufferevent) {message : Message}
    (isType : message.type = MessageType.logout.code) :
    handleAllMessage this message = handleLogout this message := by
  unfold handleAllMessage
  rw [isType, if_neg (by decide), if_neg (by decide), if_pos rfl]

theorem handleAllMessage_register (this : Bufferevent) {message : Message}
    (isType : message.type = MessageType.register.code) :
    handleAllMessage this message = handleRegister this message := by
  unfold handleAllMessage
  rw [isType, if_neg (by decide), if_neg (by decide), if_neg (by decide), if_pos rfl]

/-- Bytes that arrive change nothing, or they are handled as a message. -/
theorem readcb_cases {world next : World} {bev : Bufferevent} {buf input : Bytes}
    (ran : perform (readcb bev buf input) world = some next) :
    next = world ∨ Exists fun message => Framing.received buf input = .ok (some message) ∧
      perform (handleAllMessage bev message) world = some next := by
  rcases perform_bind ran with ⟨received, sameAs, parsed, rest⟩
  have sameWorld : world = sameAs := congrArg Prod.snd parsed
  subst sameWorld
  cases received with
  | none => exact Or.inl (Option.some.inj rest).symm
  | some message =>
      change perform (if bev.fd ≠ -1 then handleAllMessage bev message else pure ()) world =
        some next at rest
      split at rest
      · exact Or.inr ⟨message, congrArg Prod.fst parsed, rest⟩
      · exact Or.inl (Option.some.inj rest).symm

/-- The commands that an event may cause. -/
inductive EventCommands : Event -> Redis.Command -> Prop where
  | read {bev : Bufferevent} {buf input : Bytes} {message : Message} {command : Redis.Command}
      (received : Framing.received buf input = .ok (some message))
      (isSo : MessageCommands bev message command) : EventCommands (.read bev buf input) command
  | createChatroom {userId1 userId2 : Int} {command : Redis.Command} (isUser1 : Dao.UserId userId1)
      (isUser2 : Dao.UserId userId2) (isSo : Dao.Creates userId1 userId2 command) :
      EventCommands (.createChatroom userId1 userId2) command
  | leaveChatrooom (chatroomId : Int) (username : Bytes) :
      EventCommands (.leaveChatrooom chatroomId username) (.srem (chatroomKey chatroomId) username)
  | delChatrooom {chatroomId : Int} {command : Redis.Command} (isSo : Dao.Deletes chatroomId command) :
      EventCommands (.delChatrooom chatroomId) command

theorem readcb_handles (bev : Bufferevent) (buf input : Bytes) :
    Handles True (EventCommands (.read bev buf input)) (readcb bev buf input) := by
  apply Handles.bind (Handles.ofExcept _) (ofExcept_yields _)
  intro received isReceived
  cases received with
  | none => exact Handles.pure _
  | some message =>
      apply handles_ite _ (Handles.pure _)
      exact (handleAllMessage_handles bev message).mono (fun _ => EventCommands.read isReceived)

/-- What the commands of an event preserve, the event preserves. -/
theorem step_keeps {world next : World} {event : Event} (taken : step world event = some next)
    {property : Redis.Store -> Prop}
    (preserved : forall store command, EventCommands event command -> property store ->
      property (Redis.exec store command).2) (holds : property world.db.store) :
    next.db.outcome = world.db.outcome ∧ property next.db.store := by
  have kept : forall {Value : Type} {action : Action World Value},
      Handles True (EventCommands event) action -> perform action world = some next ->
      next.db.outcome = world.db.outcome ∧ property next.db.store := by
    intro Value action handles ran
    have change := handles.perform ran
    exact ⟨change.outcome, change.store property preserved holds⟩
  cases event with
  | accept fd =>
      simp only [step, Option.ite_none_right_eq_some, Option.map_eq_some_iff] at taken
      rcases taken with ⟨_, conns, _, same⟩
      subst same
      exact ⟨rfl, holds⟩
  | close bev =>
      simp only [step, Option.map_eq_some_iff] at taken
      rcases taken with ⟨conns, _, same⟩
      subst same
      exact ⟨rfl, holds⟩
  | read bev buf input =>
      simp only [step, Option.ite_none_right_eq_some] at taken
      exact kept (readcb_handles bev buf input) taken.2
  | createChatroom userId1 userId2 =>
      simp only [step, Option.ite_none_right_eq_some] at taken
      rcases taken with ⟨⟨isUser1, isUser2⟩, ran⟩
      exact kept (Handles.dao ((Dao.createChatroom_composed userId1 userId2).mono
        (fun _ => EventCommands.createChatroom isUser1 isUser2))) ran
  | leaveChatrooom chatroomId username =>
      exact kept (Handles.dao ((Dao.leaveChatrooom_composed chatroomId username).mono
        (fun _ same => same ▸ EventCommands.leaveChatrooom chatroomId username))) taken
  | delChatrooom chatroomId =>
      exact kept (Handles.dao ((Dao.delChatrooom_composed chatroomId).mono
        (fun _ => EventCommands.delChatrooom))) taken

end World
end ChatHub
