import ChatHub.Server.HandlerFrame

namespace ChatHub

/-!
# What an event does

An event changes the connections, or it records one login, or it changes the
database by commands that set nobody online.  `Effect` says so, and
`step_effect` is the only place where the handlers are taken apart for it.
Every invariant of the server is derived from the effect of one event.
-/

namespace World

open ChatHub.Action

/-- The worlds differ by ordinary commands and by what was written. -/
structure OrdinaryChange (world next : World) : Prop where
  conns : next.conns = world.conns
  logins : next.logins = world.logins
  outcome : next.db.outcome = world.db.outcome
  store : forall property : Redis.Store -> Prop,
    (forall store command, Dao.Ordinary Dao.UserId command -> property store ->
      property (Redis.exec store command).2) ->
    property world.db.store -> property next.db.store

theorem OrdinaryChange.refl (world : World) : OrdinaryChange world world where
  conns := rfl
  logins := rfl
  outcome := rfl
  store := fun _ _ holds => holds

theorem OrdinaryChange.trans {world middle next : World} (first : OrdinaryChange world middle)
    (second : OrdinaryChange middle next) : OrdinaryChange world next where
  conns := second.conns.trans first.conns
  logins := second.logins.trans first.logins
  outcome := second.outcome.trans first.outcome
  store := fun property preserved holds =>
    second.store property preserved (first.store property preserved holds)

theorem OrdinaryChange.records {world next : World} (change : OrdinaryChange world next)
    (records : Dao.Records world.db.store) : Dao.Records next.db.store :=
  change.store Dao.Records (fun _ _ ordinary records => ordinary.records records) records

theorem OrdinaryChange.rooms {world next : World} (change : OrdinaryChange world next)
    (rooms : Dao.Rooms world.db.store) : Dao.Rooms next.db.store :=
  change.store Dao.Rooms (fun _ _ ordinary rooms => ordinary.rooms rooms) rooms

/-- A user's presence is as before, or the user has been marked as offline. -/
theorem OrdinaryChange.presence_cases {world next : World} (change : OrdinaryChange world next)
    (records : Dao.Records world.db.store) (userId : Int) :
    Dao.SamePresence world.db.store next.db.store userId ∨
      Dao.HasPresence next.db.store userId 0 (-1) := by
  have kept := change.store (fun store => Dao.Records store ∧
      (Dao.SamePresence world.db.store store userId ∨ Dao.HasPresence store userId 0 (-1)))
    (fun store command ordinary holds => by
      refine ⟨ordinary.records holds.1, ?_⟩
      rcases ordinary.presence_cases holds.1 userId with same | offline
      · exact holds.2.imp (fun before => before.trans same) (fun before => same.hasPresence before)
      · exact Or.inr offline)
    ⟨records, Or.inl (Dao.SamePresence.refl _ _)⟩
  exact kept.2

/-- A descriptor that is named after an ordinary change was named before. -/
theorem OrdinaryChange.named {world next : World} (change : OrdinaryChange world next)
    (records : Dao.Records world.db.store) {userId fd : Int}
    (positive : Dao.positiveSockfd next.db.store userId = some fd) :
    Dao.positiveSockfd world.db.store userId = some fd := by
  rcases change.presence_cases records userId with same | offline
  · rw [← same.positiveSockfd]
    exact positive
  · rw [offline.positiveSockfd_eq_none] at positive
    cases positive

/-- Whatever the action returns, it makes an ordinary change. -/
def Ordinarily {Value : Type} (action : Action World Value) : Prop :=
  forall world, OrdinaryChange world (action world).2

/-- An action whose commands are ordinary and that remembers no login. -/
theorem Handles.ordinarily {Value : Type} {allowed : Redis.Command -> Prop}
    {action : Action World Value} (handles : Handles False allowed action)
    (ordinary : forall command, allowed command -> Dao.Ordinary Dao.UserId command) :
    Ordinarily action := by
  intro world
  have change := handles.change world
  exact ⟨change.conns, change.logins (fun never => never), change.outcome,
    fun property preserved holds => change.store property
      (fun store command isAllowed => preserved store command (ordinary command isAllowed)) holds⟩

theorem ordinarily_write (bev : Bufferevent) (json : Bytes) (size : Nat) :
    Ordinarily (buffereventWrite bev json size) :=
  Handles.ordinarily (@Handles.write False (fun _ => False) bev json size)
    (fun _ never => False.elim never)

theorem ordinarily_pure {Value : Type} (value : Value) :
    Ordinarily (pure value : Action World Value) :=
  fun world => OrdinaryChange.refl world

theorem ordinarily_fail {Value : Type} (fault : Fault) :
    Ordinarily (fail fault : Action World Value) :=
  fun world => OrdinaryChange.refl world

theorem Reads.ordinary {command : Redis.Command} (reads : Dao.Reads command) :
    Dao.Ordinary Dao.UserId command :=
  Dao.Ordinary.offline (Dao.Presence.reads reads)

/-! ## The handlers -/

theorem handleRegister_ordinarily (this : Bufferevent) (message : Message) :
    Ordinarily (handleRegister this message) := by
  apply (handleRegister_handles this message).ordinarily
  rintro command ⟨user, _, enrols⟩
  exact Dao.Ordinary.registers enrols.registers

theorem handleLogout_ordinarily (this : Bufferevent) (message : Message) :
    Ordinarily (handleLogout this message) :=
  (handleLogout_handles this message).ordinarily (fun _ => Dao.Ordinary.offline)

theorem handleChat_ordinarily (sender : Bufferevent) (message : Message) :
    Ordinarily (handleChat sender message) := by
  apply (handleChat_handles sender message).ordinarily
  intro command posts
  cases posts with
  | reads isRead => exact Reads.ordinary isRead
  | saves isSave => exact Dao.Ordinary.chats isSave.chats

/-- Setting presence changes the store by one command. -/
theorem setPresence_run {db : Db} (normal : db.Normal) (userId isOnline sockfd : Int) :
    Exists fun result => Exists fun after =>
      setPresence userId isOnline sockfd db = (.ok result, after) ∧
      after.outcome = db.outcome ∧
      after.store = (Redis.exec db.store
        (Dao.presenceCommand userId isOnline sockfd (intText (db.clock db.ticks)))).2 := by
  unfold setPresence
  rw [Dao.currentTimeMillis_bind, Dao.ask_bind normal.tick]
  split
  · exact ⟨_, _, rfl, rfl, rfl⟩
  · exact ⟨_, _, rfl, rfl, rfl⟩

theorem dao_of_run {Value : Type} {action : Action Db Value} {world : World}
    {result : Except Fault Value} {db : Db} (ran : action world.db = (result, db)) :
    dao action world = (result, { world with db := db }) := by
  unfold dao
  rw [ran]

/-- A login that succeeds is remembered, and the record of the user gets the
descriptor of the connection. -/
structure LoginChange (world next : World) (this : Bufferevent) (userId : Int) : Prop where
  positive : 0 < toInt32 userId
  conns : next.conns = world.conns
  logins : next.logins = (this, userId) :: world.logins
  outcome : next.db.outcome = world.db.outcome
  store : Exists fun time =>
    next.db.store = (Redis.exec world.db.store (Dao.presenceCommand userId 1 this.fd time)).2

theorem perform_dao_bind {Value Result : Type} {action : Action Db Value}
    {second : Value -> Action World Result} {world next : World}
    (ran : perform (dao action >>= second) world = some next) :
    Exists fun value => Exists fun db =>
      action world.db = (.ok value, db) ∧ perform (second value) { world with db := db } = some next := by
  rcases perform_bind ran with ⟨value, middle, answer, rest⟩
  unfold dao at answer
  cases inner : action world.db with
  | mk result db =>
      rw [inner] at answer
      cases answer
      exact ⟨value, db, rfl, rest⟩

theorem Ordinarily.perform {Value : Type} {action : Action World Value}
    (ordinarily : Ordinarily action) {world next : World}
    (ran : World.perform action world = some next) : OrdinaryChange world next := by
  have change := ordinarily world
  rcases perform_returns ran with ⟨value, returned⟩
  rw [returned] at change
  exact change

theorem perform_write {world next : World} {bev : Bufferevent} {json : Bytes} {size : Nat}
    (ran : perform (buffereventWrite bev json size) world = some next) :
    next = { world with written := world.written ++ [⟨bev, json, size⟩] } := by
  unfold perform buffereventWrite at ran
  by_cases isOpen : bev ∈ world.conns.opened
  · rw [if_pos isOpen] at ran
    exact (Option.some.inj ran).symm
  · rw [if_neg isOpen] at ran
    cases ran

theorem finishLogin_change {world next : World} (normal : world.db.Normal) {this : Bufferevent}
    {message : Message} {user : User} {userId : Int}
    (ran : perform (finishLogin this message user userId) world = some next) :
    OrdinaryChange world next ∨ LoginChange world next this userId := by
  unfold finishLogin at ran
  by_cases positive : 0 < toInt32 userId
  · right
    rw [if_pos positive] at ran
    rcases perform_dao_bind ran with ⟨result, db, presence, rest⟩
    rcases setPresence_run normal userId 1 this.fd with ⟨result', after, ran', outcome, store⟩
    have sameDb : after = db := congrArg Prod.snd (ran'.symm.trans presence)
    subst sameDb
    rcases perform_bind rest with ⟨_, middle, recorded, written⟩
    cases recorded
    rw [perform_write written]
    exact ⟨positive, rfl, rfl, outcome, _, store⟩
  · left
    rw [if_neg positive] at ran
    exact (ordinarily_write _ _ _).perform ran

/-- `handleLogin` gets this answer from `login_user`. -/
def Answers (world : World) (message : Message) (userId : Int) : Prop :=
  Exists fun user => msg2user message = .ok user ∧ (loginUser user world.db).1 = .ok userId

theorem handleLogin_change {world next : World} (normal : world.db.Normal) {this : Bufferevent}
    {message : Message} (ran : perform (handleLogin this message) world = some next) :
    OrdinaryChange world next ∨
      Exists fun userId => Answers world message userId ∧ LoginChange world next this userId := by
  rcases perform_bind ran with ⟨user, parsedWorld, parsed, rest⟩
  have sameWorld : world = parsedWorld := congrArg Prod.snd parsed
  subst sameWorld
  rcases perform_dao_bind rest with ⟨userId, db, answer, finished⟩
  -- looking up name and password changes nothing
  have held := (Dao.loginUser_composed user).reads_only world.db
  rw [answer] at held
  rcases @finishLogin_change { world with db := db } next (normal.of_outcome held.1) this message
    user userId finished with change | change
  · left
    exact ⟨change.conns, change.logins, change.outcome.trans held.1,
      fun property preserved holds => change.store property preserved (held.2 ▸ holds)⟩
  · right
    rcases change.store with ⟨time, store⟩
    have answers : Answers world message userId :=
      ⟨user, congrArg Prod.fst parsed, congrArg Prod.fst answer⟩
    exact ⟨userId, answers, change.positive, change.conns, change.logins,
      change.outcome.trans held.1, time, held.2 ▸ store⟩

/-! ## The effect of an event -/

/-- The bytes are a login that succeeds for this user. -/
def LogsIn (world : World) (buf input : Bytes) (userId : Int) : Prop :=
  0 < toInt32 userId ∧ Exists fun message => Framing.received buf input = .ok (some message) ∧
    message.type = MessageType.login.code ∧ Answers world message userId

/-- What an event does to the world. -/
inductive Effect (world next : World) : Event -> Prop where
  | accept {fd : Int} (range : fd < 2 ^ 31)
      (taken : world.conns.step (.accept fd) = some next.conns)
      (same : next = { world with conns := next.conns }) : Effect world next (.accept fd)
  | close {bev : Bufferevent} (taken : world.conns.step (.close bev) = some next.conns)
      (same : next = { world with conns := next.conns }) : Effect world next (.close bev)
  | login {bev : Bufferevent} {buf input : Bytes} {userId : Int}
      (isOpen : bev ∈ world.conns.opened) (logsIn : LogsIn world buf input userId)
      (change : LoginChange world next bev userId) :
      Effect world next (.read bev buf input)
  | ordinary {event : Event} (change : OrdinaryChange world next) : Effect world next event

theorem readcb_change {world next : World} (normal : world.db.Normal) {bev : Bufferevent}
    {buf input : Bytes} (ran : perform (readcb bev buf input) world = some next) :
    OrdinaryChange world next ∨ Exists fun userId =>
      LogsIn world buf input userId ∧ LoginChange world next bev userId := by
  rcases readcb_cases ran with same | ⟨message, received, handled⟩
  · rw [same]
    exact Or.inl (OrdinaryChange.refl world)
  · unfold handleAllMessage at handled
    split at handled
    · exact Or.inl ((ordinarily_fail _).perform handled)
    split at handled
    · next isLogin =>
        rcases handleLogin_change normal handled with change | ⟨userId, answers, change⟩
        · exact Or.inl change
        · exact Or.inr ⟨userId, ⟨change.positive, message, received, isLogin, answers⟩, change⟩
    split at handled
    · exact Or.inl ((handleLogout_ordinarily bev message).perform handled)
    split at handled
    · exact Or.inl ((handleRegister_ordinarily bev message).perform handled)
    split at handled
    · exact Or.inl ((handleChat_ordinarily bev message).perform handled)
    · exact Or.inl ((ordinarily_pure _).perform handled)

/-- Every event has one of the effects. -/
theorem step_effect {world next : World} {event : Event} (normal : world.db.Normal)
    (taken : step world event = some next) : Effect world next event := by
  cases event with
  | accept fd =>
      simp only [step, Option.ite_none_right_eq_some, Option.map_eq_some_iff] at taken
      rcases taken with ⟨range, conns, accepted, same⟩
      subst same
      exact Effect.accept range accepted rfl
  | close bev =>
      simp only [step, Option.map_eq_some_iff] at taken
      rcases taken with ⟨conns, closed, same⟩
      subst same
      exact Effect.close closed rfl
  | read bev buf input =>
      simp only [step, Option.ite_none_right_eq_some] at taken
      rcases taken with ⟨⟨isOpen, _⟩, ran⟩
      rcases readcb_change normal ran with change | ⟨userId, logsIn, change⟩
      · exact Effect.ordinary change
      · exact Effect.login isOpen logsIn change
  | createChatroom userId1 userId2 =>
      simp only [step, Option.ite_none_right_eq_some] at taken
      rcases taken with ⟨⟨isUser1, isUser2⟩, ran⟩
      exact Effect.ordinary
        (((Handles.dao (Dao.createChatroom_composed userId1 userId2)).ordinarily
          (fun _ creates => Dao.Ordinary.chats (creates.chats isUser1 isUser2))).perform ran)
  | leaveChatrooom chatroomId username =>
      exact Effect.ordinary
        (((Handles.dao (Dao.leaveChatrooom_composed chatroomId username)).ordinarily
          (fun _ same => same ▸ Dao.Ordinary.chats (Dao.srem_chats chatroomId username))).perform taken)
  | delChatrooom chatroomId =>
      exact Effect.ordinary
        (((Handles.dao (Dao.delChatrooom_composed chatroomId)).ordinarily
          (fun _ deletes => Dao.Ordinary.chats deletes.chats)).perform taken)

/-! ## What holds in every reachable world -/

/-- Redis answers normally, descriptors are what they should be, records and
chatrooms have their types, a user who logged in has a descriptor, and a
record names the descriptor of a login of its user. -/
structure Sane (world : World) : Prop where
  outcome : world.db.outcome = fun _ => .normal
  distinct : world.conns.Distinct
  keyed : world.conns.Keyed
  range : forall bev, bev ∈ world.conns.opened -> bev.fd < 2 ^ 31
  records : Dao.Records world.db.store
  rooms : Dao.Rooms world.db.store
  loggedIn : forall bev userId, (bev, userId) ∈ world.logins ->
    0 < toInt32 userId ∧ (Dao.sockfdOf world.db.store userId).isSome
  named : forall userId fd, Dao.positiveSockfd world.db.store userId = some fd ->
    Exists fun bev => (bev, userId) ∈ world.logins ∧ bev.fd = fd

theorem sane_start (clock : Nat -> Int) : Sane (start clock) where
  outcome := rfl
  distinct := Clients.distinct_init (by decide)
  keyed := Clients.keyed_init (by decide)
  range := fun _ member => absurd member List.not_mem_nil
  records := fun _ => rfl
  rooms := fun _ _ found => nomatch found
  loggedIn := fun _ _ member => absurd member List.not_mem_nil
  named := fun _ _ named => nomatch named

theorem Sane.normal {world : World} (sane : Sane world) : world.db.Normal := by
  intro index
  rw [sane.outcome]

theorem Sane.ordinary {world next : World} (sane : Sane world) (change : OrdinaryChange world next) :
    Sane next := by
  refine ⟨change.outcome.trans sane.outcome, ?_, ?_, ?_, change.records sane.records,
    change.rooms sane.rooms, ?_, ?_⟩
  · rw [change.conns]
    exact sane.distinct
  · rw [change.conns]
    exact sane.keyed
  · rw [change.conns]
    exact sane.range
  · intro bev userId member
    rw [change.logins] at member
    rcases sane.loggedIn bev userId member with ⟨positive, known⟩
    refine ⟨positive, ?_⟩
    rcases change.presence_cases sane.records userId with same | offline
    · rw [same.sockfdOf]
      exact known
    · rw [offline.sockfdOf (by decide) (by decide)]
      rfl
  · intro userId fd positive
    rw [change.logins]
    exact sane.named userId fd (change.named sane.records positive)

/-- A login sets the presence of its user and leaves every other one alone. -/
theorem LoginChange.presence_cases {world next : World} {this : Bufferevent} {userId : Int}
    (change : LoginChange world next this userId) (records : Dao.Records world.db.store)
    (other : Int) :
    Dao.SamePresence world.db.store next.db.store other ∨
      other = userId ∧ Dao.HasPresence next.db.store other 1 this.fd := by
  rcases change.store with ⟨time, store⟩
  rw [store]
  exact Dao.presence_cases records userId 1 this.fd time other

theorem LoginChange.sockfdOf {world next : World} {this : Bufferevent} {userId : Int}
    (change : LoginChange world next this userId) (sane : Sane world)
    (isOpen : this ∈ world.conns.opened) : Dao.sockfdOf next.db.store userId = some this.fd := by
  have nonNegative := sane.distinct.nonNegative this isOpen
  rcases change.store with ⟨time, store⟩
  rw [store]
  exact (Dao.hasPresence_of_record (sane.records userId) 1 this.fd time).sockfdOf (by omega)
    (sane.range this isOpen)

/-- A descriptor that is named after a login was named before by the same
user, or it is the descriptor of this login. -/
theorem LoginChange.named {world next : World} {this : Bufferevent} {userId : Int}
    (change : LoginChange world next this userId) (sane : Sane world)
    (isOpen : this ∈ world.conns.opened) {other fd : Int}
    (positive : Dao.positiveSockfd next.db.store other = some fd) :
    Dao.positiveSockfd world.db.store other = some fd ∨ other = userId ∧ fd = this.fd := by
  rcases change.presence_cases sane.records other with same | ⟨isUser, _⟩
  · rw [same.positiveSockfd] at positive
    exact Or.inl positive
  · rw [Dao.positiveSockfd_eq_some_iff, isUser, change.sockfdOf sane isOpen] at positive
    exact Or.inr ⟨isUser, (Option.some.inj positive.1).symm⟩

theorem Sane.login {world next : World} (sane : Sane world) {this : Bufferevent} {userId : Int}
    (isOpen : this ∈ world.conns.opened) (change : LoginChange world next this userId) :
    Sane next := by
  refine ⟨change.outcome.trans sane.outcome, ?_, ?_, ?_, ?_, ?_, ?_, ?_⟩
  · rw [change.conns]
    exact sane.distinct
  · rw [change.conns]
    exact sane.keyed
  · rw [change.conns]
    exact sane.range
  · rcases change.store with ⟨time, store⟩
    rw [store]
    exact Dao.hmset_records sane.records _ _
  · rcases change.store with ⟨time, store⟩
    rw [store]
    exact sane.rooms.exec (fun _ _ other => nomatch other)
  · intro bev other member
    rw [change.logins] at member
    rcases List.mem_cons.mp member with new | old
    · cases new
      rw [change.sockfdOf sane isOpen]
      exact ⟨change.positive, rfl⟩
    · rcases sane.loggedIn bev other old with ⟨positive, known⟩
      refine ⟨positive, ?_⟩
      rcases change.presence_cases sane.records other with same | ⟨isUser, _⟩
      · rw [same.sockfdOf]
        exact known
      · rw [isUser, change.sockfdOf sane isOpen]
        rfl
  · intro other fd positive
    rw [change.logins]
    rcases change.named sane isOpen positive with before | ⟨isUser, isThis⟩
    · rcases sane.named other fd before with ⟨bev, login, sameFd⟩
      exact ⟨bev, List.mem_cons_of_mem _ login, sameFd⟩
    · rw [isUser]
      exact ⟨this, List.mem_cons_self, isThis.symm⟩

theorem Sane.step {world next : World} {event : Event} (sane : Sane world)
    (taken : World.step world event = some next) : Sane next := by
  cases step_effect sane.normal taken with
  | ordinary change => exact sane.ordinary change
  | login isOpen _ change => exact sane.login isOpen change
  | accept range accepted same =>
      rw [same]
      refine ⟨sane.outcome, sane.distinct.step accepted, sane.keyed.step accepted, ?_,
        sane.records, sane.rooms, sane.loggedIn, sane.named⟩
      rcases Clients.step_accept accepted with ⟨_, clients', _, conns⟩
      intro bev member
      rw [conns] at member
      rcases List.mem_cons.mp member with new | old
      · rw [new]
        exact range
      · exact sane.range bev old
  | close closed same =>
      rw [same]
      refine ⟨sane.outcome, sane.distinct.step closed, sane.keyed.step closed, ?_,
        sane.records, sane.rooms, sane.loggedIn, sane.named⟩
      rcases Clients.step_close closed with ⟨_, value, clients', _, conns⟩
      intro bev member
      rw [conns] at member
      exact sane.range bev (List.mem_of_mem_erase member)

/-- Nobody has logged in on a connection with this descriptor. -/
def unusedFd (world : World) (fd : Int) : Bool :=
  world.logins.all (fun login => login.1.fd ≠ fd)

/-- A descriptor without a login is named by no record. -/
theorem Sane.not_named {world : World} (sane : Sane world) {fd : Int} (unused : world.unusedFd fd = true)
    (userId : Int) : Dao.positiveSockfd world.db.store userId ≠ some fd := by
  intro named
  rcases sane.named userId fd named with ⟨bev, login, sameFd⟩
  have different := List.all_eq_true.mp unused (bev, userId) login
  rw [decide_eq_true_eq] at different
  exact different sameFd

/-! ## What only registrations change -/

/-- A property of the keys of the users that setting the presence keeps. -/
structure AboutUsers (property : Redis.Store -> Prop) : Prop where
  congr : forall store other, (forall key, Dao.UserKey key -> other.lookup key = store.lookup key) ->
    property store -> property other
  presence : forall store userId isOnline sockfd time, property store ->
    property (Redis.exec store (Dao.presenceCommand userId isOnline sockfd time)).2

section AboutUsers

variable {property : Redis.Store -> Prop} {store : Redis.Store} {command : Redis.Command}

theorem keeps_reads (isRead : Dao.Reads command) (holds : property store) :
    property (Redis.exec store command).2 := by
  rw [isRead.exec_store]
  exact holds

theorem AboutUsers.chats (about : AboutUsers property) {user : Int -> Prop}
    (chats : Dao.Chats user command) (holds : property store) :
    property (Redis.exec store command).2 :=
  about.congr store _ (fun _ isUser => Redis.exec_frame store (isUser.not_chats chats)) holds

/-- A message that registers nobody keeps the property. -/
theorem AboutUsers.message (about : AboutUsers property) {this : Bufferevent} {message : Message}
    (isSo : MessageCommands this message command) (other : message.type ≠ MessageType.register.code)
    (holds : property store) : property (Redis.exec store command).2 := by
  cases isSo with
  | register isType => exact absurd isType other
  | login _ isSo =>
      cases isSo with
      | reads isRead => exact keeps_reads isRead holds
      | record _ time => exact about.presence store _ 1 this.fd time holds
  | logout _ isSo =>
      cases isSo with
      | reads isRead => exact keeps_reads isRead holds
      | record userId time => exact about.presence store userId 0 (-1) time holds
  | chat _ isSo =>
      cases isSo with
      | reads isRead => exact keeps_reads isRead holds
      | saves isSave => exact @AboutUsers.chats _ _ _ about (fun _ => True) isSave.chats holds

/-- So does every event that delivers no such message. -/
theorem AboutUsers.step (about : AboutUsers property) {world next : World} {event : Event}
    (taken : step world event = some next)
    (quiet : forall bev buf input message, event = .read bev buf input ->
      Framing.received buf input = .ok (some message) -> message.type ≠ MessageType.register.code)
    (holds : property world.db.store) : property next.db.store := by
  refine (step_keeps taken (fun store command isSo kept => ?_) holds).2
  cases isSo with
  | read received isSo => exact about.message isSo (quiet _ _ _ _ rfl received) kept
  | createChatroom _ _ creates =>
      exact @AboutUsers.chats _ _ _ about (fun _ => True) (creates.chats trivial trivial) kept
  | leaveChatrooom chatroomId username =>
      exact @AboutUsers.chats _ _ _ about (fun _ => True) (Dao.srem_chats chatroomId username) kept
  | delChatrooom deletes => exact @AboutUsers.chats _ _ _ about (fun _ => True) deletes.chats kept

/-- A property of the users is kept by an event if it is kept by handling a
registration. -/
theorem AboutUsers.step_register (about : AboutUsers property) {world next : World} {event : Event}
    (taken : World.step world event = some next)
    (registers : forall this message, message.type = MessageType.register.code ->
      perform (handleRegister this message) world = some next -> property next.db.store)
    (holds : property world.db.store) : property next.db.store := by
  by_cases quiet : forall bev buf input message, event = .read bev buf input ->
      Framing.received buf input = .ok (some message) -> message.type ≠ MessageType.register.code
  · exact about.step taken quiet holds
  · simp only [not_forall, not_not] at quiet
    rcases quiet with ⟨bev, buf, input, message, isRead, received, isType⟩
    subst isRead
    simp only [World.step, Option.ite_none_right_eq_some] at taken
    rcases readcb_cases taken.2 with same | ⟨other, isOther, handled⟩
    · rw [same]
      exact holds
    · rw [received] at isOther
      cases isOther
      rw [handleAllMessage_register bev isType] at handled
      exact registers bev message isType handled

end AboutUsers

end World
end ChatHub
