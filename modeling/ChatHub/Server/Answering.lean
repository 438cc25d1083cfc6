import ChatHub.Server.Agreement
import ChatHub.Server.RoomKeys
import ChatHub.Server.StoredOnce

namespace ChatHub

/-!
# Requests that are answered

A client that registers, logs in or logs out gets a reply with the result,
provided that the handler comes to its end.  `login_user` asks whether the
name exists before it uses what is stored under it.  `set_offline` does not,
and the string of the nil reply is a null pointer.
-/

namespace Answering

open ChatHub.Action Dao

/-- Every name in the index leads to a record with a name and a password. -/
def Complete (store : Redis.Store) : Prop :=
  forall name text, Redis.fieldAt store usersKey name = some text ->
    (Redis.fieldAt store (userKey (atoll text)) (ascii "username")).isSome = true ∧
      (Redis.fieldAt store (userKey (atoll text)) (ascii "pass")).isSome = true

/-- A message of an open connection that registers, logs in or logs out, and
the user that it names. -/
structure Request (world : World) where
  this : Bufferevent
  message : Message
  user : User
  type : MessageType
  isOpen : this ∈ world.conns.opened
  isAccount : type ∈ [MessageType.register, MessageType.login, MessageType.logout]
  isType : message.type = type.code
  parsed : msg2user message = .ok user

namespace Request

variable {world : World}

/-- The name is registered. -/
def Known (request : Request world) : Prop :=
  (Redis.fieldAt world.db.store usersKey request.user.usernameString).isSome = true

/-- The handler comes to its end and writes one reply.  For an unknown name a
login and a logout report an error and change nothing. -/
def Answered (request : Request world) : Prop :=
  Exists fun next => Exists fun result =>
    World.handleAllMessage request.this request.message world = (.ok (), next) ∧
    next.written = world.written ++
      [.ofMessage request.this (World.answering request.message request.type result)] ∧
    (request.type ≠ .register -> Not request.Known ->
      result < 0 ∧ next.db.store = world.db.store)

end Request

/-! ## Records of registered users -/

section Complete

variable {store : Redis.Store}

theorem complete_empty : Complete ∅ := by
  intro name text found
  cases found

theorem Complete.congr {other : Redis.Store} (complete : Complete store)
    (same : forall key, UserKey key -> other.lookup key = store.lookup key) : Complete other := by
  intro name text found
  rw [Redis.fieldAt_congr (same _ (Or.inl rfl))] at found
  rw [Redis.fieldAt_congr (same _ (userKey_isUser _)), Redis.fieldAt_congr (same _ (userKey_isUser _))]
  exact complete name text found

theorem complete_aboutUsers : World.AboutUsers Complete where
  congr := fun _ _ same complete => complete.congr same
  presence := fun store userId isOnline sockfd time complete name text found => by
    unfold presenceCommand at found ⊢
    rw [Redis.fieldAt_congr (hmset_frame store _ (userKey_ne_usersKey userId).symm)] at found
    rw [Redis.fieldAt_hmset_of_not_mem, Redis.fieldAt_hmset_of_not_mem]
    · exact complete name text found
    · rw [presence_fields]
      decide
    · rw [presence_fields]
      decide

/-- A registration completes its record before it enters the name. -/
theorem Complete.enter {after : Redis.Store} {user : User} {index : Redis.Table Bytes} {userId : Int}
    (complete : Complete store) (indexed : Redis.hashAt store usersKey = some index)
    (stored : Stored store after user index userId) (isUser : UserId userId) : Complete after := by
  have entered : (Redis.fieldAt after (userKey userId) (ascii "username")).isSome = true ∧
      (Redis.fieldAt after (userKey userId) (ascii "pass")).isSome = true := by
    rw [stored.named, stored.secret]
    exact ⟨rfl, rfl⟩
  intro name text found
  by_cases isNew : atoll text = userId
  · rw [isNew]
    exact entered
  · rw [Redis.fieldAt_congr (stored.others _ isNew), Redis.fieldAt_congr (stored.others _ isNew)]
    apply complete name text
    unfold Redis.fieldAt at found ⊢
    rw [stored.index, Option.bind_some] at found
    rw [indexed, Option.bind_some]
    by_cases isName : name = user.usernameString
    · -- the name leads to the new record
      rw [isName, AList.lookup_insert, Option.some.injEq] at found
      rw [← found, atoll_userId isUser] at isNew
      exact absurd rfl isNew
    · rw [AList.lookup_insert_ne isName] at found
      exact found

end Complete

/-! ## The data access layer -/

section Calls

variable {db : Db} {user : User} {index : Redis.Table Bytes}

theorem index_lookup {store : Redis.Store} (indexed : Redis.hashAt store usersKey = some index)
    (name : Bytes) : Redis.fieldAt store usersKey name = index.lookup name := by
  unfold Redis.fieldAt
  rw [indexed, Option.bind_some]

/-- A name that is not in the index gets a nil reply, which has no string. -/
theorem lookupUserid_absent (normal : db.outcome db.issued = .normal)
    (indexed : Redis.hashAt db.store usersKey = some index) {name : Bytes}
    (absent : index.lookup name = none) :
    (lookupUserid name db).1 = .error .nullPointer := by
  unfold lookupUserid
  rw [bind_of_ok (ask_answered normal _), Redis.exec_hget, indexed]
  change ((if (Redis.Reply.ofOption (index.lookup name)).isError then pure none
    else str (Redis.Reply.ofOption (index.lookup name)) >>= fun text =>
      pure (some (atoll text)) : Action Db (Option Int)) _).1 = _
  rw [absent]
  rfl

/-- A registered name keeps the store, a new one gets a record. -/
theorem registerUser_returns (normal : db.Normal) (records : Records db.store)
    (indexed : Redis.hashAt db.store usersKey = some index) (user : User) :
    Exists fun result => Exists fun after => registerUser user db = (.ok result, after) ∧
      (after.store = db.store ∨ Exists fun userId => Stored db.store after.store user index userId) := by
  have checked := isUserExists_index (normal db.issued) indexed user.usernameString
  have sameStore := (Reads.hexists usersKey user.usernameString).issue_store db
  unfold registerUser
  rw [bind_of_ok checked]
  cases found : index.lookup user.usernameString with
  | some text =>
      rw [Option.isSome_some, if_pos rfl, if_neg (by decide), if_pos (by decide)]
      exact ⟨_, _, rfl, Or.inl sameStore⟩
  | none =>
      rw [Option.isSome_none, if_neg (by decide), if_neg (by decide)]
      rw [← sameStore] at records indexed
      rcases storeUser_stores (normal.issue _) records indexed user with
        ⟨userId, result, after, ran, stored⟩
      rw [sameStore] at stored
      exact ⟨result, after, ran, Or.inr ⟨userId, stored⟩⟩

/-- A record with a name and a password can be compared. -/
theorem checkPassword_returns (normal : db.outcome db.issued = .normal) {userId : Int}
    (named : (Redis.fieldAt db.store (userKey userId) (ascii "username")).isSome = true)
    (secret : (Redis.fieldAt db.store (userKey userId) (ascii "pass")).isSome = true) :
    Exists fun result => Exists fun after => checkPassword user userId db = (.ok result, after) := by
  rcases Option.isSome_iff_exists.mp named with ⟨username, isName⟩
  rcases Option.isSome_iff_exists.mp secret with ⟨pass, isPass⟩
  have answered : (Redis.exec db.store
      (.hmget (userKey userId) [ascii "username", ascii "pass"])).1 =
      .array [.string username, .string pass] := by
    unfold Redis.fieldAt at isName isPass
    rcases Option.bind_eq_some_iff.mp isName with ⟨fields, holds, isField⟩
    rw [holds, Option.bind_some] at isPass
    rw [Redis.exec_hmget, holds]
    change Redis.Reply.array [Redis.Reply.ofOption (fields.lookup (ascii "username")),
      Redis.Reply.ofOption (fields.lookup (ascii "pass"))] = _
    rw [isField, isPass]
    rfl
  unfold checkPassword
  rw [bind_of_ok (ask_answered normal _), answered]
  change Exists fun result => Exists fun after =>
    (if user.usernameString ≠ username then pure errorNormal
      else if user.passString ≠ pass then pure errorNormal
      else pure userId : Action Db Int) _ = (.ok result, after)
  split
  · exact ⟨_, _, rfl⟩
  split
  · exact ⟨_, _, rfl⟩
  · exact ⟨_, _, rfl⟩

/-- Every login by name is answered, and that of an unknown name with an error. -/
theorem loginUser_returns (normal : db.Normal) (complete : Complete db.store)
    (indexed : Redis.hashAt db.store usersKey = some index) (byName : user.userId = 0) :
    Exists fun result => Exists fun after => loginUser user db = (.ok result, after) ∧
      after.store = db.store ∧ after.outcome = db.outcome ∧
      (index.lookup user.usernameString = none -> result = errorUserNotexists) := by
  have unchanged := (loginUser_composed user).reads_only db
  suffices returns : Exists fun result => Exists fun after => loginUser user db = (.ok result, after) ∧
      (index.lookup user.usernameString = none -> result = errorUserNotexists) by
    rcases returns with ⟨result, after, ran, unknown⟩
    rw [ran] at unchanged
    exact ⟨result, after, ran, unchanged.2, unchanged.1, unknown⟩
  have checked := isUserExists_index (normal db.issued) indexed user.usernameString
  unfold loginUser resolveUserid
  rw [bind_of_ok checked, if_pos byName]
  cases found : index.lookup user.usernameString with
  | none =>
      rw [Option.isSome_none, if_neg (by decide), if_pos (by decide)]
      exact ⟨_, _, rfl, fun _ => rfl⟩
  | some text =>
      rw [Option.isSome_some, if_pos rfl, if_neg (by decide), if_neg (by decide)]
      -- the lookups leave the store as it is
      let asked := db.issue (.hexists usersKey user.usernameString)
      let resolved := asked.issue (.hget usersKey user.usernameString)
      have askedStore : asked.store = db.store := (Reads.hexists _ _).issue_store db
      have resolvedStore : resolved.store = db.store :=
        ((Reads.hget _ _).issue_store asked).trans askedStore
      have inIndex := (index_lookup indexed user.usernameString).trans found
      have record := complete _ _ inIndex
      rw [← askedStore] at inIndex
      have resolving := @lookupUserid_index asked (normal _) _ _ inIndex
      rw [← resolvedStore] at record
      rcases @checkPassword_returns resolved user (normal _) _ record.1 record.2 with
        ⟨result, after, ran⟩
      refine ⟨result, after, ?_, fun never => by cases never⟩
      rw [bind_of_ok resolving]
      exact ran

end Calls

/-! ## The handlers -/

/-- What the handlers rely on. -/
structure Kept (world : World) : Prop where
  kinded : Kinded world.db
  truthful : Agreement.Truthful world.db.store
  complete : Complete world.db.store

theorem kept_start (clock : Nat -> Int) : Kept (World.start clock) where
  kinded := World.kinded_start clock
  truthful := Agreement.truthful_empty
  complete := complete_empty

section Handlers

variable {world : World} {this : Bufferevent} {message : Message} {user : User}

theorem Kept.index (kept : Kept world) :
    Exists fun index => Redis.hashAt world.db.store usersKey = some index :=
  Option.isSome_iff_exists.mp (usersKey_holdsHash kept.kinded.kinds)

theorem absent_of_unknown {store : Redis.Store} {index : Redis.Table Bytes}
    (indexed : Redis.hashAt store usersKey = some index) {name : Bytes}
    (unknown : Not ((Redis.fieldAt store usersKey name).isSome = true)) :
    index.lookup name = none := by
  rw [index_lookup indexed, Option.not_isSome_iff_eq_none] at unknown
  exact unknown

theorem handleRegister_answers (kept : Kept world) (isOpen : this ∈ world.conns.opened)
    (parsed : msg2user message = .ok user) : Exists fun next => Exists fun result =>
      World.handleRegister this message world = (.ok (), next) ∧
      next.written = world.written ++ [.ofMessage this (World.answering message .register result)] := by
  rcases kept.index with ⟨index, indexed⟩
  rcases registerUser_returns kept.kinded.normal kept.truthful.records indexed user with
    ⟨result, after, ran, _⟩
  have handled : World.handleRegister this message world =
      World.buffereventWrite this (World.reply message .register result) maxBuff
        { world with db := after } := by
    unfold World.handleRegister
    rw [bind_ofExcept parsed, bind_of_ok (World.dao_of_run ran)]
  exact ⟨_, result, handled.trans (World.write_of_open (by exact isOpen) _ _), rfl⟩

/-- The error code for an unknown name is not positive, so it sets nobody online. -/
theorem handleLogin_answers (kept : Kept world) (isOpen : this ∈ world.conns.opened)
    (parsed : msg2user message = .ok user) : Exists fun next => Exists fun result =>
      World.handleLogin this message world = (.ok (), next) ∧
      next.written = world.written ++ [.ofMessage this (World.answering message .login result)] ∧
      (Not ((Redis.fieldAt world.db.store usersKey user.usernameString).isSome = true) ->
        result < 0 ∧ next.db.store = world.db.store) := by
  rcases kept.index with ⟨index, indexed⟩
  rcases loginUser_returns kept.kinded.normal kept.complete indexed
    (Passwords.msg2user_byName parsed) with ⟨result, after, ran, store, outcome, unknown⟩
  have handled : World.handleLogin this message world =
      World.finishLogin this message user result { world with db := after } := by
    unfold World.handleLogin
    rw [bind_ofExcept parsed, bind_of_ok (World.dao_of_run ran)]
  rw [handled]
  unfold World.finishLogin
  by_cases positive : 0 < toInt32 result
  · rcases World.setPresence_run (kept.kinded.normal.of_outcome outcome) result 1 this.fd with
      ⟨value, online, setting, _, _⟩
    have presence : World.dao (setOnline { user with userId := result } this.fd)
        { world with db := after } = (.ok value, { world with db := online }) :=
      World.dao_of_run setting
    have recording : World.recordLogin this result { world with db := online } =
        (.ok (), { world with db := online, logins := (this, result) :: world.logins }) := rfl
    rw [if_pos positive, bind_of_ok presence, bind_of_ok recording]
    refine ⟨_, result, World.write_of_open (by exact isOpen) _ _, rfl, fun isUnknown => ?_⟩
    rw [unknown (absent_of_unknown indexed isUnknown)] at positive
    exact absurd positive (by decide)
  · rw [if_neg positive]
    refine ⟨_, result, World.write_of_open (by exact isOpen) _ _, rfl, fun isUnknown => ⟨?_, store⟩⟩
    rw [unknown (absent_of_unknown indexed isUnknown)]
    decide

theorem handleLogout_answers (kept : Kept world) (isOpen : this ∈ world.conns.opened)
    (parsed : msg2user message = .ok user)
    (known : (Redis.fieldAt world.db.store usersKey user.usernameString).isSome = true) :
    Exists fun next => Exists fun result =>
      World.handleLogout this message world = (.ok (), next) ∧
      next.written = world.written ++ [.ofMessage this (World.answering message .logout result)] := by
  rcases Option.isSome_iff_exists.mp known with ⟨text, found⟩
  rcases setOffline_run kept.kinded.normal (Passwords.msg2user_byName parsed) found with
    ⟨result, after, ran, _⟩
  have handled : World.handleLogout this message world =
      World.buffereventWrite this (World.reply message .logout result) maxBuff
        { world with db := after } := by
    unfold World.handleLogout logoutUser
    rw [bind_ofExcept parsed, bind_of_ok (World.dao_of_run ran)]
  exact ⟨_, result, handled.trans (World.write_of_open (by exact isOpen) _ _), rfl⟩

/-- The string of the nil reply is used. -/
theorem handleLogout_faults (kept : Kept world) (parsed : msg2user message = .ok user)
    (unknown : Not ((Redis.fieldAt world.db.store usersKey user.usernameString).isSome = true)) :
    (World.handleLogout this message world).1 = .error .nullPointer := by
  rcases kept.index with ⟨index, indexed⟩
  have faulted := lookupUserid_absent (kept.kinded.normal _) indexed
    (absent_of_unknown indexed unknown)
  cases ran : lookupUserid user.usernameString world.db with
  | mk answer after =>
      rw [ran] at faulted
      change answer = .error .nullPointer at faulted
      subst faulted
      have offline : logoutUser user world.db = (.error .nullPointer, after) := by
        unfold logoutUser setOffline resolveUserid
        rw [if_pos (Passwords.msg2user_byName parsed)]
        exact bind_of_error ran
      unfold World.handleLogout
      rw [bind_ofExcept parsed, bind_of_error (World.dao_of_run offline)]

/-- A request is answered unless it logs out a user that does not exist. -/
theorem Kept.answered_iff (kept : Kept world) (request : Request world) :
    request.Answered <-> Not (request.type = .logout ∧ Not request.Known) := by
  rcases request with ⟨this, message, user, type, isOpen, isAccount, isType, parsed⟩
  unfold Request.Answered Request.Known
  simp only [List.mem_cons, List.not_mem_nil, or_false] at isAccount
  rcases isAccount with isRegister | isLogin | isLogout
  · subst isRegister
    rw [World.handleAllMessage_register this isType]
    rcases handleRegister_answers kept isOpen parsed with ⟨next, result, ran, written⟩
    refine iff_of_true ⟨next, result, ran, written, fun never => absurd rfl never⟩ ?_
    rintro ⟨never, _⟩
    cases never
  · subst isLogin
    rw [World.handleAllMessage_login this isType]
    rcases handleLogin_answers kept isOpen parsed with ⟨next, result, ran, written, unknown⟩
    refine iff_of_true ⟨next, result, ran, written, fun _ => unknown⟩ ?_
    rintro ⟨never, _⟩
    cases never
  · subst isLogout
    rw [World.handleAllMessage_logout this isType]
    constructor
    · rintro ⟨next, result, ran, _⟩ ⟨_, unknown⟩
      have faulted := @handleLogout_faults world this message user kept parsed unknown
      rw [ran] at faulted
      cases faulted
    · intro notUnknown
      have known := not_not.mp (fun unknown => notUnknown ⟨rfl, unknown⟩)
      rcases handleLogout_answers kept isOpen parsed known with ⟨next, result, ran, written⟩
      exact ⟨next, result, ran, written, fun _ unknown => absurd known unknown⟩

/-- The number of a new record is an `int`, since the index leads to it. -/
theorem Kept.step {next : World} {event : World.Event} (kept : Kept world)
    (taken : World.step world event = some next) : Kept next := by
  have truthful := kept.truthful.step taken
  refine ⟨World.kinded_step kept.kinded taken, truthful, ?_⟩
  refine complete_aboutUsers.step_register taken (fun this message isType ran => ?_) kept.complete
  rcases World.perform_bind ran with ⟨user, sameAs, parsed, rest⟩
  have sameWorld : world = sameAs := congrArg Prod.snd parsed
  subst sameWorld
  rcases World.perform_dao_bind rest with ⟨result, db, registering, written⟩
  have isNext := World.perform_write written
  subst isNext
  rcases kept.index with ⟨index, indexed⟩
  rcases registerUser_returns kept.kinded.normal kept.truthful.records indexed user with
    ⟨_, after, ran, effect⟩
  rw [registering] at ran
  cases ran
  rcases effect with same | ⟨userId, stored⟩
  · change Complete db.store
    rw [same]
    exact kept.complete
  · have entered : Redis.fieldAt db.store usersKey user.usernameString = some (intText userId) := by
      rw [index_lookup stored.index, AList.lookup_insert]
    rcases truthful.index _ _ entered with ⟨other, isUser, same⟩
    rw [← intText_injective same] at isUser
    exact kept.complete.enter indexed stored isUser

end Handlers

/-- In every state of every run, each request is answered, apart from a logout
of a name that is not registered. -/
theorem answered_iff_not_unknown_logout (clock : Nat -> Int) (events : List World.Event) :
    Run.Always World.step (fun world => forall request : Request world,
      request.Answered <-> Not (request.type = .logout ∧ Not request.Known))
      (World.start clock) events := by
  have kept := @Run.invariant _ _ World.step Kept (World.start clock) (kept_start clock)
    (fun _ _ _ kept taken => kept.step taken) events
  exact kept.mono (fun _ kept request => kept.answered_iff request)

/-- The first client logs out before anybody has registered. -/
theorem firstLogout_not_answered :
    Not (Run.Always World.step (fun world => forall request : Request world, request.Answered)
      (World.start (fun _ => 0)) [.accept 5]) := by
  have reached : (Run.after World.step (World.start (fun _ => 0)) [.accept 5]).map (fun world =>
      (decide ((⟨0, 5⟩ : Bufferevent) ∈ world.conns.opened),
        (World.handleAllMessage ⟨0, 5⟩ (World.request .logout 0 "bob x") world).1.toOption)) =
      some (true, none) := by
    decide +kernel
  have parsed : (msg2user (World.request .logout 0 "bob x")).toOption.isSome = true := by
    decide +kernel
  intro always
  rcases Option.map_eq_some_iff.mp reached with ⟨world, leads, facts⟩
  rw [Prod.mk.injEq] at facts
  rcases facts with ⟨isOpen, faulted⟩
  cases isUser : msg2user (World.request .logout 0 "bob x") with
  | error fault =>
      rw [isUser] at parsed
      cases parsed
  | ok user =>
      have answered := always.finish leads
        { this := ⟨0, 5⟩
          message := World.request .logout 0 "bob x"
          user := user
          type := .logout
          isOpen := of_decide_eq_true isOpen
          isAccount := by decide
          isType := rfl
          parsed := isUser }
      rcases answered with ⟨next, result, ran, _⟩
      change World.handleAllMessage ⟨0, 5⟩ (World.request .logout 0 "bob x") world = _ at ran
      rw [ran] at faulted
      cases faulted

end Answering
end ChatHub
