import ChatHub.Server.Effects

namespace ChatHub

/-!
# Passwords and presence

A registration stores a name and a password.  `login_user` compares both with
what was stored before anything is changed.  `logout_user` looks the name up
and marks the user as offline, whatever the password is.
-/

namespace Dao

open ChatHub.Action

/-! ## What a login has checked -/

section Login

variable {db after : Db} {user : User}

/-- One command was issued, and it changed nothing. -/
structure ReadOnce (db after : Db) : Prop where
  store : after.store = db.store
  outcome : after.outcome = db.outcome
  issued : after.issued = db.issued + 1

/-- A command that reads is answered from the store, or with an error. -/
theorem ask_reads {command : Redis.Command} (isRead : Reads command) {reply : Redis.Reply}
    (ran : ask command db = (.ok reply, after)) :
    ReadOnce db after ∧ (db.outcome db.issued = .normal ∧ reply = (Redis.exec db.store command).1 ∨
      reply.isError = true) := by
  have unchanged := ((Composed.ask isRead).reads_only db).2
  have counted := ask_issued command db
  rw [ran] at unchanged counted
  refine ⟨⟨unchanged, counted.1, counted.2⟩, ?_⟩
  rcases ask_cases command db with ⟨normal, answered⟩ | ⟨_, later, refused⟩ | ⟨_, later, lost⟩
  · rw [answered] at ran
    cases ran
    exact Or.inl ⟨normal, rfl⟩
  · rw [refused] at ran
    cases ran
    exact Or.inr rfl
  · rw [lost] at ran
    cases ran

/-- A check for a name that returns no error was answered normally. -/
theorem isUserExists_reads {username : Bytes} {present : Int}
    (ran : isUserExists username db = (.ok present, after)) (good : present ≠ errorNormal) :
    ReadOnce db after ∧ db.outcome db.issued = .normal := by
  unfold isUserExists at ran
  rcases ok_of_bind ran with ⟨reply, middle, asked, rest⟩
  rcases ask_reads (Reads.hexists _ _) asked with ⟨once, ⟨normal, _⟩ | isError⟩
  · have same : middle = after := by
      split at rest
      · exact congrArg Prod.snd rest
      · exact congrArg Prod.snd rest
    exact ⟨same ▸ once, normal⟩
  · rw [if_pos isError] at rest
    cases rest
    exact absurd rfl good

/-- A field that is compared without an error is stored as expected. -/
theorem compared {stored : Option Bytes} {expected : Bytes} {rest : Action Db Int} {result : Int}
    (ran : (str (Redis.Reply.ofOption stored) >>= fun text =>
      if expected ≠ text then pure errorNormal else rest) db = (.ok result, after))
    (good : result ≠ errorNormal) : stored = some expected ∧ rest db = (.ok result, after) := by
  cases stored with
  | none => cases ran
  | some text =>
      change (if expected ≠ text then pure errorNormal else rest : Action Db Int) db = _ at ran
      split at ran
      · cases ran
        exact absurd rfl good
      · next same => exact ⟨congrArg some (not_not.mp same).symm, ran⟩

/-- An answer that is not the error code was compared with the stored name and
the stored password. -/
theorem checkPassword_matches {userId result : Int}
    (ran : checkPassword user userId db = (.ok result, after)) (good : result ≠ errorNormal) :
    db.outcome db.issued = .normal ∧ result = userId ∧
      Redis.fieldAt db.store (userKey userId) (ascii "username") = some user.usernameString ∧
      Redis.fieldAt db.store (userKey userId) (ascii "pass") = some user.passString := by
  unfold checkPassword at ran
  rcases ok_of_bind ran with ⟨reply, middle, asked, rest⟩
  rcases (ask_reads (Reads.hmget _ _) asked).2 with ⟨normal, fromStore⟩ | isError
  · rw [Redis.exec_hmget] at fromStore
    unfold Redis.fieldAt
    cases holds : Redis.hashAt db.store (userKey userId) with
    | none =>
        rw [holds] at fromStore
        rw [fromStore] at rest
        cases rest
        exact absurd rfl good
    | some fields =>
        rw [holds] at fromStore
        change reply = .array [Redis.Reply.ofOption (fields.lookup (ascii "username")),
          Redis.Reply.ofOption (fields.lookup (ascii "pass"))] at fromStore
        rw [fromStore] at rest
        rcases compared rest good with ⟨username, afterName⟩
        rcases compared afterName good with ⟨pass, returned⟩
        cases returned
        exact ⟨normal, rfl, username, pass⟩
  · rw [if_pos isError] at rest
    cases rest
    exact absurd rfl good

/-- An id that is looked up is that under the name. -/
theorem lookupUserid_finds {username : Bytes} {userId : Int}
    (ran : lookupUserid username db = (.ok (some userId), after)) :
    ReadOnce db after ∧ db.outcome db.issued = .normal ∧
      Exists fun text => Redis.fieldAt db.store usersKey username = some text ∧
        atoll text = userId := by
  unfold lookupUserid at ran
  rcases ok_of_bind ran with ⟨reply, middle, asked, rest⟩
  rcases ask_reads (Reads.hget _ _) asked with ⟨once, ⟨normal, fromStore⟩ | isError⟩
  · rw [Redis.exec_hget] at fromStore
    unfold Redis.fieldAt
    cases holds : Redis.hashAt db.store usersKey with
    | none =>
        rw [holds] at fromStore
        rw [fromStore] at rest
        cases rest
    | some fields =>
        rw [holds] at fromStore
        change reply = Redis.Reply.ofOption (fields.lookup username) at fromStore
        rw [fromStore] at rest
        rw [Option.bind_some]
        cases found : fields.lookup username with
        | none =>
            rw [found] at rest
            cases rest
        | some text =>
            rw [found] at rest
            cases rest
            exact ⟨once, normal, text, rfl, rfl⟩
  · rw [if_pos isError] at rest
    cases rest

/-- The name leads to the record, and name and password are those in it. -/
structure Matches (store : Redis.Store) (user : User) (userId : Int) : Prop where
  indexed : Exists fun text => Redis.fieldAt store usersKey user.usernameString = some text ∧
    atoll text = userId
  named : Redis.fieldAt store (userKey userId) (ascii "username") = some user.usernameString
  secret : Redis.fieldAt store (userKey userId) (ascii "pass") = some user.passString

/-- However the commands are answered, a login by name returns an error code,
or it was answered normally three times and has found a record that matches. -/
theorem loginUser_cases {result : Int} (byName : user.userId = 0)
    (ran : loginUser user db = (.ok result, after)) :
    result = errorNormal ∨ result = errorUserNotexists ∨
      (forall position, position < 3 -> db.outcome (db.issued + position) = .normal) ∧
        Matches db.store user result := by
  by_cases noError : result = errorNormal
  · exact Or.inl noError
  refine Or.inr ?_
  unfold loginUser at ran
  rcases ok_of_bind ran with ⟨present, checked, asked, rest⟩
  split at rest
  · cases rest
    exact absurd rfl noError
  next known =>
  rcases isUserExists_reads asked known with ⟨first, normalFirst⟩
  split at rest
  · cases rest
    exact Or.inl rfl
  rcases ok_of_bind rest with ⟨found, resolvedDb, resolved, compared⟩
  unfold resolveUserid at resolved
  rw [if_pos byName] at resolved
  cases found with
  | none =>
      cases compared
      exact absurd rfl noError
  | some userId =>
      rcases lookupUserid_finds resolved with ⟨second, normalSecond, isFound⟩
      rcases checkPassword_matches compared noError with ⟨normalThird, same, named, secret⟩
      rw [first.outcome, first.issued] at normalSecond
      rw [second.outcome, second.issued, first.outcome, first.issued] at normalThird
      rw [first.store] at isFound
      rw [second.store, first.store] at named secret
      subst same
      refine Or.inr ⟨fun position early => ?_, isFound, named, secret⟩
      match position, early with
      | 0, _ => exact normalFirst
      | 1, _ => exact normalSecond
      | 2, _ => exact normalThird

/-- A positive `int` is no error code. -/
theorem loginUser_matches {result : Int} (byName : user.userId = 0)
    (ran : loginUser user db = (.ok result, after)) (good : 0 < toInt32 result) :
    (forall position, position < 3 -> db.outcome (db.issued + position) = .normal) ∧
      Matches db.store user result := by
  rcases loginUser_cases byName ran with isError | isError | found
  · rw [isError] at good
    exact absurd good (by decide)
  · rw [isError] at good
    exact absurd good (by decide)
  · exact found

end Login

/-! ## What a registration stores -/

/-- A registration leaves name and password in one record and the id of the
record under the name, and no other record is changed. -/
structure Stored (before after : Redis.Store) (user : User) (index : Redis.Table Bytes)
    (userId : Int) : Prop where
  record : Exists fun fields => Exists fun time =>
    Redis.hashAt after (userKey userId) = some (Redis.setFields fields (enrolFields user time))
  index : Redis.hashAt after usersKey = some (index.insert user.usernameString (intText userId))
  others : forall other, other ≠ userId ->
    after.lookup (userKey other) = before.lookup (userKey other)

theorem Stored.named {before after : Redis.Store} {user : User} {index : Redis.Table Bytes}
    {userId : Int} (stored : Stored before after user index userId) :
    Redis.fieldAt after (userKey userId) (ascii "username") = some user.usernameString := by
  rcases stored.record with ⟨fields, time, record⟩
  unfold Redis.fieldAt
  rw [record, Option.bind_some]
  exact Redis.setFields_lookup_of_mem (enrolFields_distinct user time) List.mem_cons_self fields

theorem Stored.secret {before after : Redis.Store} {user : User} {index : Redis.Table Bytes}
    {userId : Int} (stored : Stored before after user index userId) :
    Redis.fieldAt after (userKey userId) (ascii "pass") = some user.passString := by
  rcases stored.record with ⟨fields, time, record⟩
  unfold Redis.fieldAt
  rw [record, Option.bind_some]
  exact Redis.setFields_lookup_of_mem (enrolFields_distinct user time)
    (List.mem_cons_of_mem _ List.mem_cons_self) fields

theorem storeUser_stores {db : Db} (normal : db.Normal) (records : Records db.store)
    {index : Redis.Table Bytes} (indexed : Redis.hashAt db.store usersKey = some index)
    (user : User) :
    Exists fun userId => Exists fun result => Exists fun after =>
      storeUser user db = (.ok result, after) ∧ Stored db.store after.store user index userId := by
  rcases nextId_answers normal nextUserIdKey with ⟨userId, counting⟩
  rcases Option.isSome_iff_exists.mp (records userId) with ⟨fields, record⟩
  rcases storeUser_sets normal user counting record indexed with ⟨after, ran, _, store⟩
  refine ⟨userId, userId, after, ran, ⟨fields, db.clock db.ticks, ?_⟩, ?_, fun other different => ?_⟩
  · rw [store, Redis.hashAt_congr (AList.lookup_insert_ne (userKey_ne_usersKey userId))]
    exact Redis.hashAt_insert _ _ _
  · rw [store]
    exact Redis.hashAt_insert _ _ _
  · rw [store, AList.lookup_insert_ne (userKey_ne_usersKey other),
      AList.lookup_insert_ne (fun same => different (userKey_injective same))]
    exact Redis.exec_frame db.store (userKey_ne_nextUserIdKey other)

/-! ## The registered passwords -/

/-- The index knows the registered names, and a record with a name has the
password that was registered with it. -/
structure Book (registered : List (Bytes × Bytes)) (store : Redis.Store) : Prop where
  names : (registered.map Prod.fst).Nodup
  index : Exists fun fields => Redis.hashAt store usersKey = some fields ∧
    forall name, (fields.lookup name).isSome = true <-> name ∈ registered.map Prod.fst
  records : Records store
  secrets : forall userId name pass,
    Redis.fieldAt store (userKey userId) (ascii "username") = some name ->
    Redis.fieldAt store (userKey userId) (ascii "pass") = some pass -> (name, pass) ∈ registered

section Book

variable {registered : List (Bytes × Bytes)} {store : Redis.Store}

theorem book_empty : Book [] ∅ where
  names := List.nodup_nil
  index := ⟨∅, rfl, fun _ => ⟨(fun found => nomatch found), (fun member => absurd member List.not_mem_nil)⟩⟩
  records := fun _ => rfl
  secrets := fun _ _ _ named => nomatch named

/-- The book is a matter of the users' keys. -/
theorem Book.congr {other : Redis.Store} (book : Book registered store)
    (same : forall key, UserKey key -> other.lookup key = store.lookup key) :
    Book registered other where
  names := book.names
  index := by
    rw [Redis.hashAt_congr (same _ (Or.inl rfl))]
    exact book.index
  records := fun userId => by
    rw [Redis.hashAt_congr (same _ (userKey_isUser userId))]
    exact book.records userId
  secrets := fun userId name pass => by
    rw [Redis.fieldAt_congr (same _ (userKey_isUser userId)),
      Redis.fieldAt_congr (same _ (userKey_isUser userId))]
    exact book.secrets userId name pass

theorem book_aboutUsers : World.AboutUsers (Book registered) where
  congr := fun _ _ same book => book.congr same
  presence := fun store userId isOnline sockfd time book => by
    have frame := hmset_frame store
      [(ascii "isOnline", intText isOnline), (ascii "sockfd", intText sockfd),
        (ascii "lastOnlineTime", time)] (userKey_ne_usersKey userId).symm
    refine ⟨book.names, ?_, hmset_records book.records _ _, fun other name pass => ?_⟩
    · unfold presenceCommand
      rw [Redis.hashAt_congr frame]
      exact book.index
    · unfold presenceCommand
      rw [Redis.fieldAt_hmset_of_not_mem, Redis.fieldAt_hmset_of_not_mem]
      · exact book.secrets other name pass
      · rw [presence_fields]
        decide
      · rw [presence_fields]
        decide

/-- A new name is entered with its password. -/
theorem Book.enter {after : Redis.Store} {user : User} {index : Redis.Table Bytes} {userId : Int}
    (book : Book registered store) (indexed : Redis.hashAt store usersKey = some index)
    (newName : user.usernameString ∉ registered.map Prod.fst)
    (stored : Stored store after user index userId) :
    Book ((user.usernameString, user.passString) :: registered) after where
  names := List.nodup_cons.mpr ⟨newName, book.names⟩
  index := by
    rcases book.index with ⟨fields, holds, known⟩
    rw [indexed, Option.some.injEq] at holds
    subst holds
    refine ⟨_, stored.index, fun name => ?_⟩
    rw [List.map_cons, List.mem_cons]
    by_cases isNew : name = user.usernameString
    · rw [isNew, AList.lookup_insert]
      exact ⟨fun _ => Or.inl rfl, fun _ => rfl⟩
    · rw [AList.lookup_insert_ne isNew, known name]
      exact ⟨Or.inr, fun either => either.resolve_left isNew⟩
  records := fun other => by
    by_cases isNew : other = userId
    · rcases stored.record with ⟨fields, time, record⟩
      rw [isNew, record]
      rfl
    · rw [Redis.hashAt_congr (stored.others other isNew)]
      exact book.records other
  secrets := fun other name pass named secret => by
    by_cases isNew : other = userId
    · rw [isNew, stored.named] at named
      rw [isNew, stored.secret] at secret
      rw [← Option.some.inj named, ← Option.some.inj secret]
      exact List.mem_cons_self
    · rw [Redis.fieldAt_congr (stored.others other isNew)] at named secret
      exact List.mem_cons_of_mem _ (book.secrets other name pass named secret)

/-- A registered name is one that is found in the index. -/
theorem Book.enrolled_iff (book : Book registered store) (name : Bytes) :
    (Redis.fieldAt store usersKey name).isSome = true <-> name ∈ registered.map Prod.fst := by
  rcases book.index with ⟨fields, holds, known⟩
  unfold Redis.fieldAt
  rw [holds, Option.bind_some]
  exact known name

/-- A registration enters the name, unless it is registered. -/
theorem registerUser_book {db after : Db} {user : User} {result : Int} (normal : db.Normal)
    (book : Book registered db.store) (ran : registerUser user db = (.ok result, after)) :
    if user.usernameString ∈ registered.map Prod.fst then Book registered after.store
    else Book ((user.usernameString, user.passString) :: registered) after.store := by
  rcases book.index with ⟨fields, holds, known⟩
  have checked := isUserExists_index (normal db.issued) holds user.usernameString
  have sameStore := (Reads.hexists usersKey user.usernameString).issue_store db
  unfold registerUser at ran
  rw [bind_of_ok checked] at ran
  split
  · next isKnown =>
      rw [if_pos ((known _).mpr isKnown), if_neg (by decide), if_pos (by decide)] at ran
      cases ran
      rw [sameStore]
      exact book
  · next isNew =>
      rw [if_neg (fun found => isNew ((known _).mp found)), if_neg (by decide), if_neg (by decide)]
        at ran
      rw [← sameStore] at book holds
      rcases storeUser_stores (normal.issue _) book.records holds user with
        ⟨userId, stored, later, storing, isStored⟩
      rw [storing] at ran
      cases ran
      exact book.enter holds isNew isStored

end Book

/-! ## Marking a user as offline -/

theorem lookupUserid_index {db : Db} (normal : db.outcome db.issued = .normal) {username text : Bytes}
    (found : Redis.fieldAt db.store usersKey username = some text) :
    lookupUserid username db = (.ok (some (atoll text)), db.issue (.hget usersKey username)) := by
  have answered : (Redis.exec db.store (.hget usersKey username)).1 = .string text := by
    unfold Redis.fieldAt at found
    rw [Redis.exec_hget]
    cases holds : Redis.hashAt db.store usersKey with
    | none =>
        rw [holds] at found
        cases found
    | some fields =>
        rw [holds, Option.bind_some] at found
        change Redis.Reply.ofOption (fields.lookup username) = _
        rw [found]
        rfl
  unfold lookupUserid
  rw [bind_of_ok (ask_answered normal _), answered]
  rfl

/-- By name, a user is marked as offline in the record under the name. -/
theorem setOffline_run {db : Db} (normal : db.Normal) {user : User} (byName : user.userId = 0)
    {text : Bytes} (found : Redis.fieldAt db.store usersKey user.usernameString = some text) :
    Exists fun result => Exists fun after => setOffline user db = (.ok result, after) ∧
      after.store = (Redis.exec db.store
        (presenceCommand (atoll text) 0 (-1) (intText (db.clock db.ticks)))).2 := by
  rcases World.setPresence_run (normal.issue (.hget usersKey user.usernameString)) (atoll text) 0 (-1)
    with ⟨result, after, ran, _, store⟩
  rw [(Reads.hget _ _).issue_store] at store
  refine ⟨result, after, ?_, store⟩
  unfold setOffline resolveUserid
  rw [if_pos byName, bind_of_ok (lookupUserid_index (normal db.issued) found)]
  exact ran

end Dao

/-- The world, and the names that were registered with their passwords. -/
structure Ledger where
  world : World
  registered : List (Bytes × Bytes)

namespace Passwords

open ChatHub.Action Dao

/-- The name is in the index. -/
def enrolled (world : World) (name : Bytes) : Bool :=
  (Redis.fieldAt world.db.store usersKey name).isSome

/-- The name and password of a message that registers, if the name is in the
index only afterwards. -/
def registration (before after : World) : World.Event -> List (Bytes × Bytes)
  | .read _ buf input =>
      match Framing.received buf input with
      | .ok (some message) =>
          match msg2user message with
          | .ok user =>
              if message.type = MessageType.register.code ∧
                  enrolled before user.usernameString = false ∧
                  enrolled after user.usernameString = true then
                [(user.usernameString, user.passString)]
              else []
          | .error _ => []
      | _ => []
  | _ => []

/-- One event of the world, and the registration it makes. -/
def step (ledger : Ledger) (event : World.Event) : Option Ledger :=
  (World.step ledger.world event).map
    (fun next => ⟨next, registration ledger.world next event ++ ledger.registered⟩)

/-- A server on an empty database. -/
def start (clock : Nat -> Int) : Ledger :=
  ⟨World.start clock, []⟩

/-- The message is a login or a logout of a registered user, but its password
is not the one that was registered. -/
structure Intrudes (ledger : Ledger) (message : Message) (user : User) : Prop where
  isType : message.type = MessageType.login.code ∨ message.type = MessageType.logout.code
  parsed : msg2user message = .ok user
  otherPass : Exists fun pass =>
    (user.usernameString, pass) ∈ ledger.registered ∧ user.passString ≠ pass

/-- Handling the message leaves the whole store as it is. -/
def Unchanged (world : World) (this : Bufferevent) (message : Message) : Prop :=
  Redis.SameStore (World.handleAllMessage this message world).2.db.store world.db.store

/-- The record under the name says that the user went offline at this very
time. -/
def JustLeft (world : World) (username : Bytes) : Prop :=
  Exists fun text => Redis.fieldAt world.db.store usersKey username = some text ∧
    HasPresence world.db.store (atoll text) 0 (-1) ∧
    Redis.fieldAt world.db.store (userKey (atoll text)) (ascii "lastOnlineTime") =
      some (intText (world.db.clock world.db.ticks))

/-! ## Handling the message -/

section Messages

variable {world : World} {message : Message} {user : User}

theorem write_db (bev : Bufferevent) (json : Bytes) (size : Nat) (world : World) :
    (World.buffereventWrite bev json size world).2.db = world.db := by
  unfold World.buffereventWrite
  split
  · rfl
  · rfl

theorem msg2user_byName (parsed : msg2user message = .ok user) : user.userId = 0 := by
  unfold msg2user at parsed
  split at parsed
  · cases parsed
    rfl
  split at parsed
  · cases parsed
  split at parsed
  · cases parsed
    rfl
  split at parsed
  · cases parsed
  · cases parsed
    rfl

/-- A login that `login_user` refuses changes nothing. -/
theorem handleLogin_unchanged (this : Bufferevent) (parsed : msg2user message = .ok user)
    (refused : forall result after, loginUser user world.db = (.ok result, after) ->
      Not (0 < toInt32 result)) :
    (World.handleLogin this message world).2.db.store = world.db.store := by
  have sameStore := ((loginUser_composed user).reads_only world.db).2
  unfold World.handleLogin
  rw [bind_ofExcept parsed]
  cases ran : loginUser user world.db with
  | mk answer after =>
      rw [ran] at sameStore
      cases answer with
      | error fault =>
          rw [bind_of_error (World.dao_of_run ran)]
          exact sameStore
      | ok result =>
          rw [bind_of_ok (World.dao_of_run ran)]
          unfold World.finishLogin
          rw [if_neg (refused result after ran), write_db]
          exact sameStore

/-- A logout sets the presence fields in the record under the name. -/
theorem handleLogout_store (normal : world.db.Normal) (this : Bufferevent)
    (parsed : msg2user message = .ok user) {text : Bytes}
    (found : Redis.fieldAt world.db.store usersKey user.usernameString = some text) :
    (World.handleLogout this message world).2.db.store = (Redis.exec world.db.store
      (presenceCommand (atoll text) 0 (-1) (intText (world.db.clock world.db.ticks)))).2 := by
  rcases setOffline_run normal (msg2user_byName parsed) found with ⟨result, after, ran, store⟩
  unfold World.handleLogout logoutUser
  rw [bind_ofExcept parsed, bind_of_ok (World.dao_of_run ran), write_db]
  exact store

theorem presence_same_iff (records : Records world.db.store) (userId : Int) (time : Bytes) :
    Redis.SameStore (Redis.exec world.db.store (presenceCommand userId 0 (-1) time)).2
        world.db.store <->
      HasPresence world.db.store userId 0 (-1) ∧
        Redis.fieldAt world.db.store (userKey userId) (ascii "lastOnlineTime") = some time := by
  rcases Option.isSome_iff_exists.mp (records userId) with ⟨fields, holds⟩
  have distinct : (List.map Prod.fst [(ascii "isOnline", intText 0), (ascii "sockfd", intText (-1)),
      (ascii "lastOnlineTime", time)]).Nodup := by
    rw [presence_fields]
    decide
  unfold presenceCommand HasPresence
  rw [Redis.hmset_same_iff holds (List.cons_ne_nil _ _) distinct]
  simp only [List.mem_cons, Prod.mk.injEq, List.not_mem_nil, or_false]
  constructor
  · intro set
    exact ⟨⟨set _ _ (Or.inl ⟨rfl, rfl⟩), set _ _ (Or.inr (Or.inl ⟨rfl, rfl⟩))⟩,
      set _ _ (Or.inr (Or.inr ⟨rfl, rfl⟩))⟩
  · rintro ⟨⟨isOnline, sockfd⟩, lastOnlineTime⟩ name value
      (⟨isName, isValue⟩ | ⟨isName, isValue⟩ | ⟨isName, isValue⟩)
    · rw [isName, isValue]
      exact isOnline
    · rw [isName, isValue]
      exact sockfd
    · rw [isName, isValue]
      exact lastOnlineTime

end Messages

/-! ## Every run -/

/-- Commands are answered normally, and the book is that of the registrations. -/
structure Kept (ledger : Ledger) : Prop where
  normal : ledger.world.db.Normal
  book : Book ledger.registered ledger.world.db.store

theorem kept_start (clock : Nat -> Int) : Kept (start clock) where
  normal := fun _ => rfl
  book := book_empty

section Steps

variable {ledger : Ledger} {next : World}

theorem registration_of_unchanged {before after : World} {event : World.Event}
    (same : after.db.store = before.db.store) : registration before after event = [] := by
  cases event with
  | read bev buf input =>
      simp only [registration]
      split
      · split
        · apply if_neg
          rintro ⟨_, absent, present⟩
          unfold enrolled at absent present
          rw [same, absent] at present
          cases present
        · rfl
      · rfl
  | _ => rfl

/-- A message that registers enters its name, unless the name is registered. -/
theorem Kept.register {this : Bufferevent} {buf input : Bytes} {message : Message}
    (kept : Kept ledger) (received : Framing.received buf input = .ok (some message))
    (isType : message.type = MessageType.register.code)
    (ran : World.perform (World.handleRegister this message) ledger.world = some next) :
    Book (registration ledger.world next (.read this buf input) ++ ledger.registered)
      next.db.store := by
  rcases World.perform_bind ran with ⟨user, sameAs, parsed, rest⟩
  have sameWorld : ledger.world = sameAs := congrArg Prod.snd parsed
  subst sameWorld
  rcases World.perform_dao_bind rest with ⟨result, db, registering, written⟩
  have book := registerUser_book kept.normal kept.book registering
  have isNext := World.perform_write written
  have entered : registration ledger.world next (.read this buf input) =
      if user.usernameString ∈ ledger.registered.map Prod.fst then []
      else [(user.usernameString, user.passString)] := by
    have isParsed : msg2user message = .ok user := congrArg Prod.fst parsed
    have before := kept.book.enrolled_iff user.usernameString
    simp only [registration, received, isParsed, isType, true_and]
    split at book
    · next isKnown =>
        rw [if_pos isKnown]
        apply if_neg
        rintro ⟨absent, _⟩
        unfold enrolled at absent
        rw [before.mpr isKnown] at absent
        cases absent
    · next isNew =>
        rw [if_neg isNew]
        apply if_pos
        refine ⟨Bool.eq_false_iff.mpr (fun found => isNew (before.mp found)), ?_⟩
        rw [isNext]
        exact (book.enrolled_iff user.usernameString).mpr List.mem_cons_self
  have store : next.db.store = db.store := by rw [isNext]
  rw [entered, store]
  split at book
  · next isKnown =>
      rw [if_pos isKnown]
      exact book
  · next isNew =>
      rw [if_neg isNew]
      exact book

theorem Kept.read {this : Bufferevent} {buf input : Bytes} (kept : Kept ledger)
    (ran : World.perform (World.readcb this buf input) ledger.world = some next) :
    Book (registration ledger.world next (.read this buf input) ++ ledger.registered)
      next.db.store := by
  rcases World.readcb_cases ran with same | ⟨message, received, handled⟩
  · rw [registration_of_unchanged (congrArg (fun world => world.db.store) same), same]
    exact kept.book
  · by_cases isType : message.type = MessageType.register.code
    · rw [World.handleAllMessage_register this isType] at handled
      exact kept.register received isType handled
    · have change := (World.handleAllMessage_handles this message).perform handled
      have nothing : registration ledger.world next (.read this buf input) = [] := by
        simp only [registration, received]
        split
        · exact if_neg (fun registers => isType registers.1)
        · rfl
      rw [nothing]
      exact change.store (Book ledger.registered)
        (fun _ _ isSo book => book_aboutUsers.message isSo isType book) kept.book

theorem Kept.step {after : Ledger} {event : World.Event} (kept : Kept ledger)
    (taken : step ledger event = some after) : Kept after := by
  unfold Passwords.step at taken
  rw [Option.map_eq_some_iff] at taken
  rcases taken with ⟨next, taken, same⟩
  subst same
  have outcome := (@World.step_keeps ledger.world next event taken (fun _ => True)
    (fun _ _ _ _ => trivial) trivial).1
  refine ⟨kept.normal.of_outcome outcome, ?_⟩
  cases event with
  | read bev buf input =>
      simp only [World.step, Option.ite_none_right_eq_some] at taken
      exact kept.read taken.2
  | _ => exact book_aboutUsers.step taken (fun _ _ _ _ isRead => by cases isRead) kept.book

/-- With a wrong password, a login changes nothing, and a logout does unless
the user went offline at this very time. -/
theorem Kept.unchanged_iff {message : Message} {user : User} (kept : Kept ledger)
    (intrudes : Intrudes ledger message user) (this : Bufferevent) :
    Unchanged ledger.world this message <->
      message.type = MessageType.login.code ∨ JustLeft ledger.world user.usernameString := by
  rcases intrudes.otherPass with ⟨pass, isRegistered, otherPass⟩
  unfold Unchanged
  by_cases isLogin : message.type = MessageType.login.code
  · refine ⟨fun _ => Or.inl isLogin, fun _ => ?_⟩
    rw [World.handleAllMessage_login this isLogin]
    apply Redis.SameStore.of_lookups
    intro key
    rw [handleLogin_unchanged this intrudes.parsed]
    intro result after ran positive
    -- the record of the answer has the name, so it has the registered password
    have isMatch := (loginUser_matches (msg2user_byName intrudes.parsed) ran positive).2
    have inBook := kept.book.secrets result _ _ isMatch.named isMatch.secret
    have samePair := List.inj_on_of_nodup_map kept.book.names isRegistered inBook rfl
    exact otherPass (congrArg Prod.snd samePair).symm
  · have isLogout := intrudes.isType.resolve_left isLogin
    have isKnown := (kept.book.enrolled_iff user.usernameString).mpr
      (List.mem_map_of_mem isRegistered)
    rcases Option.isSome_iff_exists.mp isKnown with ⟨text, found⟩
    rw [World.handleAllMessage_logout this isLogout,
      handleLogout_store kept.normal this intrudes.parsed found, presence_same_iff kept.book.records]
    constructor
    · exact fun set => Or.inr ⟨text, found, set⟩
    · rintro (never | ⟨other, isFound, set⟩)
      · exact absurd never isLogin
      · rw [found, Option.some.injEq] at isFound
        subst isFound
        exact set

end Steps

/-- In every state of every run, handling a login or logout with a wrong
password leaves the store as it is exactly if it is a login, or the user went
offline at this very time. -/
theorem unchanged_iff_login (clock : Nat -> Int) (events : List World.Event) :
    Run.Always step (fun ledger => forall this message user, Intrudes ledger message user ->
      (Unchanged ledger.world this message <->
        message.type = MessageType.login.code ∨ JustLeft ledger.world user.usernameString))
      (start clock) events := by
  have kept := @Run.invariant _ _ step Kept (start clock) (kept_start clock)
    (fun _ _ _ kept taken => kept.step taken) events
  exact kept.mono (fun _ kept this _ _ intrudes => kept.unchanged_iff intrudes this)

/-- Bob registers and logs in, and another client connects. -/
def bobOnline : List World.Event :=
  [.accept 5, World.arrival ⟨0, 5⟩ (World.request .register 0 "bob secret"),
    World.arrival ⟨0, 5⟩ (World.request .login 0 "bob secret"), .accept 6]

/-- The other client logs bob out without his password. -/
theorem bobOnline_not_guarded :
    Not (Run.Always step (fun ledger => forall this message user, Intrudes ledger message user ->
      Unchanged ledger.world this message) (start (fun _ => 0)) bobOnline) := by
  intro always
  have reached : (Run.after step (start (fun _ => 0)) bobOnline).map (fun ledger =>
      (ledger.registered, Redis.fieldAt ledger.world.db.store (userKey 1) (ascii "isOnline"),
        Redis.fieldAt (World.handleAllMessage ⟨1, 6⟩ (World.request .logout 0 "bob wrong")
          ledger.world).2.db.store (userKey 1) (ascii "isOnline"))) =
      some ([(ascii "bob", ascii "secret")], some (intText 1), some (intText 0)) := by
    decide +kernel
  rcases Option.map_eq_some_iff.mp reached with ⟨ledger, leads, facts⟩
  rw [Prod.mk.injEq, Prod.mk.injEq] at facts
  rcases facts with ⟨registered, online, offline⟩
  have parsed : (msg2user (World.request .logout 0 "bob wrong")).map (fun user =>
      (user.usernameString, user.passString)) = .ok (ascii "bob", ascii "wrong") := by
    decide +kernel
  cases isUser : msg2user (World.request .logout 0 "bob wrong") with
  | error fault =>
      rw [isUser] at parsed
      cases parsed
  | ok user =>
      rw [isUser] at parsed
      have names := Prod.mk.inj (Except.ok.inj parsed)
      have intrudes : Intrudes ledger (World.request .logout 0 "bob wrong") user := by
        refine ⟨Or.inr rfl, isUser, ascii "secret", ?_, ?_⟩
        · rw [registered, names.1]
          exact List.mem_singleton_self _
        · rw [names.2]
          decide
      have same := always.finish leads ⟨1, 6⟩ _ user intrudes
      have fields := same.fieldAt (userKey 1) (ascii "isOnline")
      rw [online, offline] at fields
      exact absurd fields (by decide)

end Passwords
end ChatHub
