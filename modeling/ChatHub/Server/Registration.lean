import ChatHub.Base.Run
import ChatHub.Server.DaoFrame

namespace ChatHub

/-!
# Registration and login

`register_user` keeps three things in step: the counter `next_user_id`, the
index `users` from names to ids and one record for every id.  `Directory`
relates them to the list of the registrations made so far.  Registering
extends the list, every other function of the data access layer preserves
the relation, and it says what `login_user` answers.
-/

/-- A registration: the name, the password and the id it returned. -/
structure Registration where
  username : Bytes
  pass : Bytes
  userId : Int

theorem Db.Normal.issue {db : Db} (normal : db.Normal) (command : Redis.Command) :
    (db.issue command).Normal :=
  normal

theorem Db.Normal.tick {db : Db} (normal : db.Normal) : db.tick.Normal :=
  normal

theorem Db.Normal.of_outcome {db after : Db} (normal : db.Normal)
    (same : after.outcome = db.outcome) : after.Normal := by
  intro index
  rw [same]
  exact normal index

namespace Dao

open ChatHub.Action

/-! ## Commands that are answered normally -/

section Normal

variable {Value : Type} {db : Db}

theorem ask_of_normal (normal : db.Normal) (command : Redis.Command) :
    ask command db = (.ok (Redis.exec db.store command).1, db.issue command) :=
  ask_answered (normal db.issued) command

theorem ask_bind (normal : db.Normal) (command : Redis.Command)
    (rest : Redis.Reply -> Action Db Value) :
    (ask command >>= rest) db = rest (Redis.exec db.store command).1 (db.issue command) :=
  bind_of_ok (ask_of_normal normal command)

theorem ask_of_exec (db : Db) (normal : db.Normal) {command : Redis.Command} {reply : Redis.Reply}
    {store : Redis.Store} (ran : Redis.exec db.store command = (reply, store)) :
    ask command db = (.ok reply, { db with store := store, issued := db.issued + 1 }) := by
  rw [ask_of_normal normal, ran]
  unfold Db.issue
  rw [ran]

theorem currentTimeMillis_bind (rest : Int -> Action Db Value) :
    (currentTimeMillis >>= rest) db = rest (db.clock db.ticks) db.tick :=
  rfl

end Normal

/-! ## The directory -/

/-- The ids under the names of a list of registrations. -/
def indexOf (registered : List Registration) (username : Bytes) : Option Bytes :=
  (registered.find? (fun registration => registration.username = username)).map
    (fun registration => intText registration.userId)

/-- Counter, index and records of the users are those of the registrations. -/
structure Directory (registered : List Registration) (store : Redis.Store) : Prop where
  names : (registered.map Registration.username).Nodup
  ids : (registered.map Registration.userId).Nodup
  range : forall registration, registration ∈ registered ->
    0 < registration.userId ∧ registration.userId ≤ registered.length
  counter : Redis.counterAt store nextUserIdKey = some (registered.length : Int)
  index : Exists fun fields => Redis.hashAt store usersKey = some fields ∧
    forall username, fields.lookup username = indexOf registered username
  records : forall userId, (Redis.hashAt store (userKey userId)).isSome
  stored : forall registration, registration ∈ registered ->
    Redis.fieldAt store (userKey registration.userId) (ascii "username") =
      some registration.username ∧
    Redis.fieldAt store (userKey registration.userId) (ascii "pass") = some registration.pass

theorem directory_empty : Directory [] ∅ where
  names := List.nodup_nil
  ids := List.nodup_nil
  range := fun _ member => absurd member List.not_mem_nil
  counter := rfl
  index := ⟨∅, rfl, fun _ => rfl⟩
  records := fun _ => rfl
  stored := fun _ member => absurd member List.not_mem_nil

theorem userKey_ne_usersKey (userId : Int) : userKey userId ≠ usersKey := by
  intro same
  have fifth := congrArg (fun key => key[4]?) same
  exact absurd fifth (by change Not (some 0x3A = some 0x73); decide)

theorem userKey_ne_nextUserIdKey (userId : Int) : userKey userId ≠ nextUserIdKey := by
  intro same
  have first := congrArg List.head? same
  exact absurd first (by change Not (some 0x75 = some 0x6E); decide)

theorem usersKey_ne_nextUserIdKey : usersKey ≠ nextUserIdKey := by
  decide

theorem userKey_injective {left right : Int} (same : userKey left = userKey right) :
    left = right :=
  intText_injective (List.append_cancel_left same)

/-- The directory is a matter of the users' keys. -/
theorem Directory.congr {registered : List Registration} {store other : Redis.Store}
    (directory : Directory registered store)
    (same : forall key, UserKey key -> other.lookup key = store.lookup key) :
    Directory registered other where
  names := directory.names
  ids := directory.ids
  range := directory.range
  counter := by
    rw [Redis.counterAt_congr (same _ (Or.inr (Or.inl rfl)))]
    exact directory.counter
  index := by
    rw [Redis.hashAt_congr (same _ (Or.inl rfl))]
    exact directory.index
  records := fun userId => by
    rw [Redis.hashAt_congr (same _ (Or.inr (Or.inr ⟨userId, rfl⟩)))]
    exact directory.records userId
  stored := fun registration member => by
    rw [Redis.fieldAt_congr (same _ (Or.inr (Or.inr ⟨_, rfl⟩))),
      Redis.fieldAt_congr (same _ (Or.inr (Or.inr ⟨_, rfl⟩)))]
    exact directory.stored registration member

theorem Directory.chats {registered : List Registration} {store : Redis.Store} {user : Int -> Prop}
    (directory : Directory registered store) {command : Redis.Command}
    (chats : Chats user command) :
    Directory registered (Redis.exec store command).2 :=
  directory.congr (fun _ isUser => Redis.exec_frame store (isUser.not_chats chats))

theorem Directory.reads {registered : List Registration} {store : Redis.Store}
    (directory : Directory registered store) {command : Redis.Command} (reads : Reads command) :
    Directory registered (Redis.exec store command).2 :=
  directory.congr (fun key _ => Redis.exec_frame store (reads.unwritten key))

theorem hmset_frame (store : Redis.Store) {key other : Bytes} (pairs : List (Bytes × Bytes))
    (different : other ≠ key) :
    (Redis.exec store (.hmset key pairs)).2.lookup other = store.lookup other :=
  Redis.exec_frame store (by exact different)

/-- Fields other than name and password may be set in the record of any user. -/
theorem Directory.hmset {registered : List Registration} {store : Redis.Store}
    (directory : Directory registered store) (userId : Int) {pairs : List (Bytes × Bytes)}
    (notName : ascii "username" ∉ pairs.map Prod.fst)
    (notPass : ascii "pass" ∉ pairs.map Prod.fst) :
    Directory registered (Redis.exec store (.hmset (userKey userId) pairs)).2 where
  names := directory.names
  ids := directory.ids
  range := directory.range
  counter := by
    rw [Redis.counterAt_congr (hmset_frame store pairs (userKey_ne_nextUserIdKey userId).symm)]
    exact directory.counter
  index := by
    rw [Redis.hashAt_congr (hmset_frame store pairs (userKey_ne_usersKey userId).symm)]
    exact directory.index
  records := fun other => by
    rcases Option.isSome_iff_exists.mp (directory.records userId) with ⟨fields, holds⟩
    by_cases same : other = userId
    · rw [same, Redis.exec_hmset_of_hash holds, Redis.hashAt_insert]
      rfl
    · have different : userKey other ≠ userKey userId := fun sameKey =>
        same (userKey_injective sameKey)
      rw [Redis.hashAt_congr (hmset_frame store pairs different)]
      exact directory.records other
  stored := fun registration member => by
    rw [Redis.fieldAt_hmset_of_not_mem store _ notName, Redis.fieldAt_hmset_of_not_mem store _ notPass]
    exact directory.stored registration member

/-- The fields that `set_online` and `set_offline` set. -/
theorem presence_fields (isOnline sockfd time : Bytes) :
    [(ascii "isOnline", isOnline), (ascii "sockfd", sockfd), (ascii "lastOnlineTime", time)].map
      Prod.fst = [ascii "isOnline", ascii "sockfd", ascii "lastOnlineTime"] :=
  rfl

theorem Directory.presence {registered : List Registration} {store : Redis.Store}
    (directory : Directory registered store) {isOnline sockfd : Int} {command : Redis.Command}
    (presence : Presence isOnline sockfd command) :
    Directory registered (Redis.exec store command).2 := by
  cases presence with
  | reads isRead => exact directory.reads isRead
  | record userId time =>
      apply directory.hmset userId
      · rw [presence_fields]
        decide
      · rw [presence_fields]
        decide

/-! ## Lookups in the index -/

theorem indexOf_of_mem {registered : List Registration}
    (names : (registered.map Registration.username).Nodup) {registration : Registration}
    (member : registration ∈ registered) :
    indexOf registered registration.username = some (intText registration.userId) := by
  induction registered with
  | nil => exact absurd member List.not_mem_nil
  | cons head rest inductionHypothesis =>
      rw [List.map_cons, List.nodup_cons] at names
      unfold indexOf
      rcases List.mem_cons.mp member with isHead | inRest
      · rw [isHead]
        simp
      · have different : head.username ≠ registration.username := by
          intro same
          exact names.1 (same ▸ List.mem_map_of_mem inRest)
        rw [List.find?_cons_of_neg (by simpa using different)]
        exact inductionHypothesis names.2 inRest

theorem indexOf_eq_none {registered : List Registration} {username : Bytes}
    (absent : username ∉ registered.map Registration.username) :
    indexOf registered username = none := by
  unfold indexOf
  rw [Option.map_eq_none_iff, List.find?_eq_none]
  intro registration member
  have different : registration.username ≠ username := fun same =>
    absent (same ▸ List.mem_map_of_mem member)
  simpa using different

theorem indexOf_append (registered : List Registration) (new : Registration) (username : Bytes)
    (absent : new.username ∉ registered.map Registration.username) :
    indexOf (registered ++ [new]) username =
      if username = new.username then some (intText new.userId) else indexOf registered username := by
  by_cases same : username = new.username
  · rw [if_pos same, same]
    have missing := indexOf_eq_none absent
    unfold indexOf at missing ⊢
    rw [Option.map_eq_none_iff] at missing
    rw [List.find?_append, missing]
    simp
  · rw [if_neg same]
    have different : Not (new.username = username) := fun equal => same equal.symm
    unfold indexOf
    rw [List.find?_append]
    simp [different]

/-! ## A new registration -/

/-- The store after `register_user` has counted, recorded and indexed a user. -/
def extended (store : Redis.Store) (new : Registration) (fields index : Redis.Table Bytes) :
    Redis.Store :=
  ((store.insert nextUserIdKey (.string (intText new.userId))).insert (userKey new.userId)
    (.hash fields)).insert usersKey (.hash (index.insert new.username (intText new.userId)))

section Extended

variable {store : Redis.Store} {new : Registration} {fields index : Redis.Table Bytes}

theorem extended_counter (low : -2 ^ 63 ≤ new.userId) (high : new.userId < 2 ^ 63) :
    Redis.counterAt (extended store new fields index) nextUserIdKey = some new.userId := by
  have same : (extended store new fields index).lookup nextUserIdKey =
      (store.insert nextUserIdKey (.string (intText new.userId))).lookup nextUserIdKey := by
    unfold extended
    rw [AList.lookup_insert_ne usersKey_ne_nextUserIdKey.symm,
      AList.lookup_insert_ne (userKey_ne_nextUserIdKey _).symm]
  rw [Redis.counterAt_congr same]
  exact Redis.counterAt_insert store nextUserIdKey low high

theorem extended_index : Redis.hashAt (extended store new fields index) usersKey =
    some (index.insert new.username (intText new.userId)) :=
  Redis.hashAt_insert _ _ _

theorem extended_record :
    Redis.hashAt (extended store new fields index) (userKey new.userId) = some fields := by
  have same : (extended store new fields index).lookup (userKey new.userId) =
      some (.hash fields) := by
    unfold extended
    rw [AList.lookup_insert_ne (userKey_ne_usersKey _), AList.lookup_insert]
  unfold Redis.hashAt
  rw [same]

theorem extended_other {userId : Int} (different : userId ≠ new.userId) :
    (extended store new fields index).lookup (userKey userId) = store.lookup (userKey userId) := by
  unfold extended
  rw [AList.lookup_insert_ne (userKey_ne_usersKey _),
    AList.lookup_insert_ne (fun same => different (userKey_injective same)),
    AList.lookup_insert_ne (userKey_ne_nextUserIdKey _)]

/-- The next id, a new name and a record with name and password extend the
directory by one registration. -/
theorem Directory.extend {registered : List Registration} (directory : Directory registered store)
    (nextId : new.userId = registered.length + 1) (small : registered.length + 1 < 2 ^ 31)
    (newName : new.username ∉ registered.map Registration.username)
    (indexed : Redis.hashAt store usersKey = some index)
    (named : fields.lookup (ascii "username") = some new.username)
    (secret : fields.lookup (ascii "pass") = some new.pass) :
    Directory (registered ++ [new]) (extended store new fields index) := by
  have older : forall registration, registration ∈ registered ->
      registration.userId ≠ new.userId := by
    intro registration member same
    have range := directory.range registration member
    omega
  refine ⟨?_, ?_, ?_, ?_, ?_, ?_, ?_⟩
  · rw [List.map_append, List.map_singleton]
    exact List.nodup_append'.mpr ⟨directory.names, List.nodup_singleton _,
      List.disjoint_singleton.mpr newName⟩
  · rw [List.map_append, List.map_singleton]
    refine List.nodup_append'.mpr ⟨directory.ids, List.nodup_singleton _,
      List.disjoint_singleton.mpr ?_⟩
    intro member
    rcases List.mem_map.mp member with ⟨registration, isOld, same⟩
    exact older registration isOld same
  · intro registration member
    rw [List.length_append, List.length_singleton]
    rcases List.mem_append.mp member with isOld | isNew
    · have range := directory.range registration isOld
      omega
    · rw [List.mem_singleton.mp isNew]
      omega
  · rw [extended_counter (by omega) (by omega), nextId, List.length_append, List.length_singleton]
    rfl
  · rcases directory.index with ⟨known, holds, lookups⟩
    rw [indexed, Option.some.injEq] at holds
    refine ⟨_, extended_index, fun username => ?_⟩
    rw [indexOf_append registered new username newName]
    by_cases same : username = new.username
    · rw [if_pos same, same, AList.lookup_insert]
    · rw [if_neg same, AList.lookup_insert_ne same, holds, lookups]
  · intro userId
    by_cases same : userId = new.userId
    · rw [same, extended_record]
      rfl
    · rw [Redis.hashAt_congr (extended_other same)]
      exact directory.records userId
  · intro registration member
    rcases List.mem_append.mp member with isOld | isNew
    · have different := older registration isOld
      rw [Redis.fieldAt_congr (extended_other different), Redis.fieldAt_congr (extended_other different)]
      exact directory.stored registration isOld
    · rw [List.mem_singleton.mp isNew]
      unfold Redis.fieldAt
      rw [extended_record]
      exact ⟨named, secret⟩

end Extended

/-! ## What the functions answer -/

theorem Reads.exec_store {command : Redis.Command} (reads : Reads command) (store : Redis.Store) :
    (Redis.exec store command).2 = store := by
  cases reads with
  | hexists key field =>
      simp only [Redis.exec]
      cases Redis.hashAt store key <;> rfl
  | hget key field =>
      simp only [Redis.exec]
      cases Redis.hashAt store key <;> rfl
  | hmget key fields =>
      simp only [Redis.exec]
      cases Redis.hashAt store key <;> rfl
  | smembers key =>
      simp only [Redis.exec]
      cases Redis.setAt store key <;> rfl

theorem Reads.issue_store {command : Redis.Command} (reads : Reads command) (db : Db) :
    (db.issue command).store = db.store :=
  reads.exec_store db.store

/-- Functions that only read change nothing. -/
theorem Composed.reads_only {Value : Type} {action : Action Db Value}
    (composed : Composed Reads action) (db : Db) :
    (action db).2.outcome = db.outcome ∧ (action db).2.store = db.store :=
  @Composed.keeps _ _ _ composed (fun store => store = db.store)
    (fun store _ isRead same => (isRead.exec_store store).trans same) db rfl

/-- The check for a name looks into the index. -/
theorem isUserExists_index {db : Db} (normal : db.outcome db.issued = .normal) {fields : Redis.Table Bytes}
    (holds : Redis.hashAt db.store usersKey = some fields) (username : Bytes) :
    isUserExists username db =
      (.ok (if (fields.lookup username).isSome then 1 else 0),
        db.issue (.hexists usersKey username)) := by
  unfold isUserExists
  rw [bind_of_ok (ask_answered normal _)]
  simp only [Redis.exec, holds]
  cases (fields.lookup username).isSome <;> rfl

section Runs

variable {registered : List Registration} {db : Db}

theorem nextId_answers (normal : db.Normal) (key : Bytes) :
    Exists fun next => nextId key db = (.ok next, db.issue (.incr key)) := by
  unfold nextId
  rw [ask_bind normal]
  split
  · exact ⟨_, rfl⟩
  · exact ⟨_, rfl⟩

theorem isUserExists_run (normal : db.Normal) (directory : Directory registered db.store)
    (username : Bytes) :
    isUserExists username db =
      (.ok (if (indexOf registered username).isSome then 1 else 0),
        db.issue (.hexists usersKey username)) := by
  rcases directory.index with ⟨fields, holds, lookups⟩
  rw [isUserExists_index (normal db.issued) holds, lookups]

/-- The next number of a counter, as an `int`. -/
theorem nextId_run (normal : db.Normal) {key : Bytes} {last : Int}
    (counter : Redis.counterAt db.store key = some last) (room : last < 2 ^ 63 - 1) :
    nextId key db = (.ok (toInt32 (last + 1)), { db with
      store := db.store.insert key (.string (intText (last + 1))), issued := db.issued + 1 }) := by
  unfold nextId
  rw [bind_of_ok (ask_of_exec db normal (Redis.exec_incr_of_counter counter room))]
  rfl

/-- The fields that a registration sets. -/
def enrolFields (user : User) (time : Int) : List (Bytes × Bytes) :=
  [(ascii "username", user.usernameString), (ascii "pass", user.passString),
    (ascii "registerTime", intText time)]

theorem enrolFields_distinct (user : User) (time : Int) :
    ((enrolFields user time).map Prod.fst).Nodup := by
  have names : (enrolFields user time).map Prod.fst =
      [ascii "username", ascii "pass", ascii "registerTime"] := rfl
  rw [names]
  decide

/-- Storing a user sets the record of the number that is drawn, and the number
under the name. -/
theorem storeUser_sets (normal : db.Normal) (user : User) {userId : Int}
    {fields index : Redis.Table Bytes}
    (counting : nextId nextUserIdKey db = (.ok userId, db.issue (.incr nextUserIdKey)))
    (record : Redis.hashAt db.store (userKey userId) = some fields)
    (indexed : Redis.hashAt db.store usersKey = some index) :
    Exists fun after => storeUser user db = (.ok userId, after) ∧ after.outcome = db.outcome ∧
      after.store = ((Redis.exec db.store (.incr nextUserIdKey)).2.insert (userKey userId)
        (.hash (Redis.setFields fields (enrolFields user (db.clock db.ticks))))).insert usersKey
        (.hash (index.insert user.usernameString (intText userId))) := by
  let counted := db.issue (.incr nextUserIdKey)
  have countedOther : forall {key}, key ≠ nextUserIdKey ->
      counted.store.lookup key = db.store.lookup key :=
    fun different => Redis.exec_frame db.store different
  have countedRecord : Redis.hashAt counted.store (userKey userId) = some fields := by
    rw [Redis.hashAt_congr (countedOther (userKey_ne_nextUserIdKey userId)), record]
  -- the record is set under the number
  let pairs := enrolFields user (db.clock db.ticks)
  have recording := Redis.exec_hmset_of_hash countedRecord pairs
  let recorded := counted.tick.issue (.hmset (userKey userId) pairs)
  have recordedStore : recorded.store = counted.store.insert (userKey userId)
      (.hash (Redis.setFields fields pairs)) := congrArg Prod.snd recording
  have recordedIndex : Redis.hashAt recorded.store usersKey = some index := by
    rw [recordedStore, Redis.hashAt_congr (AList.lookup_insert_ne (userKey_ne_usersKey userId).symm),
      Redis.hashAt_congr (countedOther usersKey_ne_nextUserIdKey), indexed]
  -- and the number under the name
  let indexing : Redis.Command := .hset usersKey user.usernameString (intText userId)
  have after : (Redis.exec recorded.store indexing).2 = recorded.store.insert usersKey
      (.hash (index.insert user.usernameString (intText userId))) := by
    simp only [indexing, Redis.exec, recordedIndex]
  have answered : (Redis.exec recorded.store indexing).1.isError = false := by
    simp only [indexing, Redis.exec, recordedIndex, Redis.Reply.isError]
  refine ⟨recorded.issue indexing, ?_, rfl, ?_⟩
  · unfold storeUser getNextUserid
    rw [bind_of_ok counting, currentTimeMillis_bind]
    change (ask (.hmset (userKey userId) pairs) >>= fun reply =>
      if reply.isError then pure errorNormal
      else ask indexing >>= fun reply =>
        if reply.isError then pure errorNormal else pure userId) counted.tick = _
    rw [ask_bind (normal.issue _).tick]
    change (if (Redis.exec counted.store (.hmset (userKey userId) pairs)).1.isError then _
      else _ : Action Db Int) recorded = _
    rw [recording]
    change (ask indexing >>= fun reply =>
      if reply.isError then pure errorNormal else pure userId) recorded = _
    rw [bind_of_ok (@ask_of_normal recorded normal indexing), answered]
    rfl
  · change (Redis.exec recorded.store indexing).2 = _
    rw [after, recordedStore]
    rfl

/-- Storing a new name succeeds: the answer is the number of users, and the
directory is extended by this registration. -/
theorem storeUser_run (normal : db.Normal) (directory : Directory registered db.store)
    (small : registered.length + 1 < 2 ^ 31) {user : User}
    (newName : user.usernameString ∉ registered.map Registration.username) :
    Exists fun after => storeUser user db = (.ok (registered.length + 1 : Int), after) ∧
      after.outcome = db.outcome ∧
      Directory (registered ++ [⟨user.usernameString, user.passString, registered.length + 1⟩])
        after.store := by
  rcases Option.isSome_iff_exists.mp (directory.records (registered.length + 1)) with
    ⟨fields, record⟩
  rcases directory.index with ⟨index, indexed, _⟩
  have room : (registered.length : Int) < 2 ^ 63 - 1 := by omega
  have counts := Redis.exec_incr_of_counter directory.counter room
  have counting : nextId nextUserIdKey db =
      (.ok (registered.length + 1 : Int), db.issue (.incr nextUserIdKey)) := by
    rw [nextId_run normal directory.counter room, toInt32_eq_self (by omega) (by omega)]
    unfold Db.issue
    rw [counts]
  rcases storeUser_sets normal user counting record indexed with ⟨after, ran, outcome, store⟩
  refine ⟨after, ran, outcome, ?_⟩
  have distinct := enrolFields_distinct user (db.clock db.ticks)
  rw [store, counts]
  apply directory.extend rfl small newName indexed
  · exact Redis.setFields_lookup_of_mem distinct List.mem_cons_self fields
  · exact Redis.setFields_lookup_of_mem distinct
      (List.mem_cons_of_mem _ List.mem_cons_self) fields

theorem indexOf_isSome (registered : List Registration) (username : Bytes) :
    (indexOf registered username).isSome = true <->
      username ∈ registered.map Registration.username := by
  constructor
  · intro isSome
    by_contra absent
    rw [indexOf_eq_none absent] at isSome
    cases isSome
  · intro member
    rcases List.mem_map.mp member with ⟨registration, isRegistered, same⟩
    unfold indexOf
    rw [Option.isSome_map, List.find?_isSome]
    exact ⟨registration, isRegistered, by simpa using same⟩

/-- A new name is registered. -/
theorem registerUser_new (normal : db.Normal) (directory : Directory registered db.store)
    (small : registered.length + 1 < 2 ^ 31) {user : User}
    (newName : user.usernameString ∉ registered.map Registration.username) :
    Exists fun after => registerUser user db = (.ok (registered.length + 1 : Int), after) ∧
      after.outcome = db.outcome ∧
      Directory (registered ++ [⟨user.usernameString, user.passString, registered.length + 1⟩])
        after.store := by
  have absent : Not ((indexOf registered user.usernameString).isSome = true) :=
    fun isSome => newName ((indexOf_isSome _ _).mp isSome)
  have checked := isUserExists_run normal directory user.usernameString
  rw [if_neg absent] at checked
  unfold registerUser
  rw [bind_of_ok checked, if_neg (by decide), if_neg (by decide)]
  apply storeUser_run (normal.issue _) _ small newName
  rw [(Reads.hexists _ _).issue_store]
  exact directory

/-- A name that is registered is refused, and no key is changed. -/
theorem registerUser_again (normal : db.Normal) (directory : Directory registered db.store)
    {user : User} (known : user.usernameString ∈ registered.map Registration.username) :
    registerUser user db =
        (.ok errorUserExists, db.issue (.hexists usersKey user.usernameString)) ∧
      (db.issue (.hexists usersKey user.usernameString)).store = db.store := by
  have checked := isUserExists_run normal directory user.usernameString
  rw [if_pos ((indexOf_isSome _ _).mpr known)] at checked
  refine ⟨?_, (Reads.hexists _ _).issue_store db⟩
  unfold registerUser
  rw [bind_of_ok checked, if_neg (by decide), if_pos (by decide)]
  rfl

theorem lookupUserid_run (normal : db.Normal) (directory : Directory registered db.store)
    {registration : Registration} (member : registration ∈ registered)
    (small : registered.length < 2 ^ 31) :
    lookupUserid registration.username db =
      (.ok (some registration.userId), db.issue (.hget usersKey registration.username)) := by
  rcases directory.index with ⟨fields, holds, lookups⟩
  have range := directory.range registration member
  unfold lookupUserid
  rw [ask_bind normal]
  simp only [Redis.exec, holds, lookups, indexOf_of_mem directory.names member,
    Redis.Reply.ofOption, Redis.Reply.isError, Bool.false_eq_true, if_false]
  change (pure (some (atoll (intText registration.userId))) : Action Db (Option Int)) _ = _
  rw [atoll_intText (by omega) (by omega)]
  rfl

/-- The stored name and password of a registered user are compared. -/
theorem checkPassword_run (normal : db.Normal) (directory : Directory registered db.store)
    {registration : Registration} (member : registration ∈ registered) {user : User}
    (sameName : user.usernameString = registration.username) :
    checkPassword user registration.userId db =
      (.ok (if user.passString = registration.pass then registration.userId else errorNormal),
        db.issue (.hmget (userKey registration.userId) [ascii "username", ascii "pass"])) := by
  rcases Option.isSome_iff_exists.mp (directory.records registration.userId) with ⟨fields, record⟩
  rcases directory.stored registration member with ⟨named, secret⟩
  unfold Redis.fieldAt at named secret
  rw [record, Option.bind_some] at named secret
  have answered : (Redis.exec db.store
      (.hmget (userKey registration.userId) [ascii "username", ascii "pass"])).1 =
      .array [.string registration.username, .string registration.pass] := by
    simp only [Redis.exec, record, List.map_cons, List.map_nil, named, secret,
      Redis.Reply.ofOption]
  unfold checkPassword
  rw [ask_bind normal, answered]
  change (if user.usernameString ≠ registration.username then pure errorNormal
    else if user.passString ≠ registration.pass then pure errorNormal
    else pure registration.userId : Action Db Int) _ = _
  rw [if_neg (not_not.mpr sameName)]
  by_cases samePass : user.passString = registration.pass
  · rw [if_neg (not_not.mpr samePass), if_pos samePass]
    rfl
  · rw [if_pos samePass, if_neg samePass]
    rfl

/-- Login by a name that is registered. -/
theorem loginUser_known (normal : db.Normal) (directory : Directory registered db.store)
    (small : registered.length < 2 ^ 31) {registration : Registration}
    (member : registration ∈ registered) {user : User} (byName : user.userId = 0)
    (sameName : user.usernameString = registration.username) :
    (loginUser user db).1 =
      .ok (if user.passString = registration.pass then registration.userId else errorNormal) := by
  have known : user.usernameString ∈ registered.map Registration.username := by
    rw [sameName]
    exact List.mem_map_of_mem member
  have checked := isUserExists_run normal directory user.usernameString
  rw [if_pos ((indexOf_isSome _ _).mpr known)] at checked
  have directoryAfter : Directory registered
      (db.issue (.hexists usersKey user.usernameString)).store := by
    rw [(Reads.hexists _ _).issue_store]
    exact directory
  have resolved := lookupUserid_run (normal.issue (.hexists usersKey user.usernameString))
    directoryAfter member small
  rw [← sameName] at resolved
  unfold loginUser resolveUserid
  rw [bind_of_ok checked, if_neg (by decide), if_neg (by decide), if_pos byName,
    bind_of_ok resolved]
  have compared := @checkPassword_run registered
    ((db.issue (.hexists usersKey user.usernameString)).issue (.hget usersKey user.usernameString))
    ((normal.issue _).issue _)
    (by
      rw [(Reads.hget _ _).issue_store]
      exact directoryAfter) registration member user sameName
  exact congrArg Prod.fst compared

/-- Login by a name that is not registered. -/
theorem loginUser_unknown (normal : db.Normal) (directory : Directory registered db.store)
    {user : User} (unknown : user.usernameString ∉ registered.map Registration.username) :
    (loginUser user db).1 = .ok errorUserNotexists := by
  have absent : Not ((indexOf registered user.usernameString).isSome = true) :=
    fun isSome => unknown ((indexOf_isSome _ _).mp isSome)
  have checked := isUserExists_run normal directory user.usernameString
  rw [if_neg absent] at checked
  unfold loginUser
  rw [bind_of_ok checked, if_neg (by decide), if_pos rfl]
  rfl

end Runs

end Dao
end ChatHub
