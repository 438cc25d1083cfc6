import ChatHub.Server.RoomKeys

namespace ChatHub

/-!
# Ids that are handed out

Users, chatrooms and the messages of a chatroom get their ids from counters
of 64 bits.  The three functions that draw an id read the answer into an
`int` and return that as a `long long`.  A run remembers every id that such a
call has returned, also where `register_user`, `create_chatroom` or
`save_message` made the call, until the counter is deleted.
-/

namespace Ids

open ChatHub.Action Dao

/-- The counters of the users, of the chatrooms, and of the messages of a
chatroom. -/
inductive Counter where
  | user
  | chatroom
  | message (chatroomId : Int)
  deriving DecidableEq

namespace Counter

/-- Where the counter is stored. -/
def key : Counter -> Bytes
  | .user => nextUserIdKey
  | .chatroom => nextChatroomIdKey
  | .message chatroomId => nextMsgIdKey chatroomId

/-- The function that draws an id from the counter. -/
def next : Counter -> Action Db Int
  | .user => getNextUserid
  | .chatroom => getNextChatroomid
  | .message chatroomId => getNextMsgid chatroomId

/-- The number in the answer to the `INCR` of that function. -/
def counted (counter : Counter) (db : Db) : Option Int :=
  match (redisCommand (.incr counter.key) db).1 with
  | .ok (some (.integer number)) => some number
  | _ => none

end Counter

/-- The counter from which the operation draws an id, and the database in
which it does. -/
def calls : Operation -> Db -> Option (Counter × Db)
  | .getNextUserid, db => some (.user, db)
  | .registerUser user, db =>
      match isUserExists user.usernameString db with
      | (.ok present, middle) => if present = 0 then some (.user, middle) else none
      | _ => none
  | .getNextChatroomid, db => some (.chatroom, db)
  | .createChatroom _ _, db => some (.chatroom, db)
  | .getNextMsgid chatroomId, db => some (.message chatroomId, db)
  | .saveMessage chatroomId _, db => some (.message chatroomId, db)
  | _, _ => none

/-- The id that the operation draws, if Redis has counted. -/
def handedOut (operation : Operation) (db : Db) : List (Counter × Int) :=
  match calls operation db with
  | none => []
  | some (counter, middle) =>
      match counter.counted middle, (counter.next middle).1 with
      | some _, .ok id => [(counter, id)]
      | _, _ => []

/-- The counter of the id was not deleted. -/
def remains (store : Redis.Store) : Counter × Int -> Bool
  | (.message chatroomId, _) => (store.lookup (nextMsgIdKey chatroomId)).isSome
  | _ => true

/-- The database, and the ids that were handed out since their counter was
created. -/
structure State where
  db : Db
  handed : List (Counter × Int)

/-- An empty database with these answers to all commands. -/
def start (outcome : Nat -> Redis.Outcome) (clock : Nat -> Int) : State where
  db := { Db.empty clock with outcome := outcome }
  handed := []

/-- One call, if it returns. -/
def step (state : State) (operation : Operation) : Option State :=
  (Operation.step state.db operation).map (fun after =>
    ⟨after, state.handed.filter (remains after.store) ++ handedOut operation state.db⟩)

/-- The ids are positive, and those of a counter increase. -/
structure Fresh (state : State) : Prop where
  positive : forall entry, entry ∈ state.handed -> 0 < entry.2
  increasing : state.handed.Pairwise
    (fun earlier later => earlier.1 = later.1 -> earlier.2 < later.2)

/-- If Redis answers the count, the counter stands below the greatest `int`. -/
def InRange (state : State) (operation : Operation) : Prop :=
  forall counter middle last, calls operation state.db = some (counter, middle) ->
    middle.outcome middle.issued = .normal ->
    Redis.counterAt middle.store counter.key = some last -> last < 2 ^ 31 - 1

/-! ## Keys of counters -/

theorem Counter.kind (counter : Counter) : kindOf counter.key = .counter := by
  cases counter with
  | user => decide
  | chatroom => decide
  | message chatroomId => exact kindOf_room chatroomId (Or.inr ⟨_, rfl⟩)

theorem Counter.key_injective {left right : Counter} (same : left.key = right.key) : left = right := by
  have notRoom : forall chatroomId key, key.head? ≠ some 0x63 -> nextMsgIdKey chatroomId ≠ key :=
    fun chatroomId key head => chatroomKey_append_ne chatroomId _ head
  cases left with
  | user =>
      cases right with
      | user => rfl
      | chatroom => exact absurd same (by decide)
      | message chatroomId => exact absurd same.symm (notRoom chatroomId _ (by decide))
  | chatroom =>
      cases right with
      | user => exact absurd same (by decide)
      | chatroom => rfl
      | message chatroomId => exact absurd same.symm (notRoom chatroomId _ (by decide))
  | message chatroomId =>
      cases right with
      | user => exact absurd same (notRoom chatroomId _ (by decide))
      | chatroom => exact absurd same (notRoom chatroomId _ (by decide))
      | message other =>
          change nextMsgIdKey chatroomId = nextMsgIdKey other at same
          have isKey : RoomKey other (nextMsgIdKey chatroomId) := same ▸ RoomKey.counter
          rw [RoomKey.unique RoomKey.counter isKey]

/-- The command changes no counter. -/
def Quiet (command : Redis.Command) : Prop :=
  forall key, kindOf key = .counter -> Not (Redis.Writes command key)

section Quiet

variable {Value : Type} {db after : Db}

theorem quiet_of_needs {command : Redis.Command} {key : Bytes} {kind : Redis.Kind}
    (isNeeded : Redis.needs command = some (key, kind)) (isKind : kindOf key = kind)
    (notCounter : kind ≠ .counter) : Quiet command := by
  intro other isCounter writes
  rcases Redis.writes_cases writes with ⟨otherKind, same⟩ | deletes
  · rw [isNeeded, Option.some.injEq, Prod.mk.injEq] at same
    rw [← same.1, isKind] at isCounter
    exact notCounter isCounter
  · rw [deletes] at isNeeded
    cases isNeeded

theorem quiet_of_reads {command : Redis.Command} (reads : Reads command) : Quiet command :=
  fun key _ => reads.unwritten key

theorem quiet_record (userId : Int) (pairs : List (Bytes × Bytes)) :
    Quiet (.hmset (userKey userId) pairs) :=
  quiet_of_needs rfl (Uses.kindOf (@Uses.user (fun _ => True) (fun _ => True) userId)) (by decide)

theorem quiet_presence {isOnline sockfd : Int} {command : Redis.Command}
    (presence : Presence isOnline sockfd command) : Quiet command := by
  cases presence with
  | reads isRead => exact quiet_of_reads isRead
  | record userId time => exact quiet_record userId _

theorem quiet_sadd (chatroomId : Int) (members : List Bytes) :
    Quiet (.sadd (chatroomKey chatroomId) members) :=
  quiet_of_needs rfl
    (Uses.kindOf (@Uses.chatroom (fun _ => True) (fun _ => True) chatroomId trivial)) (by decide)

theorem quiet_srem (chatroomId : Int) (username : Bytes) :
    Quiet (.srem (chatroomKey chatroomId) username) :=
  quiet_of_needs rfl
    (Uses.kindOf (@Uses.chatroom (fun _ => True) (fun _ => True) chatroomId trivial)) (by decide)

/-- What only quiet commands do leaves all counters alone. -/
theorem quiet_keeps {action : Action Db Value} (composed : Composed Quiet action)
    {result : Except Fault Value} (ran : action db = (result, after)) (counter : Counter) :
    after.store.lookup counter.key = db.store.lookup counter.key := by
  have preserved : forall store command, Quiet command ->
      store.lookup counter.key = db.store.lookup counter.key ->
      (Redis.exec store command).2.lookup counter.key = db.store.lookup counter.key :=
    fun store _ quiet same => (Redis.exec_frame store (quiet _ counter.kind)).trans same
  have kept := composed.keeps preserved rfl
  rw [ran] at kept
  exact kept.2

end Quiet

/-! ## Drawing an id -/

/-- Redis has counted, the id is the number read into an `int`, and no other
counter was changed. -/
structure Drawn (counter : Counter) (before : Db) (after : Redis.Store) (last : Int) : Prop where
  normal : before.outcome before.issued = .normal
  counted : counter.counted before = some (last + 1)
  returned : (counter.next before).1 = .ok (toInt32 (last + 1))
  found : Redis.counterAt before.store counter.key = some last
  moved : Redis.counterAt after counter.key = some (last + 1)
  others : forall other : Counter, other ≠ counter ->
    after.lookup other.key = before.store.lookup other.key

section Draws

variable {Value : Type} {db after : Db}

theorem Counter.next_eq (counter : Counter) : counter.next = nextId counter.key := by
  cases counter <;> rfl

theorem Counter.exists_last (counter : Counter) {store : Redis.Store}
    (kinds : Redis.WellKinded kindOf store) :
    Exists fun last => Redis.counterAt store counter.key = some last := by
  have holds := kinds counter.key
  rw [counter.kind] at holds
  exact Option.isSome_iff_exists.mp holds

/-- A count that is answered normally and does not overflow draws an id. -/
theorem Counter.next_draws (counter : Counter) (normal : db.outcome db.issued = .normal) {last : Int}
    (found : Redis.counterAt db.store counter.key = some last) (room : last < 2 ^ 63 - 1) :
    counter.next db = (.ok (toInt32 (last + 1)), db.issue (.incr counter.key)) ∧
      Drawn counter db (db.issue (.incr counter.key)).store last := by
  have range := Redis.counterAt_range found
  have counts := Redis.exec_incr_of_counter found room
  have returns : counter.next db = (.ok (toInt32 (last + 1)), db.issue (.incr counter.key)) := by
    rw [counter.next_eq]
    unfold nextId
    rw [bind_of_ok (ask_answered normal _), counts]
    rfl
  refine ⟨returns, normal, ?_, congrArg Prod.fst returns, found, ?_, fun other different => ?_⟩
  · simp only [Counter.counted, redisCommand, normal, counts]
  · unfold Db.issue
    rw [counts]
    exact Redis.counterAt_insert db.store counter.key (by omega) (by omega)
  · exact Redis.exec_frame db.store (fun isKey => different (Counter.key_injective isKey))

/-- A call that returns has drawn an id, or Redis has not counted. -/
theorem Counter.next_cases (counter : Counter) (kinds : Redis.WellKinded kindOf db.store)
    {result : Int} (ran : counter.next db = (.ok result, after)) :
    (counter.counted db = none ∧ after.store = db.store) ∨
      Exists fun last => Drawn counter db after.store last := by
  rcases counter.exists_last kinds with ⟨last, found⟩
  have asks : (nextId counter.key) db = (.ok result, after) := counter.next_eq ▸ ran
  unfold nextId at asks
  cases answer : db.outcome db.issued with
  | lost carriedOut =>
      rcases ok_of_bind asks with ⟨reply, middle, asked, _⟩
      have faults := ask_lost answer (.incr counter.key)
      rw [asked] at faults
      cases faults
  | error =>
      refine Or.inl ⟨?_, ?_⟩
      · simp only [Counter.counted, redisCommand, answer]
      · rw [bind_of_ok (ask_refused answer _)] at asks
        cases asks
        rfl
  | normal =>
      by_cases full : last = 2 ^ 63 - 1
      · have refused : Redis.exec db.store (.incr counter.key) =
            (.error (ascii "ERR increment or decrement would overflow"), db.store) := by
          simp only [Redis.exec, found, if_pos full]
        refine Or.inl ⟨?_, ?_⟩
        · simp only [Counter.counted, redisCommand, answer, refused]
        · rw [bind_of_ok (ask_answered answer _), refused] at asks
          cases asks
          unfold Db.issue
          rw [refused]
      · have range := Redis.counterAt_range found
        rcases counter.next_draws answer found (by omega) with ⟨returns, drawn⟩
        cases returns.symm.trans ran
        exact Or.inr ⟨last, drawn⟩

/-- The same for a call that is followed by quiet commands. -/
theorem Counter.next_then (counter : Counter) (kinds : Redis.WellKinded kindOf db.store)
    {rest : Int -> Action Db Value} (composed : forall id, Composed Quiet (rest id)) {value : Value}
    (ran : (counter.next >>= rest) db = (.ok value, after)) :
    (counter.counted db = none ∧
        forall other : Counter, after.store.lookup other.key = db.store.lookup other.key) ∨
      Exists fun last => Drawn counter db after.store last := by
  rcases ok_of_bind ran with ⟨id, middle, drawing, remaining⟩
  have same := quiet_keeps (composed id) remaining
  rcases counter.next_cases kinds drawing with ⟨nothing, unchanged⟩ | ⟨last, drawn⟩
  · refine Or.inl ⟨nothing, fun other => ?_⟩
    rw [same other, unchanged]
  · refine Or.inr ⟨last, drawn.normal, drawn.counted, drawn.returned, drawn.found, ?_,
      fun other different => ?_⟩
    · rw [Redis.counterAt_congr (same counter)]
      exact drawn.moved
    · rw [same other, drawn.others other different]

end Draws

/-! ## One operation -/

/-- An operation draws one id, or counts nothing and leaves the counters
alone, except that it may delete counters of messages. -/
inductive Effect (operation : Operation) (db : Db) (after : Redis.Store) : Prop where
  | draws {counter : Counter} {middle : Db} {last : Int}
      (isCall : calls operation db = some (counter, middle))
      (drawn : Drawn counter middle after last) : Effect operation db after
  | keeps
      (nothing : forall counter middle, calls operation db = some (counter, middle) ->
        counter.counted middle = none)
      (kept : forall counter : Counter, after.lookup counter.key = db.store.lookup counter.key ∨
        (Exists fun chatroomId => counter = .message chatroomId) ∧ after.lookup counter.key = none) :
      Effect operation db after

section Effects

variable {operation : Operation} {db after : Db} {answer : Answer}

/-- An operation without a call, whose commands are quiet. -/
theorem effect_of_quiet (noCall : calls operation db = none)
    (quiet : forall command, operation.Commands command -> Quiet command)
    (ran : operation.run db = (.ok answer, after)) : Effect operation db after.store := by
  refine Effect.keeps (fun counter middle isCall => ?_) (fun counter => Or.inl ?_)
  · rw [noCall] at isCall
    cases isCall
  · exact quiet_keeps (operation.run_composed.mono quiet) ran counter

theorem isUserExists_store {username : Bytes} {present : Int}
    (checked : isUserExists username db = (.ok present, after)) : after.store = db.store := by
  have reads : Composed Reads (isUserExists username) :=
    (isUserExists_composed _).mono (fun _ same => same ▸ Reads.hexists _ _)
  have kept := (reads.reads_only db).2
  rw [checked] at kept
  exact kept

/-- Nothing is stored before an id is drawn. -/
theorem calls_store {counter : Counter} {middle : Db}
    (isCall : calls operation db = some (counter, middle)) : middle.store = db.store := by
  cases operation with
  | registerUser user =>
      simp only [calls] at isCall
      split at isCall
      · next checked =>
          split at isCall
          · cases isCall
            exact isUserExists_store checked
          · cases isCall
      · cases isCall
  | getNextUserid | getNextChatroomid | createChatroom _ _ | getNextMsgid _ | saveMessage _ _ =>
      cases isCall
      rfl
  | _ => cases isCall

/-- An operation that draws an id and goes on with quiet commands. -/
theorem effect_of_next {Value : Type} {middle : Db} {counter : Counter}
    (kinds : Redis.WellKinded kindOf db.store)
    (isCall : calls operation db = some (counter, middle))
    {rest : Int -> Action Db Value} (composed : forall id, Composed Quiet (rest id)) {value : Value}
    (ran : (counter.next >>= rest) middle = (.ok value, after)) :
    Effect operation db after.store := by
  have same := calls_store isCall
  rcases counter.next_then (same ▸ kinds) composed ran with ⟨nothing, kept⟩ | ⟨last, drawn⟩
  · refine Effect.keeps (fun other otherMiddle isOther => ?_) (fun other => Or.inl ?_)
    · cases isCall.symm.trans isOther
      exact nothing
    · rw [kept other, same]
  · exact Effect.draws isCall drawn

/-- `register_user` draws an id if the name is free. -/
theorem effect_registerUser (kinds : Redis.WellKinded kindOf db.store) (user : User) {result : Int}
    (ran : registerUser user db = (.ok result, after)) :
    Effect (.registerUser user) db after.store := by
  rcases ok_of_bind ran with ⟨present, middle, checked, rest⟩
  have isCall : calls (.registerUser user) db = if present = 0 then some (.user, middle) else none := by
    simp only [calls, checked]
  by_cases absent : present = 0
  · rw [if_pos absent] at isCall
    rw [absent] at rest
    change storeUser user middle = (.ok result, after) at rest
    refine effect_of_next kinds isCall (fun userId => ?_) rest
    apply composed_bind Composed.time
    intro time
    apply composed_bind (Composed.ask (quiet_record _ _))
    intro reply
    apply composed_ite (Composed.pure _)
    apply composed_bind (Composed.ask (quiet_of_needs rfl (by decide) (by decide)))
    intro reply
    exact composed_ite (Composed.pure _) (Composed.pure _)
  · rw [if_neg absent] at isCall
    have unchanged : after = middle := by
      rw [if_pos absent] at rest
      split at rest
      · exact (congrArg Prod.snd rest).symm
      · exact (congrArg Prod.snd rest).symm
    refine Effect.keeps (fun counter other isOther => ?_) (fun counter => Or.inl ?_)
    · cases isCall.symm.trans isOther
    · rw [unchanged, isUserExists_store checked]

/-- `del_chatrooom` may delete counters of messages, and no other ones. -/
theorem effect_delChatrooom {chatroomId result : Int}
    (ran : delChatrooom chatroomId db = (.ok result, after)) :
    Effect (.delChatrooom chatroomId) db after.store := by
  refine Effect.keeps (fun counter middle isCall => by cases isCall) (fun counter => ?_)
  have preserved : forall store command, Deletes chatroomId command ->
      store.lookup counter.key = db.store.lookup counter.key ∨
        (Exists fun other => counter = .message other) ∧ store.lookup counter.key = none ->
      (Redis.exec store command).2.lookup counter.key = db.store.lookup counter.key ∨
        (Exists fun other => counter = .message other) ∧
          (Redis.exec store command).2.lookup counter.key = none := by
    intro store command deletes held
    cases deletes with
    | search => exact held
    | @del key starts =>
        by_cases isKey : counter.key = key
        · subst isKey
          refine Or.inr ⟨?_, AList.lookup_erase _ _⟩
          rcases starts with ⟨tail, same⟩
          cases counter with
          | user => exact absurd same (chatroomKey_append_ne chatroomId tail (by decide))
          | chatroom => exact absurd same (chatroomKey_append_ne chatroomId tail (by decide))
          | message other => exact ⟨other, rfl⟩
        · have unwritten : Not (Redis.Writes (.del key) counter.key) := isKey
          rw [Redis.exec_frame store unwritten]
          exact held
  have kept := (delChatrooom_composed chatroomId).keeps preserved (Or.inl rfl)
  rw [ran] at kept
  exact kept.2

theorem effect_of_run (kinds : Redis.WellKinded kindOf db.store)
    (ran : operation.run db = (.ok answer, after)) : Effect operation db after.store := by
  have reads : operation.Commands = Reads -> calls operation db = none ->
      Effect operation db after.store := by
    intro same noCall
    exact effect_of_quiet noCall (fun _ isIssued => quiet_of_reads (same ▸ isIssued)) ran
  cases operation with
  | registerUser user =>
      rcases Operation.run_of_number ran with ⟨result, returned⟩
      exact effect_registerUser kinds user returned
  | loginUser user => exact reads rfl rfl
  | logoutUser user => exact effect_of_quiet rfl (fun _ => quiet_presence) ran
  | setOnline user fd => exact effect_of_quiet rfl (fun _ => quiet_presence) ran
  | setOffline user => exact effect_of_quiet rfl (fun _ => quiet_presence) ran
  | getNextUserid =>
      exact effect_of_next kinds rfl (fun _ => Composed.pure _) ran
  | getUseridByName username => exact reads rfl rfl
  | isUserExists username =>
      refine effect_of_quiet rfl (fun _ isIssued => ?_) ran
      cases isIssued
      exact quiet_of_reads (Reads.hexists _ _)
  | getFdByid chatroomId => exact reads rfl rfl
  | getNextChatroomid => exact effect_of_next kinds rfl (fun _ => Composed.pure _) ran
  | createChatroom userId1 userId2 =>
      rcases Operation.run_of_number ran with ⟨result, returned⟩
      refine effect_of_next kinds rfl (fun chatroomId => ?_) returned
      apply composed_ite (Composed.pure _)
      apply composed_bind (Composed.ask (quiet_sadd _ _))
      intro reply
      exact composed_ite (Composed.pure _) (Composed.pure _)
  | delChatrooom chatroomId =>
      rcases Operation.run_of_number ran with ⟨result, returned⟩
      exact effect_delChatrooom returned
  | leaveChatrooom chatroomId username =>
      refine effect_of_quiet rfl (fun _ isIssued => ?_) ran
      cases isIssued
      exact quiet_srem _ _
  | isUserExistsInchatroom chatroomId username =>
      refine effect_of_quiet rfl (fun _ isIssued => ?_) ran
      cases isIssued
      exact fun _ _ writes => writes
  | getNextMsgid chatroomId => exact effect_of_next kinds rfl (fun _ => Composed.pure _) ran
  | saveMessage chatroomId message =>
      rcases ok_of_bind ran with ⟨saved, middle, returned, same⟩
      cases same
      refine effect_of_next kinds rfl (fun msgId => ?_) returned
      apply composed_ite (Composed.pure _)
      apply composed_bind (stampMessage_composed message)
      intro stamped
      apply composed_bind (Composed.ask
        (quiet_of_needs rfl (kindOf_messageKey chatroomId (zeroExtended msgId)) (by decide)))
      intro reply
      exact composed_ite (Composed.pure _) (Composed.pure _)

end Effects

/-! ## Runs -/

section Runs

variable {operation : Operation} {state next : State} {counter : Counter} {db middle : Db}

theorem handedOut_of_drawn {after : Redis.Store} {last : Int}
    (isCall : calls operation db = some (counter, middle)) (drawn : Drawn counter middle after last) :
    handedOut operation db = [(counter, toInt32 (last + 1))] := by
  simp only [handedOut, isCall, drawn.counted, drawn.returned]

theorem handedOut_of_nothing (nothing : forall counter middle,
    calls operation db = some (counter, middle) -> counter.counted middle = none) :
    handedOut operation db = [] := by
  unfold handedOut
  cases isCall : calls operation db with
  | none => rfl
  | some call => simp only [nothing call.1 call.2 isCall]

/-- No id of the counter is greater than the number it stands at. -/
def Counts (state : State) (counter : Counter) : Prop :=
  Exists fun last => Redis.counterAt state.db.store counter.key = some last ∧
    0 ≤ last ∧ last < 2 ^ 31 ∧ forall id, (counter, id) ∈ state.handed -> id ≤ last

/-- What holds along runs whose ids are in the range of `int`. -/
structure Kept (state : State) : Prop where
  kinds : Redis.WellKinded kindOf state.db.store
  counts : forall counter, Counts state counter
  fresh : Fresh state

theorem kept_start (outcome : Nat -> Redis.Outcome) (clock : Nat -> Int) :
    Kept (start outcome clock) where
  kinds := Redis.wellKinded_empty kindOf
  counts counter := by
    refine ⟨0, ?_, Int.le_refl 0, by decide, fun id member => absurd member List.not_mem_nil⟩
    rfl
  fresh := ⟨fun _ member => absurd member List.not_mem_nil, List.Pairwise.nil⟩

/-- Ids whose counter was not deleted are as fresh as all of them. -/
theorem Fresh.filter (fresh : Fresh state) {keep : Counter × Int -> Bool}
    (handed : next.handed = state.handed.filter keep) : Fresh next := by
  refine ⟨fun entry member => ?_, ?_⟩
  · rw [handed] at member
    exact fresh.positive entry (List.mem_filter.mp member).1
  · rw [handed]
    exact fresh.increasing.filter _

/-- A new id is above the older ones of its counter. -/
theorem Fresh.append (fresh : Fresh state) {id : Int}
    (handed : next.handed = state.handed ++ [(counter, id)]) (positive : 0 < id)
    (above : forall other, (counter, other) ∈ state.handed -> other < id) : Fresh next := by
  refine ⟨fun entry member => ?_, ?_⟩
  · rw [handed] at member
    rcases List.mem_append.mp member with isOld | isNew
    · exact fresh.positive entry isOld
    · rw [List.mem_singleton.mp isNew]
      exact positive
  · rw [handed, List.pairwise_append]
    refine ⟨fresh.increasing, List.pairwise_singleton _ _, ?_⟩
    rintro ⟨ofCounter, other⟩ isOld later isNew sameCounter
    rw [List.mem_singleton.mp isNew] at sameCounter ⊢
    change ofCounter = counter at sameCounter
    subst sameCounter
    exact above other isOld

/-- A counter that stays, and gets no new ids. -/
theorem Counts.stays (counts : Counts state counter)
    (same : next.db.store.lookup counter.key = state.db.store.lookup counter.key)
    (fewer : forall id, (counter, id) ∈ next.handed -> (counter, id) ∈ state.handed) :
    Counts next counter := by
  rcases counts with ⟨last, found, low, high, ids⟩
  exact ⟨last, (Redis.counterAt_congr same).trans found, low, high,
    fun id member => ids id (fewer id member)⟩

/-- A step applies an operation and adds the id that it draws. -/
theorem step_cases (kept : Kept state) (taken : step state operation = some next) :
    Redis.WellKinded kindOf next.db.store ∧ Effect operation state.db next.db.store ∧
      next.handed = state.handed.filter (remains next.db.store) ++ handedOut operation state.db := by
  rcases Option.map_eq_some_iff.mp taken with ⟨after, applied, same⟩
  subst same
  refine ⟨(Operation.step_kinds kept.kinds applied).2, ?_, rfl⟩
  rcases Operation.step_eq_some_iff.mp applied with ⟨_, answer, ran⟩
  exact effect_of_run kept.kinds ran

/-- An operation that draws no id. -/
theorem Kept.keeps (kept : Kept state) (kinds : Redis.WellKinded kindOf next.db.store)
    (handed : next.handed = state.handed.filter (remains next.db.store))
    (stays : forall counter : Counter,
      next.db.store.lookup counter.key = state.db.store.lookup counter.key ∨
        (Exists fun chatroomId => counter = .message chatroomId) ∧
          next.db.store.lookup counter.key = none) : Kept next := by
  refine ⟨kinds, fun counter => ?_, kept.fresh.filter handed⟩
  rcases stays counter with same | ⟨⟨chatroomId, isMessage⟩, deleted⟩
  · refine (kept.counts counter).stays same (fun id member => ?_)
    rw [handed] at member
    exact (List.mem_filter.mp member).1
  · -- the ids of a deleted counter are forgotten
    refine ⟨0, ?_, Int.le_refl 0, by decide, fun id member => ?_⟩
    · unfold Redis.counterAt
      rw [deleted]
    · rw [handed, isMessage] at member
      have stands := (List.mem_filter.mp member).2
      rw [isMessage] at deleted
      change (next.db.store.lookup (Counter.key (.message chatroomId))).isSome = true at stands
      rw [deleted] at stands
      cases stands

/-- An operation that draws an id in the range of `int`. -/
theorem Kept.draws (kept : Kept state) (kinds : Redis.WellKinded kindOf next.db.store) {last : Int}
    (same : middle.store = state.db.store) (drawn : Drawn counter middle next.db.store last)
    (small : last < 2 ^ 31 - 1)
    (handed : next.handed =
      state.handed.filter (remains next.db.store) ++ [(counter, toInt32 (last + 1))]) :
    Kept next := by
  rcases kept.counts counter with ⟨other, found, low, _, ids⟩
  have isLast : last = other := by
    have both := drawn.found
    rw [same, found, Option.some.injEq] at both
    exact both.symm
  subst isLast
  rw [toInt32_eq_self (by omega) (by omega)] at handed
  let older : State := ⟨state.db, state.handed.filter (remains next.db.store)⟩
  have isOlder : forall entry, entry ∈ older.handed -> entry ∈ state.handed :=
    fun entry member => (List.mem_filter.mp member).1
  have isHanded : forall entry, entry ∈ next.handed ->
      entry ∈ state.handed ∨ entry = (counter, last + 1) := by
    intro entry member
    rw [handed] at member
    rcases List.mem_append.mp member with isOld | isNew
    · exact Or.inl (isOlder entry isOld)
    · exact Or.inr (List.mem_singleton.mp isNew)
  refine ⟨kinds, fun another => ?_, ?_⟩
  · by_cases isCounter : another = counter
    · subst isCounter
      refine ⟨last + 1, drawn.moved, by omega, by omega, fun id member => ?_⟩
      rcases isHanded _ member with isOld | isNew
      · have bound := ids id isOld
        omega
      · cases isNew
        exact Int.le_refl _
    · have unchanged := drawn.others another isCounter
      rw [same] at unchanged
      refine (kept.counts another).stays unchanged (fun id member => ?_)
      rcases isHanded _ member with isOld | isNew
      · exact isOld
      · cases isNew
        exact absurd rfl isCounter
  · have fresh : Fresh older := kept.fresh.filter rfl
    refine fresh.append handed (by omega) (fun id member => ?_)
    have bound := ids id (isOlder _ member)
    omega

theorem Kept.step (kept : Kept state) (inRange : InRange state operation)
    (taken : step state operation = some next) : Kept next := by
  rcases step_cases kept taken with ⟨kinds, effect, handed⟩
  cases effect with
  | draws isCall drawn =>
      rw [handedOut_of_drawn isCall drawn] at handed
      have small := inRange _ _ _ isCall drawn.normal drawn.found
      exact kept.draws kinds (calls_store isCall) drawn small handed
  | keeps nothing stays =>
      rw [handedOut_of_nothing nothing, List.append_nil] at handed
      exact kept.keeps kinds handed stays

/-- The first number out of range is returned as a negative id. -/
theorem Kept.breaks (kept : Kept state) (outOfRange : Not (InRange state operation))
    (taken : Ids.step state operation = some next) : Not (Fresh next) := by
  intro fresh
  apply outOfRange
  intro counter middle last isCall normal found
  have bound : last < 2 ^ 31 := by
    rcases kept.counts counter with ⟨other, foundBefore, _, high, _⟩
    rw [calls_store isCall, foundBefore, Option.some.injEq] at found
    omega
  rcases step_cases kept taken with ⟨_, effect, handed⟩
  cases effect with
  | draws isDrawn drawn =>
      cases isDrawn.symm.trans isCall
      cases drawn.found.symm.trans found
      rw [handedOut_of_drawn isCall drawn] at handed
      have positive := fresh.positive (counter, toInt32 (last + 1))
        (handed ▸ List.mem_append_right _ List.mem_cons_self)
      unfold toInt32 at positive
      omega
  | keeps nothing _ =>
      have isCounted := (counter.next_draws normal found (by omega)).2.counted
      rw [nothing counter middle isCall] at isCounted
      cases isCounted

end Runs

/-- Whatever the answers are, the ids of a run are positive and increase
exactly as long as ids are drawn from counters below the greatest `int`. -/
theorem fresh_iff_inRange (outcome : Nat -> Redis.Outcome) (clock : Nat -> Int)
    (operations : List Operation) :
    Run.Always step Fresh (start outcome clock) operations <->
      Run.Guarded step InRange (start outcome clock) operations :=
  Run.always_iff_guarded Kept (fun _ => True) (kept_start outcome clock)
    (fun _ kept _ => kept.fresh)
    (fun _ _ _ kept _ _ inRange taken => kept.step inRange taken)
    (fun _ _ _ kept _ _ outOfRange taken => kept.breaks outOfRange taken)
    (Run.invariant trivial (fun _ _ _ _ _ => trivial) operations)

/-! ## The first id that is out of range -/

/-- A call of `get_next_userid` that is answered normally. -/
theorem step_getNextUserid {state : State} {last : Int} (normal : state.db.Normal)
    (found : Redis.counterAt state.db.store nextUserIdKey = some last) (room : last < 2 ^ 63 - 1) :
    Exists fun next => step state .getNextUserid = some next ∧ next.db.Normal ∧
      Redis.counterAt next.db.store nextUserIdKey = some (last + 1) ∧
      (Counter.user, toInt32 (last + 1)) ∈ next.handed := by
  rcases Counter.user.next_draws (normal _) found room with ⟨returns, drawn⟩
  let after : Db := state.db.issue (.incr nextUserIdKey)
  have isHanded : handedOut .getNextUserid state.db = [(.user, toInt32 (last + 1))] :=
    handedOut_of_drawn rfl drawn
  have applied : Operation.step state.db .getNextUserid = some after :=
    Operation.step_eq_some_iff.mpr ⟨trivial, _, Operation.number_of_run returns⟩
  refine ⟨⟨after, state.handed.filter (remains after.store) ++ handedOut .getNextUserid state.db⟩,
    ?_, normal, drawn.moved, ?_⟩
  · unfold step
    rw [applied]
    rfl
  · exact List.mem_append_right _ (isHanded ▸ List.mem_cons_self)

/-- Many such calls move the counter as far. -/
theorem after_getNextUserid (count : Nat) {state : State} {last : Int} (normal : state.db.Normal)
    (found : Redis.counterAt state.db.store nextUserIdKey = some last)
    (room : last + count < 2 ^ 63 - 1) :
    Exists fun next => Run.after step state (List.replicate count .getNextUserid) = some next ∧
      next.db.Normal ∧ Redis.counterAt next.db.store nextUserIdKey = some (last + count) := by
  refine @Run.after_replicate _ _ step .getNextUserid (fun index middle => middle.db.Normal ∧
      Redis.counterAt middle.db.store nextUserIdKey = some (last + index)) count
    (fun index middle isLess holds => ?_) state
    ⟨normal, found.trans (congrArg some (Int.add_zero last).symm)⟩
  rcases step_getNextUserid holds.1 holds.2 (by omega) with ⟨next, taken, normalNext, moved, _⟩
  refine ⟨next, taken, normalNext, ?_⟩
  rw [moved, Nat.cast_add, ← Int.add_assoc]
  rfl

/-- The last of `2 ^ 31` calls returns a negative id. -/
theorem negative_id (count : Nat) (full : count + 1 = 2 ^ 31) :
    Not (Run.Always step Fresh (start (fun _ => .normal) (fun _ => 0))
      (List.replicate (count + 1) .getNextUserid)) := by
  intro always
  rcases @after_getNextUserid count (start (fun _ => .normal) (fun _ => 0)) 0 (fun _ => rfl) rfl
    (by omega) with ⟨middle, reached, normal, found⟩
  rcases step_getNextUserid normal found (by omega) with ⟨next, taken, _, _, isHanded⟩
  have finished : Run.after step (start (fun _ => .normal) (fun _ => 0))
      (List.replicate (count + 1) .getNextUserid) = some next := by
    rw [List.replicate_succ', Run.after_append, reached]
    simp only [Option.bind_some, Run.after, taken]
  have positive := (always.finish finished).positive _ isHanded
  -- the counter stands at `2 ^ 31`
  unfold toInt32 at positive
  omega

theorem ids_leave_int :
    Not (Run.Always step Fresh (start (fun _ => .normal) (fun _ => 0))
      (List.replicate (2 ^ 31) .getNextUserid)) :=
  negative_id (2 ^ 31 - 1) (by norm_num)

end Ids
end ChatHub
