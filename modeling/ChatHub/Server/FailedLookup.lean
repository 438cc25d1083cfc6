import ChatHub.Server.Effects

namespace ChatHub

/-!
# A failed lookup of recipients

`get_fd_byid` reports the number of descriptors through `*size` while it
collects them.  When a command is refused on the way, it gives the null
pointer and leaves the number as it is.  `handleChat` looks at the number
alone, so the failure is harmless only as long as nothing was collected.
-/

namespace FailedLookup

open ChatHub.Action Dao

/-- The users whose descriptors are read before the command at this position,
where the chatroom is read at position zero. -/
def earlier (db : Db) (chatroomId : Int) (position : Nat) : List Int :=
  (roomMembers db.store chatroomId).take (position - 1)

/-- Of the commands that `get_fd_byid` issues the one at this position is
refused, and the users before it have descriptors. -/
structure FailsAt (db : Db) (chatroomId : Int) (position : Nat) : Prop where
  isIssued : position ≤ (roomMembers db.store chatroomId).length
  answered : forall index, index < position -> db.outcome (db.issued + index) = .normal
  refused : db.outcome (db.issued + position) = .error
  stored : forall userId, userId ∈ earlier db chatroomId position ->
    (sockfdOf db.store userId).isSome

/-- At least `*size` entries, or a null pointer and the size zero. -/
def ValidSize : Option (List Int) × Nat -> Prop
  | (some fds, size) => size ≤ fds.length
  | (none, size) => size = 0

/-- The lookup gives a valid size, and `handleChat` returns without having
delivered or stored anything. -/
def Contained (sender : Bufferevent) (message : Message) (world : World) : Prop :=
  (Exists fun found => (getFdByid message.groupId world.db).1 = .ok found ∧ ValidSize found) ∧
    Exists fun next => World.handleChat sender message world = (.ok (), next) ∧
      next.written = world.written ∧ next.db.store = world.db.store

section Lookup

variable {db : Db}

/-- When the loop is refused a command, the size is the number of positive
descriptors that it has read. -/
theorem collectFds_refused {front rest : List Int} {failing : Int}
    (answered : forall index, index < front.length -> db.outcome (db.issued + index) = .normal)
    (refused : db.outcome (db.issued + front.length) = .error)
    (stored : forall userId, userId ∈ front -> (sockfdOf db.store userId).isSome) (fds : List Int) :
    Exists fun after => collectFds fds (front ++ failing :: rest) db =
        (.ok (none, (fds ++ front.filterMap (positiveSockfd db.store)).length), after) ∧
      after.store = db.store := by
  induction front generalizing db fds with
  | nil =>
      refine ⟨{ db with issued := db.issued + 1 }, ?_, rfl⟩
      rw [List.nil_append, collectFds, bind_of_ok (ask_refused refused _), List.filterMap_nil,
        List.append_nil]
      rfl
  | cons userId others inductionHypothesis =>
      have unchanged := (Reads.hget (userKey userId) (ascii "sockfd")).issue_store db
      have answeredLater : forall index, index < others.length ->
          db.outcome (db.issued + 1 + index) = .normal := by
        intro index less
        rw [Nat.add_right_comm]
        exact answered (index + 1) (Nat.succ_lt_succ less)
      have refusedLater : db.outcome (db.issued + 1 + others.length) = .error := by
        rw [Nat.add_right_comm]
        exact refused
      have storedLater : forall other, other ∈ others -> (sockfdOf db.store other).isSome :=
        fun other member => stored other (List.mem_cons_of_mem _ member)
      rw [← unchanged] at storedLater
      rcases @inductionHypothesis (db.issue (.hget (userKey userId) (ascii "sockfd")))
        answeredLater refusedLater storedLater
        (fds ++ (positiveSockfd db.store userId).toList) with ⟨after, ran, store⟩
      refine ⟨after, ?_, store.trans unchanged⟩
      rw [List.cons_append, collectFds_stored (answered 0 (Nat.succ_pos _))
        (stored userId List.mem_cons_self), ran, unchanged, filterMap_cons_toList, List.append_assoc]

/-- The refused lookup gives a null pointer with the number of descriptors
that it has collected. -/
theorem getFdByid_fails {chatroomId : Int} {position : Nat} (fails : FailsAt db chatroomId position) :
    Exists fun after => getFdByid chatroomId db =
        (.ok (none, ((earlier db chatroomId position).filterMap (positiveSockfd db.store)).length),
          after) ∧
      after.store = db.store := by
  have stored := fails.stored
  unfold earlier at stored ⊢
  cases position with
  | zero =>
      refine ⟨{ db with issued := db.issued + 1 }, ?_, rfl⟩
      rw [getFdByid, bind_of_ok (ask_refused fails.refused _)]
      rfl
  | succ index =>
      have unchanged := (Reads.smembers (chatroomKey chatroomId)).issue_store db
      have inside : index < (roomMembers db.store chatroomId).length := fails.isIssued
      have holds : (Redis.setAt db.store (chatroomKey chatroomId)).isSome := by
        cases found : Redis.setAt db.store (chatroomKey chatroomId) with
        | none =>
            unfold roomMembers at inside
            rw [found] at inside
            cases inside
        | some set => rfl
      have split : (roomMembers db.store chatroomId).take index ++
          (roomMembers db.store chatroomId)[index] ::
            (roomMembers db.store chatroomId).drop (index + 1) = roomMembers db.store chatroomId := by
        rw [← List.drop_eq_getElem_cons inside, List.take_append_drop]
      have frontLength : ((roomMembers db.store chatroomId).take index).length = index := by
        rw [List.length_take]
        omega
      rw [Nat.add_sub_cancel] at stored ⊢
      have answered : forall other, other < ((roomMembers db.store chatroomId).take index).length ->
          db.outcome (db.issued + 1 + other) = .normal := by
        intro other less
        rw [frontLength] at less
        rw [Nat.add_right_comm]
        exact fails.answered (other + 1) (Nat.succ_lt_succ less)
      have refused : db.outcome
          (db.issued + 1 + ((roomMembers db.store chatroomId).take index).length) = .error := by
        rw [frontLength, Nat.add_right_comm]
        exact fails.refused
      have storedAfter : forall userId, userId ∈ (roomMembers db.store chatroomId).take index ->
          (sockfdOf (db.issue (.smembers (chatroomKey chatroomId))).store userId).isSome := by
        rw [unchanged]
        exact stored
      rcases @collectFds_refused (db.issue (.smembers (chatroomKey chatroomId))) _
        ((roomMembers db.store chatroomId).drop (index + 1))
        (roomMembers db.store chatroomId)[index] answered refused storedAfter [] with ⟨after, ran, store⟩
      rw [split, List.nil_append, unchanged] at ran
      refine ⟨after, ?_, store.trans unchanged⟩
      rw [getFdByid_bind (fails.answered 0 (Nat.succ_pos _)), if_pos holds, ran]

end Lookup

section Handler

variable {world : World} {message : Message} {position : Nat}

/-- `handleChat` indexes the null pointer unless the size is zero. -/
theorem contained_iff_none (fails : FailsAt world.db message.groupId position)
    (sender : Bufferevent) :
    Contained sender message world <->
      (earlier world.db message.groupId position).filterMap (positiveSockfd world.db.store) = [] := by
  rcases getFdByid_fails fails with ⟨after, ran, store⟩
  constructor
  · rintro ⟨⟨found, returned, valid⟩, _⟩
    rw [ran] at returned
    cases returned
    exact List.eq_nil_of_length_eq_zero valid
  · intro nobody
    rw [nobody, List.length_nil] at ran
    refine ⟨⟨(none, 0), congrArg Prod.fst ran, rfl⟩, { world with db := after }, ?_, rfl, store⟩
    unfold World.handleChat
    rw [bind_of_ok (World.dao_of_run ran)]
    rfl

/-- A refused command is contained exactly if nobody before it has a positive
descriptor.  If everybody before it has one, only the first two commands may
be refused. -/
theorem contained_iff (fails : FailsAt world.db message.groupId position) (sender : Bufferevent) :
    (Contained sender message world <->
      forall userId, userId ∈ earlier world.db message.groupId position ->
        positiveSockfd world.db.store userId = none) ∧
    ((forall userId, userId ∈ earlier world.db message.groupId position ->
        (positiveSockfd world.db.store userId).isSome) ->
      (Contained sender message world <-> position ≤ 1)) := by
  have contained := contained_iff_none fails sender
  rw [List.filterMap_eq_nil_iff] at contained
  refine ⟨contained, fun positive => ?_⟩
  rw [contained]
  have nobody : earlier world.db message.groupId position = [] <-> position ≤ 1 := by
    have isIssued := fails.isIssued
    unfold earlier
    rw [List.take_eq_nil_iff, ← List.length_eq_zero_iff]
    omega
  rw [← nobody]
  constructor
  · intro without
    rw [List.eq_nil_iff_forall_not_mem]
    intro userId member
    have isSome := positive userId member
    rw [without userId member] at isSome
    cases isSome
  · intro isNil userId member
    rw [isNil] at member
    exact absurd member List.not_mem_nil

end Handler

/-- A chatroom of two users with descriptors.  The third command is refused,
which reads the descriptor of the second user. -/
def thirdRefused : World :=
  { World.start (fun _ => 0) with
    db :=
      { store :=
          (Redis.exec (Redis.exec (Redis.exec ∅ (.sadd (chatroomKey 1) [intText 1, intText 2])).2
            (.hset (userKey 1) (ascii "sockfd") (intText 5))).2
            (.hset (userKey 2) (ascii "sockfd") (intText 6))).2
        issued := 0
        outcome := fun index => if index = 2 then .error else .normal
        ticks := 0
        clock := fun _ => 0 } }

theorem thirdRefused_fails : FailsAt thirdRefused.db 1 2 := by
  have read : roomMembers thirdRefused.db.store 1 = [1, 2] ∧
      sockfdOf thirdRefused.db.store 1 = some 5 := by
    decide +kernel
  refine ⟨?_, ?_, rfl, ?_⟩
  · rw [read.1]
    exact Nat.le_refl 2
  · intro index before
    change (if 0 + index = 2 then Redis.Outcome.error else .normal) = .normal
    rw [if_neg (by omega)]
  · unfold earlier
    rw [read.1]
    intro userId member
    rw [List.mem_singleton.mp member, read.2]
    rfl

theorem contained_iff_thirdRefused :
    (Contained ⟨0, 5⟩ (World.request .text 1 "hello") thirdRefused <->
      forall userId, userId ∈ earlier thirdRefused.db 1 2 ->
        positiveSockfd thirdRefused.db.store userId = none) ∧
    ((forall userId, userId ∈ earlier thirdRefused.db 1 2 ->
        (positiveSockfd thirdRefused.db.store userId).isSome) ->
      (Contained ⟨0, 5⟩ (World.request .text 1 "hello") thirdRefused <-> 2 ≤ 1)) :=
  @contained_iff thirdRefused (World.request .text 1 "hello") 2 thirdRefused_fails ⟨0, 5⟩

/-- The first user was counted, so the null pointer is indexed. -/
theorem thirdRefused_not_contained :
    FailsAt thirdRefused.db 1 2 ∧
      (World.handleChat ⟨0, 5⟩ (World.request .text 1 "hello") thirdRefused).1 =
        .error .nullPointer ∧
      Not (Contained ⟨0, 5⟩ (World.request .text 1 "hello") thirdRefused) := by
  have faulted : (World.handleChat ⟨0, 5⟩ (World.request .text 1 "hello") thirdRefused).1 =
      .error .nullPointer := by
    decide +kernel
  refine ⟨thirdRefused_fails, faulted, ?_⟩
  rintro ⟨_, next, returned, _⟩
  rw [returned] at faulted
  cases faulted

end FailedLookup
end ChatHub
