import ChatHub.Server.Registration

namespace ChatHub

/-!
# Descriptors in user records and members of chatrooms

What delivery depends on is spread over the database: the presence fields of
the user records and the members of the chatrooms.  Only the commands that
set presence change the presence fields, and only `create_chatroom` adds
members.  `get_fd_byid` then collects the positive descriptors of the
members, provided that every member has one.
-/

namespace Dao

open ChatHub.Action

/-! ## Presence fields -/

/-- The number in the descriptor field of a user, as `get_fd_byid` reads it. -/
def sockfdOf (store : Redis.Store) (userId : Int) : Option Int :=
  (Redis.fieldAt store (userKey userId) (ascii "sockfd")).map atoi

/-- The descriptor of a user, unless it is missing, zero or negative. -/
def positiveSockfd (store : Redis.Store) (userId : Int) : Option Int :=
  (sockfdOf store userId).filter (fun fd => 0 < fd)

/-- The presence fields of a user have these values. -/
def HasPresence (store : Redis.Store) (userId isOnline sockfd : Int) : Prop :=
  Redis.fieldAt store (userKey userId) (ascii "isOnline") = some (intText isOnline) ∧
    Redis.fieldAt store (userKey userId) (ascii "sockfd") = some (intText sockfd)

/-- The presence fields of a user are as before. -/
def SamePresence (store other : Redis.Store) (userId : Int) : Prop :=
  forall name, name ∈ [ascii "isOnline", ascii "sockfd"] ->
    Redis.fieldAt other (userKey userId) name = Redis.fieldAt store (userKey userId) name

/-- The record says that the user is online on a descriptor. -/
def Online (store : Redis.Store) (userId fd : Int) : Prop :=
  HasPresence store userId 1 fd

/-- Every user record is a hash. -/
def Records (store : Redis.Store) : Prop :=
  forall userId, (Redis.hashAt store (userKey userId)).isSome

theorem positiveSockfd_eq_some_iff {store : Redis.Store} {userId fd : Int} :
    positiveSockfd store userId = some fd <-> sockfdOf store userId = some fd ∧ 0 < fd := by
  unfold positiveSockfd
  rw [Option.filter_eq_some_iff]
  simp only [decide_eq_true_eq]

/-- The commands of every function but `set_online`. -/
inductive Ordinary (user : Int -> Prop) : Redis.Command -> Prop where
  | registers {command : Redis.Command} (isSo : Registers command) : Ordinary user command
  | offline {command : Redis.Command} (isSo : Presence 0 (-1) command) : Ordinary user command
  | chats {command : Redis.Command} (isSo : Chats user command) : Ordinary user command

theorem hmset_records {store : Redis.Store} (records : Records store) (key : Bytes)
    (pairs : List (Bytes × Bytes)) : Records (Redis.exec store (.hmset key pairs)).2 := by
  intro userId
  rcases Option.isSome_iff_exists.mp (records userId) with ⟨fields, holds⟩
  by_cases same : userKey userId = key
  · rw [← same, Redis.exec_hmset_of_hash holds, Redis.hashAt_insert]
    rfl
  · rw [Redis.hashAt_congr (hmset_frame store pairs same)]
    exact records userId

theorem frame_records {store : Redis.Store} (records : Records store) {command : Redis.Command}
    (unwritten : forall userId, Not (Redis.Writes command (userKey userId))) :
    Records (Redis.exec store command).2 := by
  intro userId
  rw [Redis.hashAt_congr (Redis.exec_frame store (unwritten userId))]
  exact records userId

theorem userKey_isUser (userId : Int) : UserKey (userKey userId) :=
  Or.inr (Or.inr ⟨userId, rfl⟩)

theorem Ordinary.records {user : Int -> Prop} {store : Redis.Store} {command : Redis.Command}
    (ordinary : Ordinary user command) (records : Records store) :
    Records (Redis.exec store command).2 := by
  cases ordinary with
  | registers isSo =>
      cases isSo with
      | hexists key field => exact frame_records records (fun _ writes => writes)
      | count => exact frame_records records userKey_ne_nextUserIdKey
      | record userId username pass time => exact hmset_records records _ _
      | index username userId => exact frame_records records userKey_ne_usersKey
  | offline isSo =>
      cases isSo with
      | reads isRead => exact frame_records records (fun _ => isRead.unwritten _)
      | record userId time => exact hmset_records records _ _
  | chats isSo => exact frame_records records (fun userId => (userKey_isUser userId).not_chats isSo)

theorem samePresence_of_frame {store : Redis.Store} {command : Redis.Command} {userId : Int}
    (unwritten : Not (Redis.Writes command (userKey userId))) :
    SamePresence store (Redis.exec store command).2 userId :=
  fun name _ => Redis.fieldAt_congr (Redis.exec_frame store unwritten) name

theorem hasPresence_of_record {store : Redis.Store} {userId : Int}
    (record : (Redis.hashAt store (userKey userId)).isSome) (isOnline sockfd : Int) (time : Bytes) :
    HasPresence (Redis.exec store (presenceCommand userId isOnline sockfd time)).2
      userId isOnline sockfd := by
  rcases Option.isSome_iff_exists.mp record with ⟨fields, holds⟩
  unfold HasPresence presenceCommand
  rw [Redis.fieldAt_hmset, Redis.fieldAt_hmset, if_pos rfl, if_pos rfl, holds,
    Option.bind_some, Option.bind_some]
  have distinct : (List.map Prod.fst [(ascii "isOnline", intText isOnline),
      (ascii "sockfd", intText sockfd), (ascii "lastOnlineTime", time)]).Nodup := by
    rw [presence_fields]
    decide
  exact ⟨Redis.setFields_lookup_of_mem distinct List.mem_cons_self fields,
    Redis.setFields_lookup_of_mem distinct (List.mem_cons_of_mem _ List.mem_cons_self) fields⟩

/-- Setting presence sets the fields of one user. -/
theorem presence_cases {store : Redis.Store} (records : Records store)
    (userId isOnline sockfd : Int) (time : Bytes) (other : Int) :
    SamePresence store (Redis.exec store (presenceCommand userId isOnline sockfd time)).2 other ∨
      other = userId ∧
        HasPresence (Redis.exec store (presenceCommand userId isOnline sockfd time)).2
          other isOnline sockfd := by
  by_cases same : other = userId
  · subst same
    exact Or.inr ⟨rfl, hasPresence_of_record (records other) isOnline sockfd time⟩
  · left
    apply samePresence_of_frame
    exact fun sameKey : userKey other = userKey userId => same (userKey_injective sameKey)

/-- An ordinary command leaves the presence of a user alone, or it marks the
user as offline. -/
theorem Ordinary.presence_cases {user : Int -> Prop} {store : Redis.Store}
    {command : Redis.Command} (ordinary : Ordinary user command) (records : Records store)
    (userId : Int) :
    SamePresence store (Redis.exec store command).2 userId ∨
      HasPresence (Redis.exec store command).2 userId 0 (-1) := by
  cases ordinary with
  | registers isSo =>
      left
      cases isSo with
      | hexists key field => exact samePresence_of_frame (fun writes => writes)
      | count => exact samePresence_of_frame (userKey_ne_nextUserIdKey userId)
      | record other username pass time =>
          intro name isPresence
          apply Redis.fieldAt_hmset_of_not_mem
          have others : name ∉ [ascii "username", ascii "pass", ascii "registerTime"] := by
            rcases List.mem_cons.mp isPresence with first | second
            · rw [first]
              decide
            · rw [List.mem_singleton.mp second]
              decide
          exact others
      | index username other => exact samePresence_of_frame (userKey_ne_usersKey userId)
  | offline isSo =>
      cases isSo with
      | reads isRead => exact Or.inl (samePresence_of_frame (isRead.unwritten _))
      | record other time =>
          rcases Dao.presence_cases records other 0 (-1) time userId with same | ⟨_, set⟩
          · exact Or.inl same
          · exact Or.inr set
  | chats isSo => exact Or.inl (samePresence_of_frame ((userKey_isUser userId).not_chats isSo))

section Presence

variable {store other : Redis.Store} {userId : Int}

theorem SamePresence.refl (store : Redis.Store) (userId : Int) : SamePresence store store userId :=
  fun _ _ => rfl

theorem SamePresence.trans {last : Redis.Store} (first : SamePresence store other userId)
    (second : SamePresence other last userId) : SamePresence store last userId :=
  fun name isPresence => (second name isPresence).trans (first name isPresence)

theorem SamePresence.hasPresence {isOnline sockfd : Int} (same : SamePresence store other userId)
    (set : HasPresence store userId isOnline sockfd) : HasPresence other userId isOnline sockfd := by
  unfold HasPresence
  rw [same (ascii "isOnline") List.mem_cons_self,
    same (ascii "sockfd") (List.mem_cons_of_mem _ List.mem_cons_self)]
  exact set

theorem SamePresence.sockfdOf (same : SamePresence store other userId) :
    sockfdOf other userId = sockfdOf store userId := by
  unfold Dao.sockfdOf
  rw [same (ascii "sockfd") (List.mem_cons_of_mem _ List.mem_cons_self)]

theorem SamePresence.positiveSockfd (same : SamePresence store other userId) :
    positiveSockfd other userId = positiveSockfd store userId := by
  unfold Dao.positiveSockfd
  rw [same.sockfdOf]

theorem SamePresence.symm (same : SamePresence store other userId) :
    SamePresence other store userId :=
  fun name isPresence => (same name isPresence).symm

theorem HasPresence.sockfdOf {isOnline sockfd : Int} (set : HasPresence store userId isOnline sockfd)
    (low : -2 ^ 31 ≤ sockfd) (high : sockfd < 2 ^ 31) :
    sockfdOf store userId = some sockfd := by
  unfold Dao.sockfdOf
  rw [set.2, Option.map_some, atoi_intText low high]

/-- A record that was marked offline says neither online nor a descriptor. -/
theorem HasPresence.not_online (set : HasPresence store userId 0 (-1)) (fd : Int) :
    Not (Online store userId fd) := by
  intro online
  have texts := set.1.symm.trans online.1
  exact absurd (intText_injective (Option.some.inj texts)) (by decide)

theorem HasPresence.positiveSockfd_eq_none (set : HasPresence store userId 0 (-1)) :
    positiveSockfd store userId = none := by
  unfold positiveSockfd
  rw [set.sockfdOf (by decide) (by decide)]
  rfl

theorem HasPresence.online {sockfd fd : Int} (set : HasPresence store userId 1 sockfd) :
    Online store userId fd <-> fd = sockfd := by
  unfold Online HasPresence
  rw [set.1, set.2]
  constructor
  · intro online
    exact (intText_injective (Option.some.inj online.2)).symm
  · intro same
    rw [same]
    exact ⟨rfl, rfl⟩

end Presence

/-! ## Members of chatrooms -/

/-- The user is a member of the chatroom. -/
def Member (store : Redis.Store) (chatroomId userId : Int) : Prop :=
  Exists fun set => Redis.setAt store (chatroomKey chatroomId) = some set ∧
    intText userId ∈ set.members

/-- Every member of a set is a user id. -/
def Rooms (store : Redis.Store) : Prop :=
  forall key set, store.lookup key = some (.set set) -> forall member, member ∈ set.members ->
    Exists fun userId => member = intText userId ∧ UserId userId

theorem rooms_insert {store : Redis.Store} (rooms : Rooms store) (key : Bytes) {value : Redis.Value}
    (users : forall set, value = .set set -> forall member, member ∈ set.members ->
      Exists fun userId => member = intText userId ∧ UserId userId) :
    Rooms (store.insert key value) := by
  intro other set found
  by_cases same : other = key
  · rw [same, AList.lookup_insert] at found
    exact users set (Option.some.inj found)
  · rw [AList.lookup_insert_ne same] at found
    exact rooms other set found

theorem rooms_erase {store : Redis.Store} (rooms : Rooms store) (key : Bytes) :
    Rooms (store.erase key) := by
  intro other set found
  by_cases same : other = key
  · rw [same, AList.lookup_erase] at found
    cases found
  · rw [AList.lookup_erase_ne same] at found
    exact rooms other set found

theorem rooms_setAt {store : Redis.Store} (rooms : Rooms store) {key : Bytes} {set : Redis.Members}
    (holds : Redis.setAt store key = some set) : forall member, member ∈ set.members ->
      Exists fun userId => member = intText userId ∧ UserId userId := by
  unfold Redis.setAt at holds
  cases found : store.lookup key with
  | none =>
      rw [found] at holds
      cases holds
      exact fun member isMember => absurd isMember List.not_mem_nil
  | some value =>
      rw [found] at holds
      cases value with
      | string text => cases holds
      | hash fields => cases holds
      | set members =>
          cases holds
          exact rooms key set found

theorem mem_addAll {members : List Bytes} {set : Redis.Members} {member : Bytes}
    (isMember : member ∈ (members.foldl Redis.Members.add set).members) :
    member ∈ set.members ∨ member ∈ members := by
  induction members generalizing set with
  | nil => exact Or.inl isMember
  | cons first rest inductionHypothesis =>
      rcases inductionHypothesis isMember with inSet | inRest
      · rcases (Redis.Members.mem_add set first member).mp inSet with old | new
        · exact Or.inl old
        · exact Or.inr (new ▸ List.mem_cons_self)
      · exact Or.inr (List.mem_cons_of_mem _ inRest)

/-- Sets keep to user ids if only user ids are added. -/
theorem Rooms.exec {store : Redis.Store} (rooms : Rooms store) {command : Redis.Command}
    (adds : forall key members, command = .sadd key members -> forall member, member ∈ members ->
      Exists fun userId => member = intText userId ∧ UserId userId) :
    Rooms (Redis.exec store command).2 := by
  cases command with
  | hexists key field => simpa only [(Reads.hexists key field).exec_store] using rooms
  | hget key field => simpa only [(Reads.hget key field).exec_store] using rooms
  | hmget key names => simpa only [(Reads.hmget key names).exec_store] using rooms
  | smembers key => simpa only [(Reads.smembers key).exec_store] using rooms
  | hmset key pairs =>
      simp only [Redis.exec]
      cases Redis.hashAt store key with
      | none => exact rooms
      | some fields => exact rooms_insert rooms key (fun _ other => by cases other)
  | hset key field value =>
      simp only [Redis.exec]
      cases Redis.hashAt store key with
      | none => exact rooms
      | some fields => exact rooms_insert rooms key (fun _ other => by cases other)
  | incr key =>
      simp only [Redis.exec]
      cases Redis.counterAt store key with
      | none => exact rooms
      | some value =>
          simp only
          split
          · exact rooms
          · exact rooms_insert rooms key (fun _ other => by cases other)
  | sadd key members =>
      simp only [Redis.exec]
      cases holds : Redis.setAt store key with
      | none => exact rooms
      | some set =>
          refine rooms_insert rooms key (fun larger same member isMember => ?_)
          rw [← Redis.Value.set.inj same] at isMember
          rcases mem_addAll isMember with old | new
          · exact rooms_setAt rooms holds member old
          · exact adds key members rfl member new
  | srem key member =>
      simp only [Redis.exec]
      cases holds : Redis.setAt store key with
      | none => exact rooms
      | some set =>
          simp only
          split
          · simp only
            split
            · exact rooms_erase rooms key
            · refine rooms_insert rooms key (fun smaller same other isMember => ?_)
              rw [← Redis.Value.set.inj same] at isMember
              exact rooms_setAt rooms holds other
                ((Redis.Members.mem_remove set member other).mp isMember).2
          · exact rooms
  | sismember key member =>
      simp only [Redis.exec]
      cases Redis.setAt store key <;> exact rooms
  | keys start => exact rooms
  | del key => exact rooms_erase rooms key

theorem Ordinary.rooms {store : Redis.Store} {command : Redis.Command}
    (ordinary : Ordinary UserId command) (rooms : Rooms store) :
    Rooms (Redis.exec store command).2 := by
  apply rooms.exec
  intro key members same member isMember
  subst same
  cases ordinary with
  | registers isSo => cases isSo
  | offline isSo =>
      cases isSo with
      | reads isRead => cases isRead
  | chats isSo =>
      cases isSo with
      | sadd _ isUser1 isUser2 =>
          rcases List.mem_cons.mp isMember with first | second
          · exact ⟨_, first, isUser1⟩
          · exact ⟨_, List.mem_singleton.mp second, isUser2⟩

/-! ## The descriptors of a chatroom -/

/-- The positive user ids among the members of a set. -/
def memberList (set : Redis.Members) : List Int :=
  (set.members.map (fun text => toInt32 (atoll text))).filter (fun userId => 0 < userId)

/-- The members of a chatroom that `get_fd_byid` looks up. -/
def roomMembers (store : Redis.Store) (chatroomId : Int) : List Int :=
  match Redis.setAt store (chatroomKey chatroomId) with
  | none => []
  | some set => memberList set

theorem UserId.read {userId : Int} (isUser : UserId userId) :
    toInt32 (atoll (intText userId)) = userId := by
  rcases isUser with ⟨low, high⟩
  rw [atoll_intText (by omega) (by omega), toInt32_eq_self low high]

theorem mem_roomMembers {store : Redis.Store} (rooms : Rooms store) {chatroomId userId : Int} :
    userId ∈ roomMembers store chatroomId <-> 0 < userId ∧ Member store chatroomId userId := by
  unfold roomMembers Member
  cases holds : Redis.setAt store (chatroomKey chatroomId) with
  | none =>
      simp
  | some set =>
      have users := rooms_setAt rooms holds
      simp only [memberList, List.mem_filter, List.mem_map, decide_eq_true_eq, Option.some.injEq,
        exists_eq_left']
      constructor
      · rintro ⟨⟨text, isMember, same⟩, positive⟩
        rcases users text isMember with ⟨other, isText, isUser⟩
        rw [isText, isUser.read] at same
        refine ⟨positive, ?_⟩
        rw [← same, ← isText]
        exact isMember
      · rintro ⟨positive, isMember⟩
        rcases users _ isMember with ⟨other, isText, isUser⟩
        have sameId := intText_injective isText
        refine ⟨⟨intText userId, isMember, ?_⟩, positive⟩
        rw [sameId]
        exact isUser.read

theorem roomMembers_nodup {store : Redis.Store} (rooms : Rooms store) (chatroomId : Int) :
    (roomMembers store chatroomId).Nodup := by
  unfold roomMembers
  cases holds : Redis.setAt store (chatroomKey chatroomId) with
  | none => exact List.nodup_nil
  | some set =>
      have users := rooms_setAt rooms holds
      apply List.Nodup.filter
      apply List.Nodup.map_on _ set.nodup
      intro left leftMember right rightMember same
      rcases users left leftMember with ⟨leftId, leftText, leftUser⟩
      rcases users right rightMember with ⟨rightId, rightText, rightUser⟩
      rw [leftText, rightText, leftUser.read, rightUser.read] at same
      rw [leftText, rightText, same]

theorem memberIds_run (texts : List Bytes) (db : Db) :
    memberIds (texts.map Redis.Reply.string) db =
      (.ok ((texts.map (fun text => toInt32 (atoll text))).filter (fun userId => 0 < userId)),
        db) := by
  induction texts with
  | nil => rfl
  | cons text rest inductionHypothesis =>
      change (memberIds (rest.map Redis.Reply.string) >>= fun others =>
        if 0 < toInt32 (atoll text) then pure (toInt32 (atoll text) :: others)
        else pure others) db = _
      rw [bind_of_ok inductionHypothesis, List.map_cons]
      by_cases positive : 0 < toInt32 (atoll text)
      · rw [if_pos positive, List.filter_cons_of_pos (by simpa using positive)]
        rfl
      · rw [if_neg positive, List.filter_cons_of_neg (by simpa using positive)]
        rfl

section Collect

variable {db : Db}

/-- The descriptor of one user is read. -/
theorem ask_sockfd (normal : db.Normal) (records : Records db.store) (userId : Int)
    {Value : Type} (rest : Redis.Reply -> Action Db Value) :
    (ask (.hget (userKey userId) (ascii "sockfd")) >>= rest) db =
      rest (Redis.Reply.ofOption (Redis.fieldAt db.store (userKey userId) (ascii "sockfd")))
        (db.issue (.hget (userKey userId) (ascii "sockfd"))) := by
  rcases Option.isSome_iff_exists.mp (records userId) with ⟨fields, holds⟩
  rw [ask_bind normal]
  simp only [Redis.exec, Redis.fieldAt, holds, Option.bind_some]

/-- One round of the loop of `get_fd_byid` for a user that has a descriptor. -/
theorem collectFds_stored (answered : db.outcome db.issued = .normal) {userId : Int}
    (known : (sockfdOf db.store userId).isSome) (fds rest : List Int) :
    collectFds fds (userId :: rest) db =
      collectFds (fds ++ (positiveSockfd db.store userId).toList) rest
        (db.issue (.hget (userKey userId) (ascii "sockfd"))) := by
  rcases Option.isSome_iff_exists.mp known with ⟨fd, read⟩
  unfold positiveSockfd
  rw [read]
  unfold sockfdOf Redis.fieldAt at read
  rw [Option.map_eq_some_iff] at read
  rcases read with ⟨text, field, isFd⟩
  rw [Option.bind_eq_some_iff] at field
  rcases field with ⟨fields, holds, bound⟩
  have reply : (Redis.exec db.store (.hget (userKey userId) (ascii "sockfd"))).1 = .string text := by
    simp only [Redis.exec_hget, holds, bound]
    rfl
  rw [collectFds, bind_of_ok (ask_answered answered _), reply]
  change (if 0 < atoi text then collectFds (fds ++ [atoi text]) rest
    else collectFds fds rest) (db.issue _) = _
  rw [isFd]
  by_cases positive : 0 < fd
  · rw [if_pos positive]
    simp [Option.filter, positive]
  · rw [if_neg positive]
    simp [Option.filter, positive]

theorem filterMap_cons_toList {Value Result : Type} (f : Value -> Option Result) (first : Value)
    (rest : List Value) :
    (first :: rest).filterMap f = (f first).toList ++ rest.filterMap f := by
  cases found : f first with
  | none => rw [List.filterMap_cons_none found, Option.toList_none, List.nil_append]
  | some result => rw [List.filterMap_cons_some found, Option.toList_some, List.singleton_append]

/-- The loop of `get_fd_byid` collects the positive descriptors, in order, if
every user has a descriptor. -/
theorem collectFds_run {users : List Int} (normal : db.Normal)
    (known : forall userId, userId ∈ users -> (sockfdOf db.store userId).isSome) (fds : List Int) :
    Exists fun after => collectFds fds users db =
        (.ok (some (fds ++ users.filterMap (positiveSockfd db.store)),
          (fds ++ users.filterMap (positiveSockfd db.store)).length), after) ∧
      after.outcome = db.outcome ∧ after.store = db.store := by
  induction users generalizing db fds with
  | nil =>
      refine ⟨db, ?_, rfl, rfl⟩
      rw [List.filterMap_nil, List.append_nil]
      rfl
  | cons userId rest inductionHypothesis =>
      have unchanged := (Reads.hget (userKey userId) (ascii "sockfd")).issue_store db
      have knownAfter : forall other, other ∈ rest -> (sockfdOf db.store other).isSome :=
        fun other member => known other (List.mem_cons_of_mem _ member)
      rw [← unchanged] at knownAfter
      rcases inductionHypothesis (normal.issue _) knownAfter
        (fds ++ (positiveSockfd db.store userId).toList) with ⟨after, ran, outcome, store⟩
      refine ⟨after, ?_, outcome, store.trans unchanged⟩
      rw [collectFds_stored (normal _) (known userId List.mem_cons_self), ran, unchanged,
        filterMap_cons_toList, List.append_assoc]

/-- The loop faults at a user without a descriptor. -/
theorem collectFds_faults {users : List Int} (normal : db.Normal) (records : Records db.store)
    {userId : Int} (member : userId ∈ users) (unknown : sockfdOf db.store userId = none)
    (fds : List Int) : (collectFds fds users db).1 = .error .nullPointer := by
  induction users generalizing db fds with
  | nil => exact absurd member List.not_mem_nil
  | cons first rest inductionHypothesis =>
      have unchanged := (Reads.hget (userKey first) (ascii "sockfd")).issue_store db
      unfold collectFds
      rw [ask_sockfd normal records]
      cases field : Redis.fieldAt db.store (userKey first) (ascii "sockfd") with
      | none => rfl
      | some text =>
          have inRest : userId ∈ rest := by
            rcases List.mem_cons.mp member with isFirst | isRest
            · unfold sockfdOf at unknown
              rw [isFirst, field] at unknown
              cases unknown
            · exact isRest
          have later := fun fds => @inductionHypothesis
            (db.issue (.hget (userKey first) (ascii "sockfd"))) (normal.issue _)
            (by rw [unchanged]; exact records) inRest (by rw [unchanged]; exact unknown) fds
          change ((if 0 < atoi text then collectFds (fds ++ [atoi text]) rest
            else collectFds fds rest) (db.issue _)).1 = _
          split
          · exact later _
          · exact later _

/-- The positive descriptors of the members of a chatroom. -/
def roomFds (store : Redis.Store) (chatroomId : Int) : List Int :=
  (roomMembers store chatroomId).filterMap (positiveSockfd store)

theorem mem_roomFds {store : Redis.Store} (rooms : Rooms store) {chatroomId fd : Int} :
    fd ∈ roomFds store chatroomId <-> Exists fun userId =>
      0 < userId ∧ Member store chatroomId userId ∧ positiveSockfd store userId = some fd := by
  unfold roomFds
  rw [List.mem_filterMap]
  constructor
  · rintro ⟨userId, member, positive⟩
    rcases (mem_roomMembers rooms).mp member with ⟨positiveId, isMember⟩
    exact ⟨userId, positiveId, isMember, positive⟩
  · rintro ⟨userId, positiveId, isMember, positive⟩
    exact ⟨userId, (mem_roomMembers rooms).mpr ⟨positiveId, isMember⟩, positive⟩

theorem getFdByid_bind (answered : db.outcome db.issued = .normal) (chatroomId : Int) :
    getFdByid chatroomId db =
      if (Redis.setAt db.store (chatroomKey chatroomId)).isSome then
        collectFds [] (roomMembers db.store chatroomId)
          (db.issue (.smembers (chatroomKey chatroomId)))
      else (.ok (none, 0), db.issue (.smembers (chatroomKey chatroomId))) := by
  unfold getFdByid
  rw [bind_of_ok (ask_answered answered _)]
  unfold roomMembers
  cases holds : Redis.setAt db.store (chatroomKey chatroomId) with
  | none =>
      simp only [Redis.exec, holds]
      rfl
  | some set =>
      simp only [Redis.exec, holds]
      change (memberIds (set.members.map Redis.Reply.string) >>= fun users =>
        collectFds [] users) (db.issue _) = _
      rw [bind_of_ok (memberIds_run set.members _)]
      rfl

/-- `get_fd_byid` returns the descriptors if every member that it looks up
has one. -/
theorem getFdByid_run (normal : db.Normal) {chatroomId : Int}
    (known : forall userId, userId ∈ roomMembers db.store chatroomId ->
      (sockfdOf db.store userId).isSome) :
    Exists fun fds => Exists fun after =>
      getFdByid chatroomId db = (.ok (fds, (roomFds db.store chatroomId).length), after) ∧
      (fds = some (roomFds db.store chatroomId) ∨ fds = none ∧ roomFds db.store chatroomId = []) ∧
      after.outcome = db.outcome ∧ after.store = db.store := by
  have unchanged := (Reads.smembers (chatroomKey chatroomId)).issue_store db
  rw [getFdByid_bind (normal _)]
  cases holds : Redis.setAt db.store (chatroomKey chatroomId) with
  | none =>
      have noFds : roomFds db.store chatroomId = [] := by
        unfold roomFds roomMembers
        rw [holds]
        rfl
      rw [noFds]
      exact ⟨none, _, rfl, Or.inr ⟨rfl, rfl⟩, rfl, unchanged⟩
  | some set =>
      rw [← unchanged] at known
      rcases collectFds_run (normal.issue _) known [] with ⟨after, ran, outcome, store⟩
      rw [unchanged, List.nil_append] at ran
      rw [Option.isSome_some, if_pos rfl]
      exact ⟨_, after, ran, Or.inl rfl, outcome, store.trans unchanged⟩

/-- `get_fd_byid` faults at a member without a descriptor. -/
theorem getFdByid_faults (normal : db.Normal) (records : Records db.store) {chatroomId userId : Int}
    (member : userId ∈ roomMembers db.store chatroomId)
    (unknown : sockfdOf db.store userId = none) :
    (getFdByid chatroomId db).1 = .error .nullPointer := by
  have unchanged := (Reads.smembers (chatroomKey chatroomId)).issue_store db
  have holds : (Redis.setAt db.store (chatroomKey chatroomId)).isSome := by
    cases found : Redis.setAt db.store (chatroomKey chatroomId) with
    | none =>
        unfold roomMembers at member
        rw [found] at member
        exact absurd member List.not_mem_nil
    | some set => rfl
  rw [getFdByid_bind (normal _), if_pos holds]
  rw [← unchanged] at records unknown
  exact collectFds_faults (normal.issue _) records member unknown []

end Collect

end Dao
end ChatHub
