import ChatHub.Server.Records
import ChatHub.Server.RoomKeys

namespace ChatHub

/-!
# The recipients of a chatroom

`get_fd_byid` is to find the descriptors of all members of a chatroom that
are online.  It reads every member into an `int` before it looks at the
record, and it takes for granted that the record has a descriptor.  Members
are ids of 64 bits, and a user who never logged in has no descriptor.
-/

namespace Recipients

open ChatHub.Action Dao

/-- Positive user ids of 64 bits. -/
def Ids (ids : List Int) : Prop :=
  forall userId, userId ∈ ids -> 0 < userId ∧ userId < 2 ^ 63

/-- The ids are the members of the chatroom, in the order of its set. -/
def HasMembers (store : Redis.Store) (chatroomId : Int) (ids : List Int) : Prop :=
  Exists fun set => Redis.setAt store (chatroomKey chatroomId) = some set ∧
    set.members = ids.map intText

/-- The lookup returns an array and a size within what was allocated.  Up to
the size the array holds the positive descriptors of the members, in order. -/
def Exact (db : Db) (chatroomId : Int) (ids : List Int) : Prop :=
  Exists fun fds => Exists fun size => Exists fun after =>
    getFdByid chatroomId db = (.ok (some fds, size), after) ∧
      size = (ids.filterMap (positiveSockfd db.store)).length ∧
      fds.take size = ids.filterMap (positiveSockfd db.store) ∧ size ≤ ids.length

/-- The ids as the second loop sees them: read into an `int`, without those
that are not positive then. -/
def narrowed (ids : List Int) : List Int :=
  (ids.map toInt32).filter (fun userId => 0 < userId)

/-- The positive descriptor under the `int` that is read of an id, if the `int`
is positive. -/
def foundSockfd (store : Redis.Store) (userId : Int) : Option Int :=
  if 0 < toInt32 userId then positiveSockfd store (toInt32 userId) else none

/-- For every member, the `int` that is read of it has a stored descriptor
unless it is not positive, and what is found there is the member's own. -/
structure Readable (store : Redis.Store) (ids : List Int) : Prop where
  stored : forall userId, userId ∈ ids -> 0 < toInt32 userId ->
    (sockfdOf store (toInt32 userId)).isSome
  own : forall userId, userId ∈ ids -> foundSockfd store userId = positiveSockfd store userId

/-- No descriptor is stored for two users. -/
def DistinctFds (store : Redis.Store) : Prop :=
  forall userId other fd, positiveSockfd store userId = some fd ->
    positiveSockfd store other = some fd -> userId = other

/-! ## The two loops -/

section Loops

variable {db : Db} {chatroomId : Int} {ids : List Int}

/-- The first loop leaves the positive `int`s. -/
theorem roomMembers_of_hasMembers (members : HasMembers db.store chatroomId ids) (valid : Ids ids) :
    roomMembers db.store chatroomId = narrowed ids := by
  rcases members with ⟨set, holds, texts⟩
  unfold roomMembers
  rw [holds]
  simp only [memberList, narrowed, texts, List.map_map]
  congr 1
  apply List.map_congr_left
  intro userId member
  have range := valid userId member
  rw [Function.comp_apply, atoll_intText (by omega) range.2]

theorem mem_narrowed {userId : Int} :
    userId ∈ narrowed ids <-> Exists fun id => id ∈ ids ∧ 0 < toInt32 id ∧ toInt32 id = userId := by
  unfold narrowed
  rw [List.mem_filter, List.mem_map, decide_eq_true_eq]
  constructor
  · rintro ⟨⟨id, member, same⟩, positive⟩
    exact ⟨id, member, same ▸ positive, same⟩
  · rintro ⟨id, member, positive, same⟩
    exact ⟨⟨id, member, same⟩, same ▸ positive⟩

theorem narrowed_sockfds (store : Redis.Store) (ids : List Int) :
    (narrowed ids).filterMap (positiveSockfd store) = ids.filterMap (foundSockfd store) := by
  unfold narrowed
  rw [List.filterMap_filter, List.filterMap_map]
  apply List.filterMap_congr
  intro userId _
  simp only [Function.comp_apply, decide_eq_true_eq, foundSockfd]

/-- Both loops run to their end if every `int` has a descriptor. -/
theorem getFdByid_of_stored (normal : db.Normal)
    (members : HasMembers db.store chatroomId ids) (valid : Ids ids)
    (stored : forall userId, userId ∈ ids -> 0 < toInt32 userId ->
      (sockfdOf db.store (toInt32 userId)).isSome) :
    Exists fun after => getFdByid chatroomId db =
      (.ok (some (ids.filterMap (foundSockfd db.store)),
        (ids.filterMap (foundSockfd db.store)).length), after) := by
  have looked := roomMembers_of_hasMembers members valid
  rcases members with ⟨set, holds, _⟩
  have unchanged := (Reads.smembers (chatroomKey chatroomId)).issue_store db
  have found : forall userId, userId ∈ narrowed ids -> (sockfdOf db.store userId).isSome := by
    intro userId member
    rcases mem_narrowed.mp member with ⟨id, isMember, positive, same⟩
    exact same ▸ stored id isMember positive
  rw [← unchanged] at found
  rcases collectFds_run (normal.issue _) found [] with ⟨after, ran, _, _⟩
  refine ⟨after, ?_⟩
  rw [getFdByid_bind (normal _), holds, Option.isSome_some, if_pos rfl, looked, ran, unchanged,
    List.nil_append, narrowed_sockfds]

/-- The lookup is exact if it ends and the two lists of descriptors agree. -/
theorem exact_iff (normal : db.Normal) (records : Records db.store)
    (members : HasMembers db.store chatroomId ids) (valid : Ids ids) :
    Exact db chatroomId ids <->
      (forall userId, userId ∈ ids -> 0 < toInt32 userId ->
        (sockfdOf db.store (toInt32 userId)).isSome) ∧
      ids.filterMap (foundSockfd db.store) = ids.filterMap (positiveSockfd db.store) := by
  constructor
  · rintro ⟨fds, size, after, ran, isSize, found, _⟩
    have stored : forall userId, userId ∈ ids -> 0 < toInt32 userId ->
        (sockfdOf db.store (toInt32 userId)).isSome := by
      intro userId member positive
      by_contra unknown
      rw [Option.not_isSome_iff_eq_none] at unknown
      have looked := mem_narrowed.mpr ⟨userId, member, positive, rfl⟩
      rw [← roomMembers_of_hasMembers members valid] at looked
      have faults := getFdByid_faults normal records looked unknown
      rw [ran] at faults
      cases faults
    rcases getFdByid_of_stored normal members valid stored with ⟨other, returned⟩
    rw [returned] at ran
    cases ran
    rw [List.take_length] at found
    exact ⟨stored, found⟩
  · rintro ⟨stored, same⟩
    rcases getFdByid_of_stored normal members valid stored with ⟨after, returned⟩
    rw [same] at returned
    exact ⟨_, _, after, returned, rfl, List.take_length, List.length_filterMap_le _ _⟩

/-! ## Members and their descriptors -/

theorem HasMembers.nodup {store : Redis.Store} (members : HasMembers store chatroomId ids) :
    ids.Nodup := by
  rcases members with ⟨set, _, texts⟩
  have distinct := set.nodup
  rw [texts] at distinct
  exact List.Nodup.of_map _ distinct

/-- What two members of a list without repetitions have in common is found
twice. -/
theorem eq_of_nodup_filterMap {found : Int -> Option Int} (distinct : (ids.filterMap found).Nodup)
    {left right fd : Int} (isLeft : left ∈ ids) (isRight : right ∈ ids)
    (fromLeft : found left = some fd) (fromRight : found right = some fd) : left = right := by
  by_contra different
  have pairs := List.pairwise_filterMap.mp distinct
  have symmetric : Std.Symm (fun first second => forall value, found first = some value ->
      forall other, found second = some other -> value ≠ other) :=
    ⟨fun _ _ apart value isValue other isOther => (apart other isOther value isValue).symm⟩
  exact pairs.forall isLeft isRight different fd fromLeft fd fromRight rfl

theorem foundSockfd_eq_some_iff {store : Redis.Store} {userId fd : Int} :
    foundSockfd store userId = some fd <->
      0 < toInt32 userId ∧ positiveSockfd store (toInt32 userId) = some fd := by
  unfold foundSockfd
  rw [Option.ite_none_right_eq_some]

theorem toInt32_toInt32 (z : Int) : toInt32 (toInt32 z) = toInt32 z := by
  have range := userId_toInt32 z
  exact toInt32_eq_self range.1 range.2

/-- If no two users have one descriptor, the lists agree only if every member
is found under its own id. -/
theorem own_of_same {store : Redis.Store} (distinctFds : DistinctFds store) (distinct : ids.Nodup)
    (same : ids.filterMap (foundSockfd store) = ids.filterMap (positiveSockfd store)) :
    forall userId, userId ∈ ids -> foundSockfd store userId = positiveSockfd store userId := by
  have once : (ids.filterMap (foundSockfd store)).Nodup := by
    rw [same]
    exact distinct.filterMap (fun left right fd isLeft isRight => distinctFds left right fd isLeft isRight)
  intro userId member
  apply Option.ext
  intro fd
  constructor
  · intro found
    have listed := List.mem_filterMap.mpr ⟨userId, member, found⟩
    rw [same] at listed
    rcases List.mem_filterMap.mp listed with ⟨other, isOther, own⟩
    rcases foundSockfd_eq_some_iff.mp found with ⟨positive, stored⟩
    -- the member with this descriptor is the `int`, which is read as itself
    have isInt : other = toInt32 userId := distinctFds _ _ fd own stored
    have again : foundSockfd store other = some fd := by
      rw [foundSockfd_eq_some_iff, isInt, toInt32_toInt32]
      exact ⟨positive, stored⟩
    rw [← eq_of_nodup_filterMap once isOther member again found]
    exact own
  · intro own
    have listed := List.mem_filterMap.mpr ⟨userId, member, own⟩
    rw [← same] at listed
    rcases List.mem_filterMap.mp listed with ⟨other, _, found⟩
    rcases foundSockfd_eq_some_iff.mp found with ⟨positive, stored⟩
    have isInt : toInt32 other = userId := distinctFds _ _ fd stored own
    rw [foundSockfd_eq_some_iff, ← isInt, toInt32_toInt32]
    exact ⟨positive, stored⟩

/-- An id that fits into an `int` is read as itself. -/
theorem foundSockfd_of_small (store : Redis.Store) {userId : Int} (low : 0 < userId)
    (small : userId < 2 ^ 31) : foundSockfd store userId = positiveSockfd store userId := by
  unfold foundSockfd
  rw [toInt32_eq_self (by omega) small, if_pos low]

theorem readable_iff_of_small {store : Redis.Store} (valid : Ids ids)
    (small : forall userId, userId ∈ ids -> userId < 2 ^ 31) :
    Readable store ids <-> forall userId, userId ∈ ids -> (sockfdOf store userId).isSome := by
  have itself : forall userId, userId ∈ ids -> toInt32 userId = userId := by
    intro userId member
    have range := valid userId member
    exact toInt32_eq_self (by omega) (small userId member)
  constructor
  · intro readable userId member
    have stored := readable.stored userId member
    rw [itself userId member] at stored
    exact stored (valid userId member).1
  · intro stored
    refine ⟨fun userId member _ => ?_, fun userId member => ?_⟩
    · rw [itself userId member]
      exact stored userId member
    · exact foundSockfd_of_small store (valid userId member).1 (small userId member)

end Loops

/-- In every database that the operations lead to, the lookup is exact for a
chatroom whose members are readable.  It is exact for no other one if no two
users have one descriptor, or if the ids fit into an `int`; in that case to be
readable means that every member has a descriptor. -/
theorem exact_iff_readable (clock : Nat -> Int) (operations : List Operation) :
    Run.Always Operation.step (fun db => forall chatroomId ids,
      HasMembers db.store chatroomId ids -> Ids ids ->
        (Readable db.store ids -> Exact db chatroomId ids) ∧
        (DistinctFds db.store -> (Exact db chatroomId ids <-> Readable db.store ids)) ∧
        ((forall userId, userId ∈ ids -> userId < 2 ^ 31) ->
          (Exact db chatroomId ids <->
            forall userId, userId ∈ ids -> (sockfdOf db.store userId).isSome)))
      (Db.empty clock) operations := by
  apply (Operation.kinds_always (fun _ => .normal) clock operations).mono
  rintro db ⟨outcome, kinds⟩ chatroomId ids members valid
  have normal : db.Normal := congrFun outcome
  have isExact := exact_iff normal (userKey_holdsHash kinds) members valid
  have enough : Readable db.store ids -> Exact db chatroomId ids :=
    fun readable => isExact.mpr ⟨readable.stored, List.filterMap_congr readable.own⟩
  refine ⟨enough, fun distinctFds => ⟨fun exact => ?_, enough⟩, fun small => ?_⟩
  · have both := isExact.mp exact
    exact ⟨both.1, own_of_same distinctFds members.nodup both.2⟩
  · rw [← readable_iff_of_small valid small]
    refine ⟨fun exact => ⟨(isExact.mp exact).1, fun userId member => ?_⟩, enough⟩
    exact foundSockfd_of_small db.store (valid userId member).1 (small userId member)

/-- The members of a chatroom that was created for two users who never logged
in are not found. -/
theorem neverLoggedIn_not_exact :
    Not (Run.Always Operation.step (fun db => forall chatroomId ids,
      HasMembers db.store chatroomId ids -> Ids ids -> Exact db chatroomId ids)
      (Db.empty (fun _ => 1)) [.createChatroom 1 2]) := by
  have reached : (Run.after Operation.step (Db.empty (fun _ => 1)) [.createChatroom 1 2]).map
      (fun db => ((Redis.setAt db.store (chatroomKey 1)).map Redis.Members.members,
        (getFdByid 1 db).1.toOption.isSome)) =
      some (some ([1, 2].map intText), false) := by
    decide +kernel
  intro always
  rcases Option.map_eq_some_iff.mp reached with ⟨db, leads, found⟩
  rw [Prod.mk.injEq, Option.map_eq_some_iff] at found
  rcases found with ⟨⟨set, holds, texts⟩, faults⟩
  rcases always.finish leads 1 [1, 2] ⟨set, holds, texts⟩ (by unfold Ids; simp) with
    ⟨fds, size, after, ran, _⟩
  rw [ran] at faults
  cases faults

end Recipients
end ChatHub
