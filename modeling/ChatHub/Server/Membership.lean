import ChatHub.Server.Records
import ChatHub.Server.RoomKeys

namespace ChatHub

/-!
# What a member is

The members of a chatroom are texts.  `create_chatroom` adds the decimal
forms of ids, and `get_fd_byid` reads ids back, but `leave_chatrooom` and
`is_user_exists_inchatroom` name a user by the user's name.  A user and a
member are therefore the same thing only for a user who is named by the
decimal form of the own id, and a user who has the name of another id acts
for that other user.
-/

namespace Membership

open ChatHub.Action Dao

/-- The user is registered under the name with the id. -/
def Registered (store : Redis.Store) (userId : Int) (username : Bytes) : Prop :=
  Redis.fieldAt store usersKey username = some (intText userId)

/-- The id was added to the chatroom, and `get_fd_byid` comes upon it. -/
def Joined (store : Redis.Store) (chatroomId userId : Int) : Prop :=
  Member store chatroomId userId ∧ userId ∈ roomMembers store chatroomId

/-- Asking by the name tells whether the id has joined.  Leaving by the name
takes the id out of the chatroom and leaves the memberships of all others. -/
structure Agrees (db : Db) (chatroomId userId : Int) (username : Bytes) : Prop where
  asked : (isUserExistsInchatroom chatroomId username db).1 = .ok 1 <->
    Joined db.store chatroomId userId
  left : Not (Joined (leaveChatrooom chatroomId username db).2.store chatroomId userId)
  others : forall other, other ≠ userId -> forall room,
    Joined (leaveChatrooom chatroomId username db).2.store room other <-> Joined db.store room other

/-- The name is the id in decimal form. -/
def NamesItself (userId : Int) (username : Bytes) : Prop :=
  0 < userId ∧ userId < 2 ^ 31 ∧ username = intText userId

/-- Neither the name nor the id is in the set of the chatroom. -/
def Outside (store : Redis.Store) (chatroomId userId : Int) (username : Bytes) : Prop :=
  Not (Redis.InSet store (chatroomKey chatroomId) username) ∧
    Not (0 < userId ∧ userId < 2 ^ 31 ∧ Redis.InSet store (chatroomKey chatroomId) (intText userId))

/-- Only ids that fit into an `int` are read back as they were added. -/
theorem joined_iff {store : Redis.Store} {chatroomId userId : Int} :
    Joined store chatroomId userId <->
      0 < userId ∧ userId < 2 ^ 31 ∧ Redis.InSet store (chatroomKey chatroomId) (intText userId) := by
  unfold Joined roomMembers
  constructor
  · rintro ⟨⟨set, holds, isMember⟩, found⟩
    rw [holds] at found
    simp only [memberList, List.mem_filter, List.mem_map, decide_eq_true_eq] at found
    rcases found with ⟨⟨text, _, isId⟩, positive⟩
    have isUser := userId_toInt32 (atoll text)
    rw [isId] at isUser
    exact ⟨positive, isUser.2, set, holds, isMember⟩
  · rintro ⟨positive, small, set, holds, isMember⟩
    have isUser : UserId userId := ⟨by omega, small⟩
    refine ⟨⟨set, holds, isMember⟩, ?_⟩
    rw [holds]
    simp only [memberList, List.mem_filter, List.mem_map, decide_eq_true_eq]
    exact ⟨⟨intText userId, isMember, isUser.read⟩, positive⟩

section Calls

variable {db : Db} {chatroomId : Int} {set : Redis.Members}

theorem isUserExistsInchatroom_run (normal : db.Normal)
    (holds : Redis.setAt db.store (chatroomKey chatroomId) = some set) (username : Bytes) :
    (isUserExistsInchatroom chatroomId username db).1 = .ok 1 <->
      Redis.InSet db.store (chatroomKey chatroomId) username := by
  unfold isUserExistsInchatroom
  rw [ask_bind normal, Redis.inSet_iff holds]
  simp only [Redis.exec, holds]
  by_cases isMember : username ∈ set.members
  · rw [if_pos isMember]
    exact ⟨fun _ => isMember, fun _ => rfl⟩
  · rw [if_neg isMember]
    constructor
    · intro returned
      change (Except.ok 0 : Except Fault Int) = .ok 1 at returned
      cases returned
    · exact fun other => absurd other isMember

theorem leaveChatrooom_store (normal : db.Normal) (chatroomId : Int) (username : Bytes) :
    (leaveChatrooom chatroomId username db).2.store =
      (Redis.exec db.store (.srem (chatroomKey chatroomId) username)).2 := by
  unfold leaveChatrooom
  rw [ask_bind normal]
  split <;> rfl

/-- Leaving removes the name from the set of the chatroom. -/
theorem leaveChatrooom_inSet (normal : db.Normal)
    (holds : Redis.setAt db.store (chatroomKey chatroomId) = some set) (username : Bytes) (room : Int)
    (member : Bytes) :
    Redis.InSet (leaveChatrooom chatroomId username db).2.store (chatroomKey room) member <->
      Not (room = chatroomId ∧ member = username) ∧
        Redis.InSet db.store (chatroomKey room) member := by
  rw [leaveChatrooom_store normal]
  by_cases same : room = chatroomId
  · subst same
    rw [Redis.inSet_srem holds]
    simp only [true_and]
  · have unwritten : Not (Redis.Writes (.srem (chatroomKey chatroomId) username) (chatroomKey room)) := by
      intro sameKey
      exact same (RoomKey.unique RoomKey.members (sameKey ▸ RoomKey.members))
    rw [Redis.inSet_congr (Redis.exec_frame db.store unwritten)]
    simp only [same, false_and, not_false_eq_true, true_and]

theorem joined_after (normal : db.Normal)
    (holds : Redis.setAt db.store (chatroomKey chatroomId) = some set) (username : Bytes)
    (room userId : Int) :
    Joined (leaveChatrooom chatroomId username db).2.store room userId <->
      Not (room = chatroomId ∧ intText userId = username) ∧ Joined db.store room userId := by
  rw [joined_iff, joined_iff, leaveChatrooom_inSet normal holds]
  constructor
  · rintro ⟨positive, small, kept, isMember⟩
    exact ⟨kept, positive, small, isMember⟩
  · rintro ⟨kept, positive, small, isMember⟩
    exact ⟨positive, small, kept, isMember⟩

theorem agrees_iff (normal : db.Normal)
    (holds : Redis.setAt db.store (chatroomKey chatroomId) = some set) (userId : Int)
    (username : Bytes) :
    Agrees db chatroomId userId username <->
      NamesItself userId username ∨ Outside db.store chatroomId userId username := by
  have asks := isUserExistsInchatroom_run normal holds username
  have leaves := joined_after normal holds username
  constructor
  · intro agrees
    by_cases isMember : Redis.InSet db.store (chatroomKey chatroomId) username
    · -- the id has joined, and it is gone only if the name is its text
      left
      have joined := agrees.asked.mp (asks.mpr isMember)
      have gone := agrees.left
      rw [leaves] at gone
      rcases joined_iff.mp joined with ⟨positive, small, _⟩
      refine ⟨positive, small, ?_⟩
      by_contra different
      exact gone ⟨fun same => different same.2.symm, joined⟩
    · right
      refine ⟨isMember, fun joined => isMember ?_⟩
      exact asks.mp (agrees.asked.mpr (joined_iff.mpr joined))
  · rintro (⟨positive, small, isName⟩ | ⟨noName, noId⟩)
    · subst isName
      refine ⟨?_, ?_, fun other different room => ?_⟩
      · rw [asks, joined_iff]
        exact ⟨fun isMember => ⟨positive, small, isMember⟩, fun joined => joined.2.2⟩
      · rw [leaves]
        exact fun joined => joined.1 ⟨rfl, rfl⟩
      · rw [leaves]
        refine ⟨And.right, fun joined => ⟨?_, joined⟩⟩
        exact fun same => different (intText_injective same.2)
    · have notJoined : Not (Joined db.store chatroomId userId) :=
        fun joined => noId (joined_iff.mp joined)
      refine ⟨?_, ?_, fun other _ room => ?_⟩
      · rw [asks]
        exact ⟨fun isMember => absurd isMember noName, fun joined => absurd joined notJoined⟩
      · rw [leaves]
        exact fun joined => notJoined joined.2
      · rw [leaves]
        refine ⟨And.right, fun joined => ⟨?_, joined⟩⟩
        rintro ⟨isRoom, isName⟩
        rw [← isName, ← isRoom] at noName
        exact noName (joined_iff.mp joined).2.2

end Calls

/-- In every database that the operations lead to, the operations on members
agree about a user and a chatroom if and only if the user is named by the own
id, or neither the name nor the id is in the set of the chatroom. -/
theorem agrees_iff_namesItself (clock : Nat -> Int) (operations : List Operation) :
    Run.Always Operation.step (fun db => forall chatroomId userId username,
      Agrees db chatroomId userId username <->
        NamesItself userId username ∨ Outside db.store chatroomId userId username)
      (Db.empty clock) operations := by
  apply (Operation.kinds_always (fun _ => .normal) clock operations).mono
  rintro db ⟨outcome, kinds⟩ chatroomId userId username
  rcases Option.isSome_iff_exists.mp (chatroomKey_holdsSet kinds chatroomId) with ⟨set, holds⟩
  exact agrees_iff (congrFun outcome) holds userId username

/-- Two users, and a chatroom for them. -/
def chatOfTwo : List Operation :=
  [.registerUser
      { User.newUser with
        username := CharArray.strncpy maxChars (ascii "alice")
        pass := CharArray.strncpy maxChars (ascii "secret") },
    .registerUser
      { User.newUser with
        username := CharArray.strncpy maxChars (ascii "bob")
        pass := CharArray.strncpy maxChars (ascii "hidden") },
    .createChatroom 1 2]

/-- The chatroom of two users does not know the first one by name. -/
theorem chatOfTwo_not_agrees :
    Not (Run.Always Operation.step (fun db => forall chatroomId userId username,
      Registered db.store userId username -> Agrees db chatroomId userId username)
      (Db.empty (fun _ => 1)) chatOfTwo) := by
  have reached : (Run.after Operation.step (Db.empty (fun _ => 1)) chatOfTwo).map (fun db =>
      (Redis.fieldAt db.store usersKey (ascii "alice"),
        (isUserExistsInchatroom 1 (ascii "alice") db).1.toOption,
        (Redis.setAt db.store (chatroomKey 1)).map Redis.Members.members)) =
      some (some (intText 1), some 0, some ([1, 2].map intText)) := by
    decide +kernel
  intro always
  rcases Option.map_eq_some_iff.mp reached with ⟨db, leads, found⟩
  rw [Prod.mk.injEq, Prod.mk.injEq, Option.map_eq_some_iff] at found
  rcases found with ⟨registered, answer, set, holds, texts⟩
  have agrees := always.finish leads 1 1 (ascii "alice") registered
  have joined : Joined db.store 1 1 :=
    joined_iff.mpr ⟨by decide, by decide, set, holds, by rw [texts]; exact List.mem_cons_self⟩
  rw [agrees.asked.mpr joined] at answer
  cases answer

end Membership
end ChatHub
