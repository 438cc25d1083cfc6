import ChatHub.Server.Operations
import ChatHub.Server.Registration

namespace ChatHub

/-!
# The contract of registration and login

A run calls operations of the data access layer in any order on a database
that starts empty and answers every command normally.  The state remembers
which registrations succeeded and says which operations may come next.  The
directory of the registrations is the invariant, and the contract follows from
it in every state.
-/

namespace Accounts

open ChatHub.Action Dao

/-- The database and the registrations that succeeded so far. -/
structure State where
  db : Db
  registered : List Registration

/-- An empty database and no registrations. -/
def start (clock : Nat -> Int) : State where
  db := Db.empty clock
  registered := []

/-- The name is registered. -/
def State.Named (state : State) (username : Bytes) : Prop :=
  username ∈ state.registered.map Registration.username

/-- The id is that of a registration. -/
def State.Numbered (state : State) (userId : Int) : Prop :=
  userId ∈ state.registered.map Registration.userId

instance (state : State) (username : Bytes) : Decidable (state.Named username) :=
  inferInstanceAs (Decidable (username ∈ state.registered.map Registration.username))

instance (state : State) (userId : Int) : Decidable (state.Numbered userId) :=
  inferInstanceAs (Decidable (userId ∈ state.registered.map Registration.userId))

/-- The operation may come next.  There are fewer than `2 ^ 31` registrations,
only these draw ids of users, and presence is set for registered users only. -/
def State.Allows (state : State) : Operation -> Prop
  | .registerUser user =>
      state.Named user.usernameString ∨ state.registered.length + 1 < 2 ^ 31
  | .setOnline user _ => state.Numbered user.userId
  | .setOffline user | .logoutUser user =>
      state.Numbered user.userId ∨ user.userId = 0 ∧ state.Named user.usernameString
  | .getNextUserid => False
  | _ => True

instance (state : State) : DecidablePred state.Allows
  | .registerUser user =>
      inferInstanceAs (Decidable (state.Named user.usernameString ∨ state.registered.length + 1 < 2 ^ 31))
  | .setOnline user _ => inferInstanceAs (Decidable (state.Numbered user.userId))
  | .setOffline user | .logoutUser user =>
      inferInstanceAs (Decidable (state.Numbered user.userId ∨
        user.userId = 0 ∧ state.Named user.usernameString))
  | .getNextUserid => isFalse id
  | .loginUser _ | .getUseridByName _ | .isUserExists _ | .getFdByid _ | .getNextChatroomid |
    .createChatroom _ _ | .delChatrooom _ | .leaveChatrooom _ _ | .isUserExistsInchatroom _ _ |
    .getNextMsgid _ | .saveMessage _ _ => isTrue trivial

/-- A registration that succeeds is remembered. -/
def remember (registered : List Registration) : Operation -> Answer -> List Registration
  | .registerUser user, .number userId =>
      if 0 < userId then registered ++ [⟨user.usernameString, user.passString, userId⟩]
      else registered
  | _, _ => registered

/-- One operation that is allowed and returns. -/
def step (state : State) (operation : Operation) : Option State :=
  if state.Allows operation then
    (operation.perform state.db).map
      (fun returned => ⟨returned.2, remember state.registered operation returned.1⟩)
  else none

/-- What registration and login promise in a state. -/
structure Contract (state : State) : Prop where
  /-- login by name succeeds for a registered name with its password only,
  and answers the id of that registration -/
  login : forall user : User, user.userId = 0 -> Exists fun result =>
    (loginUser user state.db).1 = .ok result ∧
    (0 < result <-> Exists fun registration => registration ∈ state.registered ∧
      registration.username = user.usernameString ∧ registration.pass = user.passString) ∧
    forall registration, registration ∈ state.registered ->
      registration.username = user.usernameString -> registration.pass = user.passString ->
      result = registration.userId
  /-- a registered name is refused and nothing is changed -/
  again : forall user : User, state.Named user.usernameString ->
    (registerUser user state.db).1 = .ok errorUserExists ∧
      (registerUser user state.db).2.store = state.db.store
  /-- different names have different ids -/
  distinct : forall left right, left ∈ state.registered -> right ∈ state.registered ->
    left.username ≠ right.username -> left.userId ≠ right.userId

/-! ## The invariant -/

/-- Commands are answered normally, and the directory is that of the
registrations. -/
structure Kept (state : State) : Prop where
  outcome : state.db.outcome = fun _ => .normal
  few : state.registered.length < 2 ^ 31
  directory : Directory state.registered state.db.store

theorem kept_start (clock : Nat -> Int) : Kept (start clock) where
  outcome := rfl
  few := by
    change 0 < 2 ^ 31
    decide
  directory := directory_empty

theorem Kept.normal {state : State} (kept : Kept state) : state.db.Normal := by
  intro index
  rw [kept.outcome]

section Steps

variable {state next : State} {operation : Operation}

theorem step_cases (taken : step state operation = some next) :
    state.Allows operation ∧ Exists fun answer =>
      operation.perform state.db = some (answer, next.db) ∧
        next.registered = remember state.registered operation answer := by
  simp only [step, Option.ite_none_right_eq_some, Option.map_eq_some_iff] at taken
  rcases taken with ⟨allowed, ⟨answer, after⟩, performed, same⟩
  subst same
  exact ⟨allowed, answer, performed, rfl⟩

/-- An operation that registers nobody keeps the directory if its commands do. -/
theorem Kept.perform (kept : Kept state) {answer : Answer}
    (performed : operation.perform state.db = some (answer, next.db))
    (same : next.registered = state.registered)
    (preserved : forall store command, operation.Commands command ->
      Directory state.registered store -> Directory state.registered (Redis.exec store command).2) :
    Kept next := by
  have held := Operation.perform_keeps performed preserved kept.directory
  refine ⟨held.1.trans kept.outcome, ?_, ?_⟩
  · rw [same]
    exact kept.few
  · rw [same]
    exact held.2

/-- A registration is refused or extends the directory. -/
theorem Kept.registerUser {user : User} (kept : Kept state) {answer : Answer}
    (allowed : state.Allows (.registerUser user))
    (performed : (Operation.registerUser user).perform state.db = some (answer, next.db))
    (remembered : next.registered = remember state.registered (.registerUser user) answer) :
    Kept next := by
  by_cases known : state.Named user.usernameString
  · rcases registerUser_again kept.normal kept.directory known with ⟨refused, unchanged⟩
    have returned := @Operation.perform_of_run (.registerUser user) _ _ _
      (Operation.number_of_run refused)
    rw [returned, Option.some.injEq, Prod.mk.injEq] at performed
    rcases performed with ⟨isCode, isAfter⟩
    subst isCode
    have same : next.registered = state.registered := remembered
    refine ⟨?_, ?_, ?_⟩
    · rw [← isAfter]
      exact kept.outcome
    · rw [same]
      exact kept.few
    · rw [same, ← isAfter, unchanged]
      exact kept.directory
  · have small := allowed.resolve_left known
    rcases registerUser_new kept.normal kept.directory small known with
      ⟨after, ran, outcome, directory⟩
    have positive : 0 < (state.registered.length : Int) + 1 := by omega
    have returned := @Operation.perform_of_run (.registerUser user) _ _ _
      (Operation.number_of_run ran)
    rw [returned, Option.some.injEq, Prod.mk.injEq] at performed
    rcases performed with ⟨isId, isAfter⟩
    subst isId
    have extended : next.registered = state.registered ++
        [⟨user.usernameString, user.passString, (state.registered.length : Int) + 1⟩] :=
      remembered.trans (if_pos positive)
    refine ⟨?_, ?_, ?_⟩
    · rw [← isAfter]
      exact outcome.trans kept.outcome
    · rw [extended, List.length_append, List.length_singleton]
      exact small
    · rw [extended, ← isAfter]
      exact directory

theorem Kept.step (kept : Kept state) (taken : step state operation = some next) : Kept next := by
  rcases step_cases taken with ⟨allowed, answer, performed, remembered⟩
  have chats : forall store command, Chats (fun _ => True) command ->
      Directory state.registered store -> Directory state.registered (Redis.exec store command).2 :=
    fun _ _ chats directory => directory.chats chats
  have reads : forall store command, Reads command -> Directory state.registered store ->
      Directory state.registered (Redis.exec store command).2 :=
    fun _ _ reads directory => directory.reads reads
  have presence : forall isOnline sockfd store command, Presence isOnline sockfd command ->
      Directory state.registered store -> Directory state.registered (Redis.exec store command).2 :=
    fun _ _ _ _ presence directory => directory.presence presence
  cases operation with
  | registerUser user => exact kept.registerUser allowed performed remembered
  | loginUser user => exact kept.perform performed remembered reads
  | logoutUser user => exact kept.perform performed remembered (presence 0 (-1))
  | setOnline user fd => exact kept.perform performed remembered (presence 1 fd)
  | setOffline user => exact kept.perform performed remembered (presence 0 (-1))
  | getNextUserid => exact allowed.elim
  | getUseridByName username => exact kept.perform performed remembered reads
  | isUserExists username =>
      exact kept.perform performed remembered
        (fun _ _ same => reads _ _ (same ▸ Reads.hexists usersKey username))
  | getFdByid chatroomId => exact kept.perform performed remembered reads
  | getNextChatroomid =>
      exact kept.perform performed remembered (fun _ _ same => chats _ _ (same ▸ Chats.count))
  | createChatroom userId1 userId2 =>
      exact kept.perform performed remembered
        (fun _ _ creates => chats _ _ (creates.chats trivial trivial))
  | delChatrooom chatroomId =>
      exact kept.perform performed remembered (fun _ _ deletes => chats _ _ deletes.chats)
  | leaveChatrooom chatroomId username =>
      exact kept.perform performed remembered
        (fun _ _ same => chats _ _ (same ▸ srem_chats chatroomId username))
  | isUserExistsInchatroom chatroomId username =>
      exact kept.perform performed remembered
        (fun store _ same directory => same ▸ directory.congr
          (fun _ _ => Redis.exec_frame store (fun writes => writes)))
  | getNextMsgid chatroomId =>
      exact kept.perform performed remembered
        (fun _ _ same => chats _ _ (same ▸ Chats.incr (nextMsgIdKey_isChatroom chatroomId)))
  | saveMessage chatroomId message =>
      exact kept.perform performed remembered (fun _ _ saves => chats _ _ saves.chats)

end Steps

/-! ## The contract -/

theorem Kept.sameName {state : State} (kept : Kept state) {left right : Registration}
    (leftMember : left ∈ state.registered) (rightMember : right ∈ state.registered)
    (same : left.username = right.username) : left = right :=
  List.inj_on_of_nodup_map kept.directory.names leftMember rightMember same

theorem Kept.login {state : State} (kept : Kept state) (user : User) (byName : user.userId = 0) :
    Exists fun result => (ChatHub.loginUser user state.db).1 = .ok result ∧
      (0 < result <-> Exists fun registration => registration ∈ state.registered ∧
        registration.username = user.usernameString ∧ registration.pass = user.passString) ∧
      forall registration, registration ∈ state.registered ->
        registration.username = user.usernameString -> registration.pass = user.passString ->
        result = registration.userId := by
  by_cases known : state.Named user.usernameString
  · rcases List.mem_map.mp known with ⟨registration, member, sameName⟩
    have answer := loginUser_known kept.normal kept.directory kept.few member byName sameName.symm
    have range := kept.directory.range registration member
    have only : forall other, other ∈ state.registered -> other.username = user.usernameString ->
        other = registration :=
      fun other isOther otherName => kept.sameName isOther member (otherName.trans sameName.symm)
    refine ⟨_, answer, ⟨?_, ?_⟩, ?_⟩
    · intro positive
      refine ⟨registration, member, sameName, ?_⟩
      by_contra otherPass
      rw [if_neg (fun same => otherPass same.symm)] at positive
      exact absurd positive (by decide)
    · intro registeredSo
      rcases registeredSo with ⟨other, isOther, otherName, samePass⟩
      rw [only other isOther otherName] at samePass
      rw [if_pos samePass.symm]
      exact range.1
    · intro other isOther otherName samePass
      rw [only other isOther otherName] at samePass ⊢
      rw [if_pos samePass.symm]
  · refine ⟨_, loginUser_unknown kept.normal kept.directory known, ⟨?_, ?_⟩, ?_⟩
    · exact fun positive => absurd positive (by decide)
    · intro registeredSo
      rcases registeredSo with ⟨other, isOther, otherName, _⟩
      exact absurd (List.mem_map.mpr ⟨other, isOther, otherName⟩) known
    · intro other isOther otherName _
      exact absurd (List.mem_map.mpr ⟨other, isOther, otherName⟩) known

theorem Kept.contract {state : State} (kept : Kept state) : Contract state where
  login := kept.login
  again := fun user known => by
    have refused := registerUser_again kept.normal kept.directory known
    rw [refused.1]
    exact ⟨rfl, refused.2⟩
  distinct := fun left right leftMember rightMember different sameId =>
    different (congrArg Registration.username
      (List.inj_on_of_nodup_map kept.directory.ids leftMember rightMember sameId))

/-- In every state of every run the contract holds. -/
theorem contract_always (clock : Nat -> Int) (operations : List Operation) :
    Run.Always step Contract (start clock) operations := by
  have kept := @Run.invariant _ _ step Kept (start clock) (kept_start clock)
    (fun state operation next kept taken => kept.step taken) operations
  exact kept.mono (fun _ kept => kept.contract)

end Accounts
end ChatHub
