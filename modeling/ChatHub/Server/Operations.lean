import ChatHub.Base.Run
import ChatHub.Server.DaoFrame

namespace ChatHub

/-!
# The operations of the data access layer

The functions that `server/dao.h` declares, as one type of operations with
one function that runs them.  The functions that only return a constant are
left out.  A run applies operations, in any order and with any arguments of
their types, to a database that starts empty and answers normally.
-/

/-- The functions of `dao.h` that issue commands. -/
inductive Operation where
  | registerUser (user : User)
  | loginUser (user : User)
  | logoutUser (user : User)
  | setOnline (user : User) (fd : Int)
  | setOffline (user : User)
  | getNextUserid
  | getUseridByName (username : Bytes)
  | isUserExists (username : Bytes)
  | getFdByid (chatroomId : Int)
  | getNextChatroomid
  | createChatroom (userId1 userId2 : Int)
  | delChatrooom (chatroomId : Int)
  | leaveChatrooom (chatroomId : Int) (username : Bytes)
  | isUserExistsInchatroom (chatroomId : Int) (username : Bytes)
  | getNextMsgid (chatroomId : Int)
  | saveMessage (chatroomId : Int) (message : Message)

/-- What an operation returns: a number, the descriptors of a chatroom with
their count, or a number and the message that was saved. -/
inductive Answer where
  | number (result : Int)
  | fds (array : Option (List Int)) (size : Nat)
  | saved (result : Int) (message : Message)

/-- The error results: a negative code, or a null pointer. -/
def Answer.IsError : Answer -> Prop
  | .number result => result < 0
  | .fds array _ => array = none
  | .saved result _ => result < 0

namespace Operation

open ChatHub.Action Dao

/-- A function that returns a number. -/
def number (action : Action Db Int) : Action Db Answer := do
  let result <- action
  pure (.number result)

/-- Call the function. -/
def run : Operation -> Action Db Answer
  | .registerUser user => number (ChatHub.registerUser user)
  | .loginUser user => number (ChatHub.loginUser user)
  | .logoutUser user => number (ChatHub.logoutUser user)
  | .setOnline user fd => number (ChatHub.setOnline user fd)
  | .setOffline user => number (ChatHub.setOffline user)
  | .getNextUserid => number ChatHub.getNextUserid
  | .getUseridByName username => number (ChatHub.getUseridByName username)
  | .isUserExists username => number (ChatHub.isUserExists username)
  | .getFdByid chatroomId => do
      let found <- ChatHub.getFdByid chatroomId
      pure (.fds found.1 found.2)
  | .getNextChatroomid => number ChatHub.getNextChatroomid
  | .createChatroom userId1 userId2 => number (ChatHub.createChatroom userId1 userId2)
  | .delChatrooom chatroomId => number (ChatHub.delChatrooom chatroomId)
  | .leaveChatrooom chatroomId username => number (ChatHub.leaveChatrooom chatroomId username)
  | .isUserExistsInchatroom chatroomId username =>
      number (ChatHub.isUserExistsInchatroom chatroomId username)
  | .getNextMsgid chatroomId => number (ChatHub.getNextMsgid chatroomId)
  | .saveMessage chatroomId message => do
      let saved <- ChatHub.saveMessage chatroomId message
      pure (.saved saved.1 saved.2)

/-- The commands that the function may issue. -/
def Commands : Operation -> Redis.Command -> Prop
  | .registerUser user => Enrols user
  | .loginUser _ => Reads
  | .logoutUser _ => Presence 0 (-1)
  | .setOnline _ fd => Presence 1 fd
  | .setOffline _ => Presence 0 (-1)
  | .getNextUserid => fun command => command = .incr nextUserIdKey
  | .getUseridByName _ => Reads
  | .isUserExists username => fun command => command = .hexists usersKey username
  | .getFdByid _ => Reads
  | .getNextChatroomid => fun command => command = .incr nextChatroomIdKey
  | .createChatroom userId1 userId2 => Creates userId1 userId2
  | .delChatrooom chatroomId => Deletes chatroomId
  | .leaveChatrooom chatroomId username =>
      fun command => command = .srem (chatroomKey chatroomId) username
  | .isUserExistsInchatroom chatroomId username =>
      fun command => command = .sismember (chatroomKey chatroomId) username
  | .getNextMsgid chatroomId => fun command => command = .incr (nextMsgIdKey chatroomId)
  | .saveMessage chatroomId _ => Saves chatroomId

/-- The chatroom for which the function draws an id of a message. -/
def draws : Operation -> Option Int
  | .getNextMsgid chatroomId => some chatroomId
  | .saveMessage chatroomId _ => some chatroomId
  | _ => none

theorem number_composed {allowed : Redis.Command -> Prop} {action : Action Db Int}
    (composed : Composed allowed action) : Composed allowed (number action) :=
  composed_bind composed (fun _ => Composed.pure _)

theorem run_composed (operation : Operation) : Composed operation.Commands operation.run := by
  cases operation with
  | registerUser user => exact number_composed (registerUser_composed user)
  | loginUser user => exact number_composed (loginUser_composed user)
  | logoutUser user => exact number_composed (setOffline_composed user)
  | setOnline user fd => exact number_composed (setPresence_presence user.userId 1 fd)
  | setOffline user => exact number_composed (setOffline_composed user)
  | getNextUserid => exact number_composed (nextId_composed _)
  | getUseridByName username => exact number_composed (getUseridByName_composed username)
  | isUserExists username => exact number_composed (isUserExists_composed username)
  | getFdByid chatroomId => exact composed_bind (getFdByid_composed chatroomId) (fun _ => Composed.pure _)
  | getNextChatroomid => exact number_composed (nextId_composed _)
  | createChatroom userId1 userId2 => exact number_composed (createChatroom_composed userId1 userId2)
  | delChatrooom chatroomId => exact number_composed (delChatrooom_composed chatroomId)
  | leaveChatrooom chatroomId username =>
      exact number_composed (leaveChatrooom_composed chatroomId username)
  | isUserExistsInchatroom chatroomId username =>
      exact number_composed (isUserExistsInchatroom_composed chatroomId username)
  | getNextMsgid chatroomId => exact number_composed (nextId_composed _)
  | saveMessage chatroomId message =>
      exact composed_bind (saveMessage_composed chatroomId message) (fun _ => Composed.pure _)

/-! ## Runs -/

/-- The range of `long long`. -/
def LongLong (z : Int) : Prop :=
  -2 ^ 63 ≤ z ∧ z < 2 ^ 63

instance (z : Int) : Decidable (LongLong z) :=
  inferInstanceAs (Decidable (-2 ^ 63 ≤ z ∧ z < 2 ^ 63))

/-- The numbers among the arguments are in the range of their types. -/
def Typed : Operation -> Prop
  | .registerUser user => LongLong user.userId
  | .loginUser user => LongLong user.userId
  | .logoutUser user => LongLong user.userId
  | .setOnline user fd => LongLong user.userId ∧ UserId fd
  | .setOffline user => LongLong user.userId
  | .getNextUserid => True
  | .getUseridByName _ => True
  | .isUserExists _ => True
  | .getFdByid chatroomId => LongLong chatroomId
  | .getNextChatroomid => True
  | .createChatroom userId1 userId2 => LongLong userId1 ∧ LongLong userId2
  | .delChatrooom chatroomId => LongLong chatroomId
  | .leaveChatrooom chatroomId _ => LongLong chatroomId
  | .isUserExistsInchatroom chatroomId _ => LongLong chatroomId
  | .getNextMsgid chatroomId => LongLong chatroomId
  | .saveMessage chatroomId message => LongLong chatroomId ∧ LongLong message.sendTime

instance (operation : Operation) : Decidable operation.Typed := by
  cases operation <;> unfold Typed <;> infer_instance

/-- What the function returns, and the database behind it. -/
def perform (operation : Operation) (db : Db) : Option (Answer × Db) :=
  match operation.run db with
  | (.ok answer, after) => some (answer, after)
  | (.error _, _) => none

/-- One call with arguments of the right types, if it returns. -/
def step (db : Db) (operation : Operation) : Option Db :=
  if operation.Typed then (operation.perform db).map Prod.snd else none

theorem perform_of_run {operation : Operation} {db after : Db} {answer : Answer}
    (ran : operation.run db = (.ok answer, after)) : operation.perform db = some (answer, after) := by
  unfold perform
  rw [ran]

theorem run_of_perform {operation : Operation} {db after : Db} {answer : Answer}
    (performed : operation.perform db = some (answer, after)) :
    operation.run db = (.ok answer, after) := by
  unfold perform at performed
  split at performed
  · next returned =>
      cases performed
      exact returned
  · cases performed

/-- A step is a call with typed arguments that returns. -/
theorem step_eq_some_iff {operation : Operation} {db after : Db} :
    step db operation = some after <->
      operation.Typed ∧ Exists fun answer => operation.run db = (.ok answer, after) := by
  simp only [step, Option.ite_none_right_eq_some, Option.map_eq_some_iff]
  constructor
  · rintro ⟨typed, ⟨answer, other⟩, performed, same⟩
    subst same
    exact ⟨typed, answer, run_of_perform performed⟩
  · rintro ⟨typed, answer, ran⟩
    exact ⟨typed, (answer, after), perform_of_run ran, rfl⟩

theorem number_of_run {action : Action Db Int} {db after : Db} {result : Int}
    (ran : action db = (.ok result, after)) : number action db = (.ok (.number result), after) := by
  unfold number
  rw [bind_of_ok ran]
  rfl

theorem run_of_number {action : Action Db Int} {db after : Db} {answer : Answer}
    (ran : number action db = (.ok answer, after)) :
    Exists fun result => action db = (.ok result, after) := by
  rcases ok_of_bind ran with ⟨result, middle, returned, same⟩
  cases same
  exact ⟨result, returned⟩

/-- What the commands of an operation preserve, the operation preserves. -/
theorem perform_keeps {operation : Operation} {db after : Db} {answer : Answer}
    (ran : operation.perform db = some (answer, after)) {property : Redis.Store -> Prop}
    (preserved : forall store command, operation.Commands command -> property store ->
      property (Redis.exec store command).2) (holds : property db.store) :
    after.outcome = db.outcome ∧ property after.store := by
  have kept := operation.run_composed.keeps preserved holds
  rw [run_of_perform ran] at kept
  exact kept

theorem step_keeps {operation : Operation} {db next : Db} (taken : step db operation = some next)
    {property : Redis.Store -> Prop}
    (preserved : operation.Typed -> forall store command, operation.Commands command ->
      property store -> property (Redis.exec store command).2) (holds : property db.store) :
    next.outcome = db.outcome ∧ property next.store := by
  rcases step_eq_some_iff.mp taken with ⟨typed, answer, ran⟩
  exact perform_keeps (perform_of_run ran) (preserved typed) holds

end Operation

/-- The database, whose connection answers normally from now on. -/
def Db.answering (db : Db) : Db :=
  { db with outcome := fun _ => .normal }

end ChatHub
