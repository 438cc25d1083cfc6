import ChatHub.Server.RoomKeys

namespace ChatHub

/-!
# Registrations that fail

`register_user` issues four commands: it asks for the name, draws an id,
stores the record and enters the id under the name.  The first, the third
and the fourth reply are checked.  The id is not: when the counter fails,
`ERROR_NORMAL` itself becomes the id of the record, it is entered under the
name, and it is what the caller takes for a failure.  Every function that
draws an id of a chatroom or of a message does check it.
-/

namespace FailedRegistration

open ChatHub.Action Dao

/-- Some name is entered under the id. -/
def Existing (store : Redis.Store) (userId : Int) : Prop :=
  Exists fun username => Exists fun text =>
    Redis.fieldAt store usersKey username = some text ∧ atoll text = userId

/-- The key holds the same value. -/
def SameAt (before after : Redis.Store) (key : Bytes) : Prop :=
  Option.Rel Redis.Value.Same (after.lookup key) (before.lookup key)

/-- The index is as before, and so are the records of the users in it. -/
structure Harmless (before after : Redis.Store) : Prop where
  index : after.lookup usersKey = before.lookup usersKey
  records : forall userId, Existing before userId -> SameAt before after (userKey userId)

/-- A registration that returns no id leaves the users as they are. -/
def RegistersNobody (db : Db) (user : User) : Prop :=
  forall result after, registerUser user db = (.ok result, after) -> result ≤ 0 ->
    Harmless db.store after.store

/-- The id that `register_user` goes on with, after this answer to `INCR`. -/
def drawnId (answer : Redis.Outcome) (store : Redis.Store) : Int :=
  match answer, Redis.counterAt store nextUserIdKey with
  | .normal, some last => if last = 2 ^ 63 - 1 then errorNormal else toInt32 (last + 1)
  | _, _ => errorNormal

/-- The fields have these values in the record of the user. -/
def HoldsRecord (store : Redis.Store) (userId : Int) (pairs : List (Bytes × Bytes)) : Prop :=
  forall name value, (name, value) ∈ pairs ->
    Redis.fieldAt store (userKey userId) name = some value

/-- The name is new, and a record is stored for it. -/
structure StoresRecord (db : Db) (user : User) : Prop where
  asked : db.outcome db.issued = .normal
  newName : Redis.fieldAt db.store usersKey user.usernameString = none
  answered : forall carriedOut, db.outcome (db.issued + 1) ≠ .lost carriedOut
  recorded : db.outcome (db.issued + 2) = .normal

/-- A record is stored, and either it is entered under an id that is not
positive, or it replaces another record of an existing user and is not
entered. -/
def Leaves (db : Db) (user : User) : Prop :=
  StoresRecord db user ∧
    (db.outcome (db.issued + 3) = .normal ∧ drawnId (db.outcome (db.issued + 1)) db.store ≤ 0 ∨
      db.outcome (db.issued + 3) = .error ∧
        Existing db.store (drawnId (db.outcome (db.issued + 1)) db.store) ∧
        Not (HoldsRecord db.store (drawnId (db.outcome (db.issued + 1)) db.store)
          (enrolFields user (db.clock db.ticks))))

/-! ## Stores that agree -/

section Stores

variable {before middle after : Redis.Store}

theorem SameAt.of_lookup {key : Bytes} (same : after.lookup key = before.lookup key) :
    SameAt before after key := by
  unfold SameAt
  rw [same]
  exact Redis.SameStore.of_lookups (fun _ => rfl) key

theorem Harmless.of_lookups (same : forall key, key ≠ nextUserIdKey ->
    after.lookup key = before.lookup key) : Harmless before after where
  index := same _ usersKey_ne_nextUserIdKey
  records := fun userId _ => SameAt.of_lookup (same _ (userKey_ne_nextUserIdKey userId))

theorem existing_congr (same : middle.lookup usersKey = before.lookup usersKey) (userId : Int) :
    Existing middle userId <-> Existing before userId := by
  unfold Existing
  simp only [Redis.fieldAt_congr same]

/-- What happened to the counter of ids does not matter. -/
theorem harmless_congr (same : forall key, key ≠ nextUserIdKey ->
    middle.lookup key = before.lookup key) : Harmless middle after <-> Harmless before after := by
  have index := same usersKey usersKey_ne_nextUserIdKey
  constructor
  · intro harmless
    refine ⟨harmless.index.trans index, fun userId existing => ?_⟩
    have kept := harmless.records userId ((existing_congr index userId).mpr existing)
    unfold SameAt at kept ⊢
    rw [← same _ (userKey_ne_nextUserIdKey userId)]
    exact kept
  · intro harmless
    refine ⟨harmless.index.trans index.symm, fun userId existing => ?_⟩
    have kept := harmless.records userId ((existing_congr index userId).mp existing)
    unfold SameAt at kept ⊢
    rw [same _ (userKey_ne_nextUserIdKey userId)]
    exact kept

/-- Setting the record of a user changes it unless it has all fields already. -/
theorem sameAt_hmset_iff {store : Redis.Store} {userId : Int} {pairs : List (Bytes × Bytes)}
    (record : (Redis.hashAt store (userKey userId)).isSome = true) (isCons : pairs ≠ [])
    (distinct : (pairs.map Prod.fst).Nodup) :
    SameAt store (Redis.exec store (.hmset (userKey userId) pairs)).2 (userKey userId) <->
      HoldsRecord store userId pairs := by
  rcases Option.isSome_iff_exists.mp record with ⟨fields, holds⟩
  unfold HoldsRecord
  rw [← Redis.hmset_same_iff holds isCons distinct]
  constructor
  · intro same key
    by_cases isRecord : key = userKey userId
    · rw [isRecord]
      exact same
    · exact SameAt.of_lookup (hmset_frame store pairs isRecord)
  · exact fun same => same (userKey userId)

/-- Setting the record of one user is harmless for all others. -/
theorem harmless_hmset_iff {store : Redis.Store} {userId : Int} {pairs : List (Bytes × Bytes)}
    (record : (Redis.hashAt store (userKey userId)).isSome = true) (isCons : pairs ≠ [])
    (distinct : (pairs.map Prod.fst).Nodup) :
    Harmless store (Redis.exec store (.hmset (userKey userId) pairs)).2 <->
      (Existing store userId -> HoldsRecord store userId pairs) := by
  have set := sameAt_hmset_iff record isCons distinct
  constructor
  · exact fun harmless existing => set.mp (harmless.records userId existing)
  · intro held
    refine ⟨hmset_frame store pairs (userKey_ne_usersKey userId).symm, fun other existing => ?_⟩
    by_cases same : other = userId
    · subst same
      exact set.mpr (held existing)
    · exact SameAt.of_lookup (hmset_frame store pairs (fun sameKey => same (userKey_injective sameKey)))

end Stores

/-! ## The commands of a registration -/

/-- `register_user` behind the generator of ids: the record is stored under
the id, and the id under the name. -/
def storeUnder (user : User) (userId time : Int) : Action Db Int := do
  let reply <- ask (.hmset (userKey userId) (enrolFields user time))
  if reply.isError then pure errorNormal
  else do
    let reply <- ask (.hset usersKey user.usernameString (intText userId))
    if reply.isError then pure errorNormal else pure userId

theorem storeUser_eq (user : User) :
    storeUser user = (getNextUserid >>= fun userId => currentTimeMillis >>= storeUnder user userId) :=
  rfl

section Commands

variable {db : Db} {user : User}

/-- A command that gets no answer returns nothing. -/
theorem lost_returns {Value : Type} {carriedOut : Bool} (lost : db.outcome db.issued = .lost carriedOut)
    {command : Redis.Command} {rest : Redis.Reply -> Action Db Value} {value : Value} {after : Db} :
    (ask command >>= rest) db ≠ (.ok value, after) := by
  intro ran
  rcases ok_of_bind ran with ⟨reply, middle, answered, _⟩
  have faults := ask_lost lost command
  rw [answered] at faults
  cases faults

theorem storeUnder_refused (refused : db.outcome db.issued = .error) (userId time : Int) :
    storeUnder user userId time db = (.ok errorNormal, { db with issued := db.issued + 1 }) := by
  unfold storeUnder
  rw [bind_of_ok (ask_refused refused _)]
  rfl

/-- The database after the record was stored. -/
def recorded (db : Db) (user : User) (userId time : Int) : Db :=
  db.issue (.hmset (userKey userId) (enrolFields user time))

theorem storeUnder_recorded (normal : db.outcome db.issued = .normal) {userId : Int}
    (record : (Redis.hashAt db.store (userKey userId)).isSome = true) (time : Int) :
    storeUnder user userId time db =
      (ask (.hset usersKey user.usernameString (intText userId)) >>= fun reply =>
        if reply.isError then pure errorNormal else pure userId) (recorded db user userId time) := by
  rcases Option.isSome_iff_exists.mp record with ⟨fields, holds⟩
  unfold storeUnder
  rw [bind_of_ok (ask_answered normal _), Redis.exec_hmset_of_hash holds]
  rfl

theorem recorded_index (userId time : Int) :
    (recorded db user userId time).store.lookup usersKey = db.store.lookup usersKey :=
  hmset_frame db.store _ (userKey_ne_usersKey userId).symm

/-- Entering the id answers normally and changes the index. -/
theorem enter_recorded (normal : db.outcome (db.issued + 1) = .normal)
    (index : (Redis.hashAt db.store usersKey).isSome = true)
    (newName : Redis.fieldAt db.store usersKey user.usernameString = none) (userId time : Int) :
    Exists fun after => (ask (.hset usersKey user.usernameString (intText userId)) >>= fun reply =>
        if reply.isError then pure errorNormal else pure userId) (recorded db user userId time) =
          (.ok userId, after) ∧
      Not (Harmless db.store after.store) := by
  rcases Option.isSome_iff_exists.mp index with ⟨names, holds⟩
  have sameIndex := Redis.hashAt_congr (@recorded_index db user userId time)
  rw [holds] at sameIndex
  have entering : Redis.exec (recorded db user userId time).store
      (.hset usersKey user.usernameString (intText userId)) =
      (.integer (if (names.lookup user.usernameString).isSome then 0 else 1),
        (recorded db user userId time).store.insert usersKey
          (.hash (names.insert user.usernameString (intText userId)))) := by
    simp only [Redis.exec, sameIndex]
  refine ⟨(recorded db user userId time).issue
    (.hset usersKey user.usernameString (intText userId)), ?_, ?_⟩
  · rw [bind_of_ok (@ask_answered (recorded db user userId time) normal _), entering]
    rfl
  · intro harmless
    have entered := Redis.fieldAt_congr harmless.index user.usernameString
    rw [newName] at entered
    change Redis.fieldAt (Redis.exec (recorded db user userId time).store _).2 _ _ = none at entered
    rw [entering, Redis.fieldAt, Redis.hashAt_insert, Option.bind_some, AList.lookup_insert] at entered
    cases entered

/-- The commands behind the generator do harm in the two ways in which the
id and the name come apart. -/
theorem storeUnder_iff (index : (Redis.hashAt db.store usersKey).isSome = true)
    (newName : Redis.fieldAt db.store usersKey user.usernameString = none) {userId : Int}
    (record : (Redis.hashAt db.store (userKey userId)).isSome = true) (time : Int) :
    (forall result after, storeUnder user userId time db = (.ok result, after) -> result ≤ 0 ->
        Harmless db.store after.store) <->
      Not (db.outcome db.issued = .normal ∧
        (db.outcome (db.issued + 1) = .normal ∧ userId ≤ 0 ∨
          db.outcome (db.issued + 1) = .error ∧ Existing db.store userId ∧
            Not (HoldsRecord db.store userId (enrolFields user time)))) := by
  cases first : db.outcome db.issued with
  | lost carriedOut =>
      constructor
      · rintro _ ⟨held, _⟩
        cases held
      · intro _ result after ran
        exact absurd ran (lost_returns first)
  | error =>
      constructor
      · rintro _ ⟨held, _⟩
        cases held
      · intro _ result after ran _
        rw [storeUnder_refused first] at ran
        cases ran
        exact Harmless.of_lookups (fun _ _ => rfl)
  | normal =>
      simp only [storeUnder_recorded first record]
      cases second : db.outcome (db.issued + 1) with
      | lost carriedOut =>
          constructor
          · rintro _ ⟨_, ⟨held, _⟩ | ⟨held, _⟩⟩
            · cases held
            · cases held
          · intro _ result after ran
            exact absurd ran (@lost_returns (recorded db user userId time) _ _ second _ _ _ _)
      | error =>
          have isHarmless := harmless_hmset_iff record (List.cons_ne_nil _ _)
            (enrolFields_distinct user time)
          rw [bind_of_ok (@ask_refused (recorded db user userId time) second _)]
          constructor
          · rintro harmless ⟨_, ⟨held, _⟩ | ⟨_, existing, differs⟩⟩
            · cases held
            · exact differs (isHarmless.mp (harmless _ _ rfl (by decide)) existing)
          · intro unharmed result after ran _
            cases ran
            apply isHarmless.mpr
            intro existing
            by_contra differs
            exact unharmed ⟨trivial, Or.inr ⟨rfl, existing, differs⟩⟩
      | normal =>
          rcases enter_recorded second index newName userId time with
            ⟨after, entered, harmful⟩
          rw [entered]
          constructor
          · rintro harmless ⟨_, ⟨_, isError⟩ | ⟨held, _⟩⟩
            · exact harmful (harmless userId after rfl isError)
            · cases held
          · intro unharmed result other ran isError
            cases ran
            exact absurd ⟨trivial, Or.inl ⟨rfl, isError⟩⟩ unharmed

/-- The database after one more command that changed at most the counter. -/
structure Counted (before after : Db) : Prop where
  outcome : after.outcome = before.outcome
  issued : after.issued = before.issued + 1
  clock : after.clock = before.clock
  ticks : after.ticks = before.ticks
  rest : forall key, key ≠ nextUserIdKey -> after.store.lookup key = before.store.lookup key

/-- An answer to the generator, even an error, is an id. -/
theorem getNextUserid_draws (counter : (Redis.counterAt db.store nextUserIdKey).isSome = true)
    (answered : forall carriedOut, db.outcome db.issued ≠ .lost carriedOut) :
    Exists fun counted =>
      getNextUserid db = (.ok (drawnId (db.outcome db.issued) db.store), counted) ∧
        Counted db counted := by
  rcases Option.isSome_iff_exists.mp counter with ⟨last, holds⟩
  unfold getNextUserid nextId drawnId
  cases answer : db.outcome db.issued with
  | lost carriedOut => exact absurd answer (answered carriedOut)
  | error =>
      rw [bind_of_ok (ask_refused answer _)]
      exact ⟨_, rfl, rfl, rfl, rfl, rfl, fun _ _ => rfl⟩
  | normal =>
      refine ⟨db.issue (.incr nextUserIdKey), ?_, rfl, rfl, rfl, rfl, fun key other => ?_⟩
      · rw [bind_of_ok (ask_answered answer _), holds]
        simp only [Redis.exec, holds]
        by_cases isLast : last = 2 ^ 63 - 1
        · rw [if_pos isLast, if_pos isLast]
          rfl
        · rw [if_neg isLast, if_neg isLast]
          rfl
      · exact Redis.exec_frame db.store other

theorem storeUser_iff (kinds : Redis.WellKinded kindOf db.store)
    (newName : Redis.fieldAt db.store usersKey user.usernameString = none) :
    (forall result after, storeUser user db = (.ok result, after) -> result ≤ 0 ->
        Harmless db.store after.store) <->
      Not ((forall carriedOut, db.outcome db.issued ≠ .lost carriedOut) ∧
        db.outcome (db.issued + 1) = .normal ∧
        (db.outcome (db.issued + 2) = .normal ∧ drawnId (db.outcome db.issued) db.store ≤ 0 ∨
          db.outcome (db.issued + 2) = .error ∧
            Existing db.store (drawnId (db.outcome db.issued) db.store) ∧
            Not (HoldsRecord db.store (drawnId (db.outcome db.issued) db.store)
              (enrolFields user (db.clock db.ticks))))) := by
  by_cases answered : forall carriedOut, db.outcome db.issued ≠ .lost carriedOut
  · rcases getNextUserid_draws (kinds nextUserIdKey) answered with ⟨counted, drawing, passed⟩
    have rest := passed.rest
    have sameIndex := rest usersKey usersKey_ne_nextUserIdKey
    have sameRecord := fun userId => rest (userKey userId) (userKey_ne_nextUserIdKey userId)
    have index := usersKey_holdsHash kinds
    rw [← Redis.hashAt_congr sameIndex] at index
    rw [← Redis.fieldAt_congr sameIndex] at newName
    generalize drawnId (db.outcome db.issued) db.store = userId at drawing ⊢
    have record := userKey_holdsHash kinds userId
    rw [← Redis.hashAt_congr (sameRecord userId)] at record
    have stored := @storeUnder_iff counted.tick user index newName userId record (db.clock db.ticks)
    have sameFields : HoldsRecord counted.store userId (enrolFields user (db.clock db.ticks)) <->
        HoldsRecord db.store userId (enrolFields user (db.clock db.ticks)) := by
      unfold HoldsRecord
      simp only [Redis.fieldAt_congr (sameRecord userId)]
    have going : storeUser user db = storeUnder user userId (db.clock db.ticks) counted.tick := by
      rw [storeUser_eq, bind_of_ok drawing, currentTimeMillis_bind, passed.clock, passed.ticks]
    change (forall result after, storeUnder user userId _ counted.tick = (.ok result, after) ->
      result ≤ 0 -> Harmless counted.store after.store) <->
        Not (counted.outcome counted.issued = .normal ∧
          (counted.outcome (counted.issued + 1) = .normal ∧ userId ≤ 0 ∨
            counted.outcome (counted.issued + 1) = .error ∧ Existing counted.store userId ∧
              Not (HoldsRecord counted.store userId _))) at stored
    simp only [harmless_congr rest, existing_congr sameIndex, sameFields, passed.outcome,
      passed.issued] at stored
    rw [going, stored]
    exact not_congr ⟨fun held => ⟨answered, held⟩, And.right⟩
  · constructor
    · exact fun _ held => answered held.1
    · intro _ result after ran
      simp only [not_forall, not_not] at answered
      rcases answered with ⟨carriedOut, lost⟩
      rw [storeUser_eq] at ran
      unfold getNextUserid nextId at ran
      rcases ok_of_bind ran with ⟨userId, middle, drawing, _⟩
      exact absurd drawing (lost_returns lost)

theorem not_leaves_of_unasked (unasked : db.outcome db.issued ≠ .normal) : Not (Leaves db user) :=
  fun leaves => unasked leaves.1.asked

/-- A registration does harm exactly when it leaves a record behind that is
not entered, or is entered under an id that looks like an error. -/
theorem registersNobody_iff (kinds : Redis.WellKinded kindOf db.store) (user : User) :
    RegistersNobody db user <-> Not (Leaves db user) := by
  rcases Option.isSome_iff_exists.mp (usersKey_holdsHash kinds) with ⟨names, holds⟩
  cases first : db.outcome db.issued with
  | lost carriedOut =>
      refine iff_of_true (fun result after ran _ => ?_) (not_leaves_of_unasked (by simp [first]))
      rcases ok_of_bind ran with ⟨present, middle, asking, _⟩
      exact absurd asking (lost_returns first)
  | error =>
      refine iff_of_true (fun result after ran _ => ?_) (not_leaves_of_unasked (by simp [first]))
      have asking : isUserExists user.usernameString db =
          (.ok errorNormal, { db with issued := db.issued + 1 }) := by
        unfold isUserExists
        rw [bind_of_ok (ask_refused first _)]
        rfl
      unfold registerUser at ran
      rw [bind_of_ok asking, if_pos rfl] at ran
      cases ran
      exact Harmless.of_lookups (fun _ _ => rfl)
  | normal =>
      have asking := isUserExists_index first holds user.usernameString
      have unchanged := (Reads.hexists usersKey user.usernameString).issue_store db
      have found : Redis.fieldAt db.store usersKey user.usernameString =
          names.lookup user.usernameString := by
        unfold Redis.fieldAt
        rw [holds, Option.bind_some]
      cases entry : names.lookup user.usernameString with
      | some text =>
          rw [entry] at asking found
          refine iff_of_true (fun result after ran _ => ?_) (fun leaves => ?_)
          · unfold registerUser at ran
            rw [bind_of_ok asking, Option.isSome_some, if_pos rfl, if_neg (by decide),
              if_pos (by decide)] at ran
            cases ran
            rw [unchanged]
            exact Harmless.of_lookups (fun _ _ => rfl)
          · have absent := leaves.1.newName
            rw [found] at absent
            cases absent
      | none =>
          rw [entry] at asking found
          have going : registerUser user db =
              storeUser user (db.issue (.hexists usersKey user.usernameString)) := by
            unfold registerUser
            rw [bind_of_ok asking, Option.isSome_none, if_neg (by decide), if_neg (by decide)]
          have stores := @storeUser_iff (db.issue (.hexists usersKey user.usernameString)) user
            (by rw [unchanged]; exact kinds) (by rw [unchanged]; exact found)
          rw [unchanged] at stores
          unfold RegistersNobody
          rw [going, stores]
          apply not_congr
          constructor
          · rintro ⟨answered, recorded, harm⟩
            exact ⟨⟨first, found, answered, recorded⟩, harm⟩
          · rintro ⟨⟨_, _, answered, recorded⟩, harm⟩
            exact ⟨answered, recorded, harm⟩

end Commands

/-- In every database that the operations lead to, and whatever the commands
are answered, a failed registration registers nobody unless it leaves a
record behind. -/
theorem registersNobody_iff_not_leaves (outcome : Nat -> Redis.Outcome) (clock : Nat -> Int)
    (operations : List Operation) :
    Run.Always Operation.step (fun db => forall user, RegistersNobody db user <-> Not (Leaves db user))
      { Db.empty clock with outcome := outcome } operations :=
  (Operation.kinds_always outcome clock operations).mono
    (fun _ held user => registersNobody_iff held.2 user)

/-- A user of the name "alice". -/
def alice : User :=
  { User.newUser with
    username := CharArray.strncpy maxChars (ascii "alice")
    pass := CharArray.strncpy maxChars (ascii "secret") }

/-- The second command is answered with an error. -/
def uncounted : Nat -> Redis.Outcome :=
  fun index => if index = 1 then .error else .normal

/-- If the counter fails at the first registration, the name is entered and
the call reports a failure. -/
theorem uncounted_not_registersNobody :
    Not (Run.Always Operation.step (fun db => forall user, RegistersNobody db user)
      { Db.empty (fun _ => 1) with outcome := uncounted } []) := by
  have reached :
      (registerUser alice { Db.empty (fun _ => 1) with outcome := uncounted }).1.toOption =
          some errorNormal ∧
        (Redis.fieldAt (registerUser alice
          { Db.empty (fun _ => 1) with outcome := uncounted }).2.store usersKey
          (ascii "alice")).isSome = true := by
    decide +kernel
  intro always
  cases ran : registerUser alice { Db.empty (fun _ => 1) with outcome := uncounted } with
  | mk returned after =>
      rw [ran] at reached
      cases returned with
      | error fault => cases reached.1
      | ok result =>
          have isError : result = errorNormal := Option.some.inj reached.1
          have harmless := always.start alice result after ran (by rw [isError]; decide)
          have entered := reached.2
          rw [Redis.fieldAt_congr harmless.index] at entered
          cases entered

end FailedRegistration
end ChatHub
