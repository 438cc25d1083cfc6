import ChatHub.Server.Operations

namespace ChatHub

/-!
# Losing the connection to Redis

From the moment at which the connection is lost, `redisCommand` returns null
pointers.  Every function reads the type of a reply before anything else, so
no function survives the loss of a command it issues, whichever it is.
-/

/-- All commands from a position on are lost. -/
def Db.LostFrom (db : Db) (position : Nat) : Prop :=
  forall index, position ≤ index ->
    Exists fun carriedOut => db.outcome index = .lost carriedOut

namespace Dao

open ChatHub.Action

variable {Value : Type} {allowed : Redis.Command -> Prop}

/-- An action neither changes how the connection answers nor forgets a
command that was issued. -/
theorem Composed.frame {action : Action Db Value} (composed : Composed allowed action) (db : Db) :
    (action db).2.outcome = db.outcome ∧ db.issued ≤ (action db).2.issued := by
  induction composed generalizing db with
  | pure value => exact ⟨rfl, Nat.le_refl _⟩
  | fail fault => exact ⟨rfl, Nat.le_refl _⟩
  | @ask command isAllowed =>
      rcases ask_issued command db with ⟨outcome, issued⟩
      exact ⟨outcome, issued ▸ Nat.le_succ _⟩
  | time => exact ⟨rfl, Nat.le_refl _⟩
  | @bind First Value kind first second _ yields _ inductionFirst inductionSecond =>
      have frameFirst := inductionFirst db
      rw [bind_apply]
      cases ran : first db with
      | mk result middle =>
          rw [ran] at frameFirst
          cases result with
          | error fault => exact frameFirst
          | ok value =>
              have frameSecond := inductionSecond value (yields db value middle ran) middle
              exact ⟨frameSecond.1.trans frameFirst.1, Nat.le_trans frameFirst.2 frameSecond.2⟩

/-- An action that issues a lost command uses the missing reply. -/
theorem Composed.faults_of_lost {action : Action Db Value} (composed : Composed allowed action)
    {db : Db} {position : Nat} (lost : db.LostFrom position) (start : db.issued ≤ position)
    (issued : position < (action db).2.issued) : (action db).1 = .error .nullPointer := by
  induction composed generalizing db with
  | pure value => exact absurd issued (Nat.not_lt.mpr start)
  | fail fault => exact absurd issued (Nat.not_lt.mpr start)
  | time => exact absurd issued (Nat.not_lt.mpr start)
  | @ask command isAllowed =>
      rw [(ask_issued command db).2] at issued
      rcases lost position (Nat.le_refl _) with ⟨carriedOut, isLost⟩
      rw [Nat.le_antisymm (Nat.le_of_lt_succ issued) start] at isLost
      exact ask_lost isLost command
  | @bind First Value kind first second composedFirst yields _ inductionFirst inductionSecond =>
      have frameFirst := composedFirst.frame db
      have faultsFirst := @inductionFirst db lost start
      rw [bind_apply] at issued ⊢
      cases ran : first db with
      | mk result middle =>
          rw [ran] at frameFirst faultsFirst issued
          cases result with
          | error fault =>
              have isNull : (Except.error fault : Except Fault First) = .error .nullPointer :=
                faultsFirst issued
              cases isNull
              rfl
          | ok value =>
              by_cases early : position < middle.issued
              · have faulted : (Except.ok value : Except Fault First) = .error .nullPointer :=
                  faultsFirst early
                cases faulted
              · have lostAfter : middle.LostFrom position := by
                  intro index behind
                  rw [frameFirst.1]
                  exact lost index behind
                exact inductionSecond value (yields db value middle ran) lostAfter
                  (Nat.le_of_not_lt early) issued

end Dao

namespace Operation

/-- The function issues the command at this position. -/
def Reaches (operation : Operation) (db : Db) (position : Nat) : Prop :=
  db.issued ≤ position ∧ position < (operation.run db).2.issued

/-- The function returns its error result. -/
def Survives (operation : Operation) (db : Db) : Prop :=
  Exists fun answer => (operation.run db).1 = .ok answer ∧ answer.IsError

/-- A function whose command is lost faults instead of returning its error
result. -/
theorem never_survives_loss (operation : Operation) {db : Db} {position : Nat}
    (lost : db.LostFrom position) (reaches : operation.Reaches db position) :
    (operation.run db).1 = .error .nullPointer ∧ Not (operation.Survives db) := by
  have faults := operation.run_composed.faults_of_lost lost reaches.1 reaches.2
  refine ⟨faults, ?_⟩
  rintro ⟨answer, returns, _⟩
  rw [faults] at returns
  cases returns

/-- A user with a name. -/
def newcomer (username : String) : User :=
  { User.newUser with
    username := CharArray.strncpy maxChars (ascii username)
    pass := CharArray.strncpy maxChars (ascii "secret") }

/-- A database with one user, which took four commands.  The connection is lost
during the eighth, which is still carried out. -/
def interrupted : Db :=
  { (ChatHub.registerUser (newcomer "alice") (Db.empty (fun _ => 1))).2 with
    outcome := fun index => if index < 7 then .normal else .lost (index == 7) }

theorem interrupted_lost : interrupted.LostFrom 7 := by
  intro index behind
  exact ⟨index == 7, if_neg (Nat.not_lt.mpr behind)⟩

/-- The second registration loses its last command, `HSET`. -/
theorem never_survives_loss_registerUser :
    ((registerUser (newcomer "bob")).run interrupted).1 = .error .nullPointer ∧
      Not ((registerUser (newcomer "bob")).Survives interrupted) :=
  never_survives_loss (registerUser (newcomer "bob")) interrupted_lost
    ⟨by decide +kernel, by decide +kernel⟩

/-- A database whose connection is gone. -/
def unreachable : Db :=
  { Db.empty (fun _ => 0) with outcome := fun _ => .lost false }

theorem unreachable_lost : unreachable.LostFrom 0 :=
  fun _ _ => ⟨false, rfl⟩

/-- The first command is lost, and `is_user_exists` returns nothing. -/
theorem isUserExists_not_survives : unreachable.LostFrom 0 ∧
    (isUserExists (ascii "bob")).Reaches unreachable 0 ∧
    Not ((isUserExists (ascii "bob")).Survives unreachable) := by
  refine ⟨unreachable_lost, ⟨Nat.le_refl 0, by decide⟩, ?_⟩
  rintro ⟨answer, returns, _⟩
  cases returns

end Operation
end ChatHub
