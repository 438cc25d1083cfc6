import ChatHub.Server.Effects

namespace ChatHub

/-!
# Presence and open connections

A user record that says online names a descriptor.  `handleLogin` writes it,
`handleLogout` removes it, and `eventcb`, which ends a connection, does not
look at the database at all.  So presence follows the connections exactly as
long as no connection is closed while a record names its descriptor.
-/

namespace World

/-- Every user who is online is so on the descriptor of an open connection. -/
def Present (world : World) : Prop :=
  forall userId fd, Dao.Online world.db.store userId fd ->
    Exists fun bev => bev ∈ world.conns.opened ∧ bev.fd = fd

/-- A connection is closed only when no user is online on its descriptor. -/
def ClosesOffline (world : World) : Event -> Prop
  | .close bev => forall userId, Not (Dao.Online world.db.store userId bev.fd)
  | _ => True

theorem present_start (clock : Nat -> Int) : Present (start clock) := by
  intro userId fd online
  cases online.1

theorem Present.ordinary {world next : World} (present : Present world) (sane : Sane world)
    (change : OrdinaryChange world next) : Present next := by
  intro userId fd online
  rw [change.conns]
  rcases change.presence_cases sane.records userId with same | offline
  · exact present userId fd (same.symm.hasPresence online)
  · exact absurd online (offline.not_online fd)

theorem Present.login {world next : World} (present : Present world) (sane : Sane world)
    {this : Bufferevent} {userId : Int} (isOpen : this ∈ world.conns.opened)
    (change : LoginChange world next this userId) : Present next := by
  intro other fd online
  rw [change.conns]
  rcases change.presence_cases sane.records other with same | ⟨_, set⟩
  · exact present other fd (same.symm.hasPresence online)
  · exact ⟨this, isOpen, (set.online.mp online).symm⟩

theorem Present.accept {world next : World} (present : Present world) {fd : Int}
    (taken : world.conns.step (.accept fd) = some next.conns)
    (same : next = { world with conns := next.conns }) : Present next := by
  rcases Clients.step_accept taken with ⟨_, clients', _, conns⟩
  intro userId other online
  rw [same] at online
  rcases present userId other online with ⟨bev, isOpen, sameFd⟩
  refine ⟨bev, ?_, sameFd⟩
  rw [conns]
  exact List.mem_cons_of_mem _ isOpen

theorem Present.close {world next : World} (present : Present world) {bev : Bufferevent}
    (offline : ClosesOffline world (.close bev))
    (taken : world.conns.step (.close bev) = some next.conns)
    (same : next = { world with conns := next.conns }) : Present next := by
  rcases Clients.step_close taken with ⟨_, value, clients', _, conns⟩
  intro userId fd online
  rw [same] at online
  rcases present userId fd online with ⟨other, isOpen, sameFd⟩
  have different : other ≠ bev := by
    intro equal
    rw [← sameFd, equal] at online
    exact offline userId online
  refine ⟨other, ?_, sameFd⟩
  rw [conns]
  exact (List.mem_erase_of_ne different).mpr isOpen

/-- A close under a user who is online leaves that user on a descriptor that
no open connection has. -/
theorem close_not_present {world next : World} (sane : Sane world) {bev : Bufferevent} {userId : Int}
    (online : Dao.Online world.db.store userId bev.fd)
    (taken : world.conns.step (.close bev) = some next.conns)
    (same : next = { world with conns := next.conns }) : Not (Present next) := by
  rcases Clients.step_close taken with ⟨wasOpen, value, clients', _, conns⟩
  intro present
  have onlineAfter : Dao.Online next.db.store userId bev.fd := by
    rw [same]
    exact online
  rcases present userId bev.fd onlineAfter with ⟨other, isOpen, sameFd⟩
  rw [conns] at isOpen
  have equal := sane.distinct.sameFd other bev (List.mem_of_mem_erase isOpen) wasOpen sameFd
  rw [equal] at isOpen
  exact sane.distinct.nodup.not_mem_erase isOpen

theorem Present.step {world next : World} {event : Event} (present : Present world)
    (sane : Sane world) (offline : ClosesOffline world event)
    (taken : World.step world event = some next) : Present next := by
  cases step_effect sane.normal taken with
  | ordinary change => exact present.ordinary sane change
  | login isOpen _ change => exact present.login sane isOpen change
  | accept range accepted same => exact present.accept accepted same
  | close closed same => exact present.close offline closed same

/-- Along every run, presence follows the connections exactly when no
connection is closed while a user is online on its descriptor. -/
theorem present_iff_closes_offline (clock : Nat -> Int) (events : List Event) :
    Run.Always step Present (start clock) events <->
      Run.Guarded step ClosesOffline (start clock) events := by
  refine Run.always_iff_guarded (fun world => Sane world ∧ Present world) (fun _ => True)
    ⟨sane_start clock, present_start clock⟩ ?_ ?_ ?_
    (Run.invariant trivial (fun _ _ _ _ _ => trivial) events)
  · exact fun world holds _ => holds.2
  · exact fun world event next holds _ _ offline taken =>
      ⟨holds.1.step taken, holds.2.step holds.1 offline taken⟩
  · intro world event next holds _ _ online taken
    cases event with
    | close bev =>
        unfold ClosesOffline at online
        push Not at online
        rcases online with ⟨userId, online⟩
        simp only [World.step, Option.map_eq_some_iff] at taken
        rcases taken with ⟨conns, closed, same⟩
        subst same
        exact close_not_present holds.1 online closed rfl
    | accept fd => exact absurd trivial online
    | read bev buf input => exact absurd trivial online
    | createChatroom userId1 userId2 => exact absurd trivial online
    | leaveChatrooom chatroomId username => exact absurd trivial online
    | delChatrooom chatroomId => exact absurd trivial online

/-- A user registers, logs in and is disconnected. -/
def disconnectedUser : List Event :=
  [.accept 5, arrival ⟨0, 5⟩ (request .register 0 "bob secret"),
    arrival ⟨0, 5⟩ (request .login 0 "bob secret"), .close ⟨0, 5⟩]

/-- The record still says online on descriptor 5, and nothing is open. -/
theorem disconnectedUser_not_present :
    Not (Run.Always step Present (start (fun _ => 0)) disconnectedUser) := by
  have reached : (Run.after step (start (fun _ => 0)) disconnectedUser).map (fun world =>
      (Redis.fieldAt world.db.store (userKey 1) (ascii "isOnline"),
        Redis.fieldAt world.db.store (userKey 1) (ascii "sockfd"), world.conns.opened)) =
      some (some (intText 1), some (intText 5), []) := by
    decide +kernel
  rcases Option.map_eq_some_iff.mp reached with ⟨world, leads, facts⟩
  rw [Prod.mk.injEq, Prod.mk.injEq] at facts
  intro always
  rcases always.finish leads 1 5 ⟨facts.1, facts.2.1⟩ with ⟨bev, isOpen, _⟩
  rw [facts.2.2] at isOpen
  exact List.not_mem_nil isOpen

end World
end ChatHub
