import Mathlib.Data.List.Nodup
import Mathlib.Logic.Function.Basic

namespace ChatHub

/-!
# The service of a chat

What a chat server is for, without bytes, descriptors or a database.  Users
have accounts with a name, a secret and a number.  A user who is logged in has
a seat, which is a connection.  A request is answered on its own connection.
What is said in a room is sent to the seats of its members, but never to the
connection that it comes from.

Names, secrets, connections and the items that are sent may be anything that
can be compared.
-/

namespace Service

/-- A user. -/
structure Account (Name Secret : Type) where
  name : Name
  secret : Secret
  number : Int

/-- Why an item is sent to a connection: it is the answer to a request, or a
copy of what was said. -/
inductive Answer where
  | registered (number : Int)
  | nameTaken
  | welcome (number : Int)
  | wrongSecret
  | unknownName
  | loggedOut (number : Int)
  | copy
  deriving DecidableEq

end Service

/-- The accounts, the seats, the rooms and what was sent so far. -/
structure Service (Name Secret Conn Item : Type) where
  accounts : List (Service.Account Name Secret)
  seat : Int -> Option Conn
  rooms : Int -> List Int
  /-- how many rooms were opened so far -/
  created : Nat
  sent : List (Conn × Item × Service.Answer)

namespace Service

/-- What a user asks for. -/
inductive Request (Name Secret : Type) where
  | register (name : Name) (secret : Secret)
  | login (name : Name) (secret : Secret)
  | logout (name : Name)
  | say (room : Int)

/-- What happens: a request comes in with an item on a connection, and rooms
change. -/
inductive Event (Name Secret Conn Item : Type) where
  | request (conn : Conn) (item : Item) (request : Request Name Secret)
  | openRoom (first second : Int)
  | leaveRoom (room member : Int)
  | closeRoom (room : Int)

variable {Name Secret Conn Item : Type}

/-- Nobody has an account. -/
def start : Service Name Secret Conn Item where
  accounts := []
  seat := fun _ => none
  rooms := fun _ => []
  created := 0
  sent := []

/-- The item is sent to the connection. -/
def answer (service : Service Name Secret Conn Item) (conn : Conn) (item : Item) (answer : Answer) :
    Service Name Secret Conn Item :=
  { service with sent := service.sent ++ [(conn, item, answer)] }

/-- The seat of a user changes. -/
def place (service : Service Name Secret Conn Item) (number : Int) (conn : Option Conn) :
    Service Name Secret Conn Item :=
  { service with seat := Function.update service.seat number conn }

/-- A new account gets the next number. -/
def enrol (service : Service Name Secret Conn Item) (name : Name) (secret : Secret) :
    Service Name Secret Conn Item :=
  { service with
    accounts := service.accounts ++ [⟨name, secret, (service.accounts.length : Int) + 1⟩] }

/-- The members of a room change. -/
def populate (service : Service Name Secret Conn Item) (room : Int) (members : List Int) :
    Service Name Secret Conn Item :=
  { service with rooms := Function.update service.rooms room members }

@[simp] theorem seat_place (service : Service Name Secret Conn Item) (number : Int)
    (conn : Option Conn) (other : Int) :
    (service.place number conn).seat other = if other = number then conn else service.seat other :=
  Function.update_apply ..

@[simp] theorem rooms_populate (service : Service Name Secret Conn Item) (room : Int)
    (members : List Int) (other : Int) :
    (service.populate room members).rooms other =
      if other = room then members else service.rooms other :=
  Function.update_apply ..

/-! ## What holds of every service -/

/-- The numbers of the accounts count from one, names are different, only
numbers that count have seats, and rooms that were not opened are empty. -/
structure Regular (service : Service Name Secret Conn Item) : Prop where
  numbers : service.accounts.map Account.number =
    (List.range service.accounts.length).map (fun index : Nat => (index : Int) + 1)
  names : (service.accounts.map Account.name).Nodup
  seats : forall number conn, service.seat number = some conn -> 0 < number
  unopened : forall room, (service.created : Int) < room -> service.rooms room = []

theorem regular_start : (start : Service Name Secret Conn Item).Regular where
  numbers := rfl
  names := List.nodup_nil
  seats := fun _ _ seated => nomatch seated
  unopened := fun _ _ => rfl

section Regular

variable {service : Service Name Secret Conn Item}

theorem Regular.answer (regular : service.Regular) (conn : Conn) (item : Item) (answer : Answer) :
    (service.answer conn item answer).Regular :=
  ⟨regular.numbers, regular.names, regular.seats, regular.unopened⟩

theorem Regular.positive (regular : service.Regular) {account : Account Name Secret}
    (member : account ∈ service.accounts) : 0 < account.number := by
  have isNumber := List.mem_map_of_mem (f := Account.number) member
  rw [regular.numbers] at isNumber
  rcases List.mem_map.mp isNumber with ⟨index, _, same⟩
  omega

theorem Regular.place (regular : service.Regular) {number : Int} (positive : 0 < number)
    (conn : Option Conn) : (service.place number conn).Regular where
  numbers := regular.numbers
  names := regular.names
  seats := by
    intro other seat seated
    rw [seat_place] at seated
    split at seated
    · next same => exact same ▸ positive
    · exact regular.seats other seat seated
  unopened := regular.unopened

theorem Regular.enrol (regular : service.Regular) {name : Name}
    (newName : name ∉ service.accounts.map Account.name) (secret : Secret) :
    (service.enrol name secret).Regular where
  numbers := by
    simp only [Service.enrol, List.map_append, List.map_cons, List.map_nil, List.length_append,
      List.length_cons, List.length_nil, Nat.zero_add, List.range_succ, regular.numbers]
  names := by
    rw [Service.enrol, List.map_append, List.nodup_append]
    refine ⟨regular.names, List.nodup_cons.mpr ⟨List.not_mem_nil, List.nodup_nil⟩,
      fun left isOld right isNew same => newName ?_⟩
    have isName : right = name := List.mem_singleton.mp isNew
    rw [← isName, ← same]
    exact isOld
  seats := regular.seats
  unopened := regular.unopened

/-- The members of a room that was opened change. -/
theorem Regular.populate (regular : service.Regular) {room : Int} {members : List Int}
    (opened : (service.created : Int) < room -> members = []) : (service.populate room members).Regular where
  numbers := regular.numbers
  names := regular.names
  seats := regular.seats
  unopened := by
    intro other isBehind
    rw [rooms_populate]
    split
    · next same => exact opened (same ▸ isBehind)
    · exact regular.unopened other isBehind

end Regular

/-! ## Requests -/

section Requests

variable [DecidableEq Name]

/-- The account with a name. -/
def find (service : Service Name Secret Conn Item) (name : Name) : Option (Account Name Secret) :=
  service.accounts.find? (fun account => decide (account.name = name))

theorem find_eq_some {service : Service Name Secret Conn Item} {name : Name}
    {account : Account Name Secret} (found : service.find name = some account) :
    account ∈ service.accounts ∧ account.name = name := by
  unfold find at found
  have matched := List.find?_some found
  exact ⟨List.mem_of_find?_eq_some found, of_decide_eq_true matched⟩

theorem find_eq_none {service : Service Name Secret Conn Item} {name : Name}
    (missing : service.find name = none) : name ∉ service.accounts.map Account.name := by
  intro member
  rcases List.mem_map.mp member with ⟨account, isAccount, same⟩
  exact List.find?_eq_none.mp missing account isAccount (decide_eq_true same)

variable [DecidableEq Secret] [DecidableEq Conn]

/-- The connections to which a member of the room listens, other than the one
where something is said. -/
def listeners (service : Service Name Secret Conn Item) (room : Int) (conn : Conn) : List Conn :=
  (service.rooms room).filterMap (fun member =>
    (service.seat member).filter (fun seat => decide (seat ≠ conn)))

/-- The response to a request.  Nobody is told about a logout of somebody
unknown. -/
def request (service : Service Name Secret Conn Item) (conn : Conn) (item : Item) :
    Request Name Secret -> Service Name Secret Conn Item
  | .register name secret =>
      match service.find name with
      | some _ => service.answer conn item .nameTaken
      | none => (service.enrol name secret).answer conn item
          (.registered ((service.accounts.length : Int) + 1))
  | .login name secret =>
      match service.find name with
      | none => service.answer conn item .unknownName
      | some account =>
          if secret = account.secret then
            (service.place account.number (some conn)).answer conn item (.welcome account.number)
          else service.answer conn item .wrongSecret
  | .logout name =>
      match service.find name with
      | none => service
      | some account =>
          (service.place account.number none).answer conn item (.loggedOut account.number)
  | .say room =>
      { service with
        sent := service.sent ++
          (service.listeners room conn).map (fun listener => (listener, item, .copy)) }

/-- The response to anything that happens.  A room that is opened gets the
next number, and a user who is named twice is in it once. -/
def respond (service : Service Name Secret Conn Item) :
    Event Name Secret Conn Item -> Service Name Secret Conn Item
  | .request conn item request => service.request conn item request
  | .openRoom first second =>
      { service.populate ((service.created : Int) + 1)
          (if first = second then [first] else [first, second]) with
        created := service.created + 1 }
  | .leaveRoom room member => service.populate room ((service.rooms room).erase member)
  | .closeRoom room => service.populate room []

section Responses

variable {service : Service Name Secret Conn Item} {name : Name} {secret : Secret}
  {account : Account Name Secret}

theorem request_register_taken (found : service.find name = some account) (conn : Conn) (item : Item)
    (secret : Secret) :
    service.request conn item (.register name secret) = service.answer conn item .nameTaken := by
  simp only [request, found]

theorem request_register_new (missing : service.find name = none) (conn : Conn) (item : Item)
    (secret : Secret) :
    service.request conn item (.register name secret) = (service.enrol name secret).answer conn item
      (.registered ((service.accounts.length : Int) + 1)) := by
  simp only [request, missing]

theorem request_login_unknown (missing : service.find name = none) (conn : Conn) (item : Item)
    (secret : Secret) :
    service.request conn item (.login name secret) = service.answer conn item .unknownName := by
  simp only [request, missing]

theorem request_login_right (found : service.find name = some account)
    (right : secret = account.secret) (conn : Conn) (item : Item) :
    service.request conn item (.login name secret) =
      (service.place account.number (some conn)).answer conn item (.welcome account.number) := by
  simp only [request, found, if_pos right]

theorem request_login_wrong (found : service.find name = some account)
    (wrong : secret ≠ account.secret) (conn : Conn) (item : Item) :
    service.request conn item (.login name secret) = service.answer conn item .wrongSecret := by
  simp only [request, found, if_neg wrong]

theorem request_logout_unknown (missing : service.find name = none) (conn : Conn) (item : Item) :
    service.request conn item (.logout name) = service := by
  simp only [request, missing]

theorem request_logout_known (found : service.find name = some account) (conn : Conn) (item : Item) :
    service.request conn item (.logout name) =
      (service.place account.number none).answer conn item (.loggedOut account.number) := by
  simp only [request, found]

/-- What was sent is never taken back. -/
theorem sent_request (service : Service Name Secret Conn Item) (conn : Conn) (item : Item)
    (request : Request Name Secret) : service.sent <+: (service.request conn item request).sent := by
  cases request with
  | register name secret =>
      cases found : service.find name with
      | none =>
          rw [request_register_new found]
          exact List.prefix_append _ _
      | some account =>
          rw [request_register_taken found]
          exact List.prefix_append _ _
  | login name secret =>
      cases found : service.find name with
      | none =>
          rw [request_login_unknown found]
          exact List.prefix_append _ _
      | some account =>
          by_cases right : secret = account.secret
          · rw [request_login_right found right]
            exact List.prefix_append _ _
          · rw [request_login_wrong found right]
            exact List.prefix_append _ _
  | logout name =>
      cases found : service.find name with
      | none =>
          have same := congrArg Service.sent (request_logout_unknown found conn item)
          exact ⟨[], (List.append_nil _).trans same.symm⟩
      | some account =>
          rw [request_logout_known found]
          exact List.prefix_append _ _
  | say room => exact List.prefix_append _ _

theorem sent_respond (service : Service Name Secret Conn Item) (event : Event Name Secret Conn Item) :
    service.sent <+: (service.respond event).sent := by
  cases event with
  | request conn item request => exact service.sent_request conn item request
  | openRoom | leaveRoom | closeRoom => exact List.prefix_rfl

theorem Regular.request (regular : service.Regular) (conn : Conn) (item : Item)
    (request : Request Name Secret) : (service.request conn item request).Regular := by
  cases request with
  | register name secret =>
      cases found : service.find name with
      | none =>
          rw [request_register_new found]
          exact (regular.enrol (find_eq_none found) secret).answer _ _ _
      | some account =>
          rw [request_register_taken found]
          exact regular.answer _ _ _
  | login name secret =>
      cases found : service.find name with
      | none =>
          rw [request_login_unknown found]
          exact regular.answer _ _ _
      | some account =>
          by_cases right : secret = account.secret
          · rw [request_login_right found right]
            exact (regular.place (regular.positive (find_eq_some found).1) _).answer _ _ _
          · rw [request_login_wrong found right]
            exact regular.answer _ _ _
  | logout name =>
      cases found : service.find name with
      | none =>
          rw [request_logout_unknown found]
          exact regular
      | some account =>
          rw [request_logout_known found]
          exact (regular.place (regular.positive (find_eq_some found).1) _).answer _ _ _
  | say room => exact ⟨regular.numbers, regular.names, regular.seats, regular.unopened⟩

theorem Regular.respond (regular : service.Regular) (event : Event Name Secret Conn Item) :
    (service.respond event).Regular := by
  cases event with
  | request conn item request => exact regular.request conn item request
  | openRoom first second =>
      have opens := regular.unopened
      refine ⟨regular.numbers, regular.names, regular.seats, fun room isBehind => ?_⟩
      change ((service.created + 1 : Nat) : Int) < room at isBehind
      have other : room ≠ (service.created : Int) + 1 := by omega
      exact (rooms_populate ..).trans ((if_neg other).trans (opens room (by omega)))
  | leaveRoom room member =>
      exact regular.populate (fun isBehind => by rw [regular.unopened room isBehind, List.erase_nil])
  | closeRoom room => exact regular.populate (fun _ => rfl)

end Responses

end Requests

end Service
end ChatHub
