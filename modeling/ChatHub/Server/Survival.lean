import ChatHub.Lib.CredentialSafety
import ChatHub.Server.Answering
import ChatHub.Server.Written

namespace ChatHub

/-!
# What the server survives

Bytes from the network can bring the server down in many ways: a text that
is no message, a type behind the table, a long word in a request, a logout of
somebody unknown, a member of the chatroom who never logged in, and a
descriptor that the client table does not lead from.  In every state that the
server reaches, it gets through an invocation of `readcb` exactly if none of
these is the case.  The text is that of the array with the memory behind it.
-/

namespace Survival

open ChatHub.Action World

/-- The message is for a chatroom. -/
def IsChat (message : Message) : Prop :=
  message.type = MessageType.text.code ∨ message.type = MessageType.image.code

/-- The server gets to the end of this message. -/
structure Survivable (world : World) (sender : Bufferevent) (message : Message) : Prop where
  inTable : message.type.toNat < messageTypes.length
  shortWords : forall type, type ∈ [MessageType.register, MessageType.login, MessageType.logout] ->
    message.type = type.code -> forall word,
      word ∈ (CredentialSafety.words message.msgString).take 2 -> word.length < maxChars
  known : message.type = MessageType.logout.code -> (Redis.fieldAt world.db.store usersKey
    ((CredentialSafety.words message.msgString).headD [])).isSome = true
  members : IsChat message -> forall userId, 0 < userId ->
    Dao.Member world.db.store message.groupId userId ->
    (Dao.sockfdOf world.db.store userId).isSome = true
  deliverable : IsChat message -> forall fd, fd ∈ Dao.roomFds world.db.store message.groupId ->
    Deliverable world.conns sender fd

/-- The array holds a message, maybe with the memory behind it, and this is
empty or the server gets to its end. -/
def Survives (world : World) (bev : Bufferevent) (buf input : Bytes) : Prop :=
  Exists fun message => Message.unpackMessage (cstr (Framing.drain buf input)) = .ok message ∧
    (message.msgString ≠ [] -> Survivable world bev message)

/-! ## The words of a request -/

section Words

variable {message : Message}

/-- A request is scanned if its first two words fit. -/
theorem msg2user_returns_iff : (Exists fun user => msg2user message = .ok user) <->
    forall word, word ∈ (CredentialSafety.words message.msgString).take 2 ->
      word.length < maxChars := by
  unfold msg2user
  cases first : scanToken message.msgString with
  | none =>
      rw [(CredentialSafety.words_of_scanToken_none first).2]
      exact iff_of_true ⟨_, rfl⟩ (fun word member => absurd member List.not_mem_nil)
  | some found =>
      rcases found with ⟨username, behindName⟩
      rw [CredentialSafety.words_of_scanToken first]
      by_cases nameFits : username.length < maxChars
      · simp only [if_neg (Nat.not_le.mpr nameFits)]
        cases second : scanToken behindName with
        | none =>
            rw [(CredentialSafety.words_of_scanToken_none second).2]
            refine iff_of_true ⟨_, rfl⟩ (fun word member => ?_)
            rw [List.mem_singleton.mp member]
            exact nameFits
        | some found =>
            rcases found with ⟨pass, behindPass⟩
            rw [CredentialSafety.words_of_scanToken second]
            by_cases passFits : pass.length < maxChars
            · simp only [if_neg (Nat.not_le.mpr passFits)]
              refine iff_of_true ⟨_, rfl⟩ (fun word member => ?_)
              simp only [List.take_succ_cons, List.take_zero, List.mem_cons, List.not_mem_nil,
                or_false] at member
              rcases member with isName | isPass
              · exact isName ▸ nameFits
              · exact isPass ▸ passFits
            · simp only [if_pos (Nat.not_lt.mp passFits)]
              refine iff_of_false (fun never => ?_) (fun all => passFits (all pass (by simp)))
              rcases never with ⟨user, impossible⟩
              cases impossible
      · simp only [if_pos (Nat.not_lt.mp nameFits)]
        refine iff_of_false (fun never => ?_) (fun all => nameFits (all username (by simp)))
        rcases never with ⟨user, impossible⟩
        cases impossible

/-- The name of the user is the first word. -/
theorem msg2user_name {user : User} (parsed : msg2user message = .ok user) :
    user.usernameString = (CredentialSafety.words message.msgString).headD [] := by
  have fits := msg2user_returns_iff.mp ⟨user, parsed⟩
  cases first : scanToken message.msgString with
  | none =>
      rw [(CredentialSafety.words_of_scanToken_none first).2]
      simp only [msg2user, first] at parsed
      cases parsed
      rfl
  | some found =>
      rcases found with ⟨username, behindName⟩
      rw [CredentialSafety.words_of_scanToken first] at fits ⊢
      have nameFits : username.length < maxChars := fits username (by simp)
      have noNul : 0 ∉ username := fun nul =>
        CharArray.readThen_noNul _ List.not_mem_nil ((scanToken_token first).2.2.1 nul)
      have isName : user.username = CharArray.strncpy maxChars username := by
        simp only [msg2user, first, if_neg (Nat.not_le.mpr nameFits)] at parsed
        split at parsed
        · cases parsed
          rfl
        · split at parsed
          · cases parsed
          · cases parsed
            rfl
      unfold User.usernameString
      rw [isName, CharArray.readThen_strncpy noNul nameFits]
      rfl

end Words

/-! ## The handlers -/

section Handlers

variable {world : World} {sender : Bufferevent} {message : Message}

/-- The action returns in this world. -/
def Returns {Value : Type} (action : Action World Value) (world : World) : Prop :=
  (perform action world).isSome = true

theorem returns_of_ok {action : Action World Unit} {next : World}
    (ran : action world = (.ok (), next)) : Returns action world := by
  unfold Returns perform
  rw [ran]
  rfl

theorem not_returns_of_error {action : Action World Unit} {fault : Fault}
    (failed : (action world).1 = .error fault) : Not (Returns action world) := by
  unfold Returns perform
  cases ran : action world with
  | mk result after =>
      rw [ran] at failed
      change result = .error fault at failed
      rw [failed]
      exact Bool.false_ne_true

/-- Whatever begins with scanning the request returns only if it is scanned. -/
theorem parsed_of_returns {second : User -> Action World Unit}
    (returns : Returns (ofExcept (msg2user message) >>= second) world) :
    Exists fun user => msg2user message = .ok user := by
  rcases Option.isSome_iff_exists.mp returns with ⟨next, ran⟩
  rcases perform_bind ran with ⟨user, _, parsed, _⟩
  exact ⟨user, congrArg Prod.fst parsed⟩

theorem handleRegister_returns_iff (kept : Answering.Kept world)
    (isOpen : sender ∈ world.conns.opened) : Returns (handleRegister sender message) world <->
      Exists fun user => msg2user message = .ok user := by
  refine ⟨parsed_of_returns, ?_⟩
  rintro ⟨user, parsed⟩
  rcases Answering.handleRegister_answers kept isOpen parsed with ⟨next, _, ran, _⟩
  exact returns_of_ok ran

theorem handleLogin_returns_iff (kept : Answering.Kept world)
    (isOpen : sender ∈ world.conns.opened) : Returns (handleLogin sender message) world <->
      Exists fun user => msg2user message = .ok user := by
  refine ⟨parsed_of_returns, ?_⟩
  rintro ⟨user, parsed⟩
  rcases Answering.handleLogin_answers kept isOpen parsed with ⟨next, _, ran, _⟩
  exact returns_of_ok ran

theorem handleLogout_returns_iff (kept : Answering.Kept world)
    (isOpen : sender ∈ world.conns.opened) : Returns (handleLogout sender message) world <->
      Exists fun user => msg2user message = .ok user ∧
        (Redis.fieldAt world.db.store usersKey user.usernameString).isSome = true := by
  constructor
  · intro returns
    rcases parsed_of_returns returns with ⟨user, parsed⟩
    refine ⟨user, parsed, ?_⟩
    by_contra unknown
    exact not_returns_of_error (Answering.handleLogout_faults kept parsed unknown) returns
  · rintro ⟨user, parsed, known⟩
    rcases Answering.handleLogout_answers kept isOpen parsed known with ⟨next, _, ran, _⟩
    exact returns_of_ok ran

/-- A chat message is handled to the end if every member can be looked up and
every descriptor be delivered to. -/
theorem handleChat_returns_iff (sane : Sane world) : Returns (handleChat sender message) world <->
    (forall userId, 0 < userId -> Dao.Member world.db.store message.groupId userId ->
      (Dao.sockfdOf world.db.store userId).isSome = true) ∧
    forall fd, fd ∈ Dao.roomFds world.db.store message.groupId ->
      Deliverable world.conns sender fd := by
  have lookedUp : (forall userId, 0 < userId -> Dao.Member world.db.store message.groupId userId ->
        (Dao.sockfdOf world.db.store userId).isSome = true) <->
      forall userId, userId ∈ Dao.roomMembers world.db.store message.groupId ->
        (Dao.sockfdOf world.db.store userId).isSome = true := by
    simp only [Dao.mem_roomMembers sane.rooms, and_imp]
  rw [lookedUp]
  constructor
  · intro returns
    rcases Option.isSome_iff_exists.mp returns with ⟨next, ran⟩
    have known := known_of_handled sane ran
    rcases perform_returns ran with ⟨_, returned⟩
    exact ⟨known, (handleChat_returns sane sender known).1.mp (congrArg Prod.fst returned)⟩
  · rintro ⟨known, deliverable⟩
    have returned := (handleChat_returns sane sender known).1.mpr deliverable
    exact @returns_of_ok world _ (handleChat sender message world).2 (Prod.ext returned rfl)

/-! ## Every message -/

theorem survivable_of_parsed (inTable : message.type.toNat < messageTypes.length)
    (noChat : Not (IsChat message)) (parsed : Exists fun user => msg2user message = .ok user)
    (known : message.type = MessageType.logout.code -> (Redis.fieldAt world.db.store usersKey
      ((CredentialSafety.words message.msgString).headD [])).isSome = true) :
    Survivable world sender message where
  inTable := inTable
  shortWords := fun _ _ _ => msg2user_returns_iff.mp parsed
  known := known
  members := fun isChat => absurd isChat noChat
  deliverable := fun isChat => absurd isChat noChat

theorem handleAllMessage_returns_iff (kept : Answering.Kept world) (sane : Sane world)
    (isOpen : sender ∈ world.conns.opened) :
    Returns (handleAllMessage sender message) world <-> Survivable world sender message := by
  by_cases inTable : message.type.toNat < messageTypes.length
  swap
  · refine iff_of_false ?_ (fun survivable => inTable survivable.inTable)
    unfold handleAllMessage
    rw [if_pos (Nat.not_lt.mp inTable)]
    exact Bool.false_ne_true
  by_cases isRegister : message.type = MessageType.register.code
  · rw [handleAllMessage_register sender isRegister, handleRegister_returns_iff kept isOpen]
    refine ⟨fun parsed => survivable_of_parsed inTable ?_ parsed ?_, fun survivable =>
      msg2user_returns_iff.mpr (survivable.shortWords .register (by decide) isRegister)⟩
    · unfold IsChat
      rw [isRegister]
      decide
    · rw [isRegister]
      exact fun never => absurd never (by decide)
  by_cases isLogin : message.type = MessageType.login.code
  · rw [handleAllMessage_login sender isLogin, handleLogin_returns_iff kept isOpen]
    refine ⟨fun parsed => survivable_of_parsed inTable ?_ parsed ?_, fun survivable =>
      msg2user_returns_iff.mpr (survivable.shortWords .login (by decide) isLogin)⟩
    · unfold IsChat
      rw [isLogin]
      decide
    · rw [isLogin]
      exact fun never => absurd never (by decide)
  by_cases isLogout : message.type = MessageType.logout.code
  · rw [handleAllMessage_logout sender isLogout, handleLogout_returns_iff kept isOpen]
    constructor
    · rintro ⟨user, parsed, known⟩
      rw [msg2user_name parsed] at known
      refine survivable_of_parsed inTable ?_ ⟨user, parsed⟩ (fun _ => known)
      unfold IsChat
      rw [isLogout]
      decide
    · intro survivable
      rcases msg2user_returns_iff.mpr (survivable.shortWords .logout (by decide) isLogout) with
        ⟨user, parsed⟩
      refine ⟨user, parsed, ?_⟩
      rw [msg2user_name parsed]
      exact survivable.known isLogout
  -- no request: a chat message, or a type without a handler
  have noRequest : forall type, type ∈ [MessageType.register, MessageType.login, MessageType.logout] ->
      Not (message.type = type.code) := by
    intro type member
    simp only [List.mem_cons, List.not_mem_nil, or_false] at member
    rcases member with same | same | same <;> rw [same] <;> assumption
  unfold handleAllMessage
  rw [if_neg (Nat.not_le.mpr inTable), if_neg isLogin, if_neg isLogout, if_neg isRegister]
  by_cases isChat : message.type = MessageType.text.code ∨ message.type = MessageType.image.code
  · rw [if_pos isChat, handleChat_returns_iff sane]
    exact ⟨fun both => ⟨inTable, fun type member isType => absurd isType (noRequest type member),
      fun isType => absurd isType isLogout, fun _ => both.1, fun _ => both.2⟩,
      fun survivable => ⟨survivable.members isChat, survivable.deliverable isChat⟩⟩
  · rw [if_neg isChat]
    exact iff_of_true rfl ⟨inTable, fun type member isType => absurd isType (noRequest type member),
      fun isType => absurd isType isLogout, fun never => absurd never isChat,
      fun never => absurd never isChat⟩

/-- What `readcb` finds in the array. -/
theorem received_returns_iff {buf input : Bytes} :
    (Exists fun found => Framing.received buf input = .ok found) <->
      Exists fun message => Message.unpackMessage (cstr (Framing.drain buf input)) = .ok message := by
  unfold Framing.received Framing.decode
  cases decoded : Message.unpackMessage (cstr (Framing.drain buf input)) with
  | error fault => simp
  | ok message => simp

theorem received_of_unpacked {buf input : Bytes} {message : Message}
    (decoded : Message.unpackMessage (cstr (Framing.drain buf input)) = .ok message) :
    Framing.received buf input = .ok (if message.msgString = [] then none else some message) := by
  unfold Framing.received Framing.decode
  rw [decoded]

/-- `readcb` returns if it decodes a message that is empty or is handled to
the end. -/
theorem readcb_returns_iff (kept : Answering.Kept world) (sane : Sane world)
    (isOpen : sender ∈ world.conns.opened) (buf input : Bytes) :
    Returns (readcb sender buf input) world <-> Survives world sender buf input := by
  constructor
  · intro returns
    rcases Option.isSome_iff_exists.mp returns with ⟨next, ran⟩
    rcases perform_bind ran with ⟨found, _, parsed, _⟩
    rcases received_returns_iff.mp ⟨found, congrArg Prod.fst parsed⟩ with ⟨message, decoded⟩
    refine ⟨message, decoded, fun nonempty => ?_⟩
    have received := received_of_unpacked decoded
    rw [if_neg nonempty] at received
    have handled := perform_readcb sane isOpen received
    rw [ran] at handled
    exact (handleAllMessage_returns_iff kept sane isOpen).mp (Option.isSome_of_eq_some handled.symm)
  · rintro ⟨message, decoded, survivable⟩
    have received := received_of_unpacked decoded
    by_cases empty : message.msgString = []
    · rw [if_pos empty] at received
      have ran : readcb sender buf input world = (pure () : Action World Unit) world :=
        bind_ofExcept received world
      exact returns_of_ok ran
    · rw [if_neg empty] at received
      unfold Returns
      rw [perform_readcb sane isOpen received]
      exact (handleAllMessage_returns_iff kept sane isOpen).mpr (survivable empty)

end Handlers

/-- In every state of every run, the server gets through an invocation of
`readcb` on an open connection exactly if it survives the bytes. -/
theorem steps_iff_survives (clock : Nat -> Int) (events : List World.Event) :
    Run.Always World.step (fun world => forall bev buf input, bev ∈ world.conns.opened ->
      maxBuff ≤ buf.length ->
      ((World.step world (.read bev buf input)).isSome = true <-> Survives world bev buf input))
      (World.start clock) events := by
  have always := @Run.invariant _ _ World.step (fun world => Answering.Kept world ∧ Sane world)
    (World.start clock) ⟨Answering.kept_start clock, sane_start clock⟩
    (fun _ _ _ holds taken => ⟨holds.1.step taken, holds.2.step taken⟩) events
  refine always.mono (fun world holds bev buf input isOpen array => ?_)
  rw [← readcb_returns_iff holds.1 holds.2 isOpen buf input]
  simp only [World.step, if_pos (And.intro isOpen array)]
  rfl

end Survival
end ChatHub
