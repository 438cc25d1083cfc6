import ChatHub.Base.Run
import ChatHub.Client.Callbacks

namespace ChatHub

/-!
# Who the client believes to be

The name of a user is stored when a login is requested, the id when a reply
is positive, and a refused reply wipes the name.  Nothing ties a reply to its
request, so what the client knows is right only as long as the replies fit
the name that is stored when they arrive.

A session consists of the client, the requests that were not answered yet,
and the name in the request whose reply set the id.  Replies come in the
order of the requests.  It ends when the heap stops the process because a
second login frees the buffer of `getpass` again; it goes on when the heap does
not notice.
-/

namespace Identity

open Client

/-- A client and its unanswered logins. -/
structure Session where
  client : Client
  /-- the login requests without a reply, oldest first -/
  waiting : List Message
  /-- the name in the request whose accepted reply set the user id -/
  accepted : Option Bytes

/-- The client has just been started. -/
def start : Session where
  client := Client.start
  waiting := []
  accepted := none

/-- The user types something, or a reply to the oldest request arrives. -/
inductive Event where
  | input (typed : Typed)
  | reply (result : Int) (message : Message)

/-- The message says that `login_user` returned this result. -/
def IsReply (result : Int) (message : Message) : Prop :=
  message.type = MessageType.login.code ∧ message.msgString = intText result ∧
    -2 ^ 63 ≤ result ∧ result < 2 ^ 63

instance (result : Int) (message : Message) : Decidable (IsReply result message) :=
  inferInstanceAs (Decidable (_ ∧ _ ∧ _ ∧ _))

/-- A login request waits for its reply; a chat message does not. -/
def enqueue (waiting : List Message) : Option Message -> List Message
  | some message => if message.type = MessageType.login.code then waiting ++ [message] else waiting
  | none => waiting

/-- One call of `stdin_cb` or `read_cb`. -/
def step (session : Session) : Event -> Option Session
  | .input typed =>
      match session.client.onInput typed with
      | .error _ => none
      | .ok (client, sent) =>
          some { session with client := client, waiting := enqueue session.waiting sent }
  | .reply result message =>
      match session.waiting with
      | [] => none
      | request :: rest =>
          if IsReply result message then
            some {
              client := session.client.act message
              waiting := rest
              accepted := if 0 < result then some request.senderNameString else session.accepted }
          else none

/-- A logged-in client stores the name that the server accepted, and puts it
into every message it sends. -/
def Identified (session : Session) : Prop :=
  session.client.isLogin = true ->
    Exists fun name => session.accepted = some name ∧ session.client.user.usernameString = name ∧
      forall typed client message, session.client.stdinCb typed = .ok (client, some message) ->
        message.senderNameString = name

/-- A positive reply answers a request for the stored name, and a refused one
finds nobody logged in, or nothing stored that it could wipe. -/
def Fits (session : Session) : Event -> Prop
  | .input _ => True
  | .reply result _ => forall request, session.waiting.head? = some request ->
      if 0 < result then session.client.user.usernameString = request.senderNameString
      else session.client.isLogin = true -> session.client.user.usernameString = []

/-- A login is requested only when no other request waits. -/
def OneAtATime (session : Session) : Event -> Prop
  | .input typed => forall client sent, session.client.stdinCb typed = .ok (client, sent) ->
      enqueue session.waiting sent = session.waiting ∨ session.waiting = []
  | .reply _ _ => True

/-! ## The callbacks -/

theorem readLine_length {size : Nat} {typed line : Bytes} (read : readLine size typed = .ok line) :
    line.length < size := by
  unfold readLine at read
  simp only at read
  split at read
  · next short =>
      cases read
      exact short
  · cases read

/-- What `stdin_cb` sends, and what it does to the client. -/
inductive Typing (client : Client) : Client -> Option Message -> Prop where
  | chat {message : Message} (loggedIn : client.isLogin = true)
      (type : message.type = MessageType.text.code)
      (sender : message.senderName = CharArray.strncpy maxChars client.user.usernameString) :
      Typing client client (some message)
  | login {next : Client} {message : Message} (loggedOut : client.isLogin = false)
      (stays : next.isLogin = false) (type : message.type = MessageType.login.code)
      (stored : next.user.username.Terminated) (sender : message.senderName = next.user.username)
      (runs : client.passwordFreed = false -> next.aborted = false) :
      Typing client next (some message)
  | other {next : Client} (loggedOut : client.isLogin = false) (stays : next.isLogin = false)
      (same : next.user = client.user) (runs : next.aborted = client.aborted) :
      Typing client next none

theorem chat_typing {client next : Client} {typed : Typed} {buf : Bytes} {sent : Option Message}
    (loggedIn : client.isLogin = true) (ran : client.chat typed buf = .ok (next, sent)) :
    Typing client next sent := by
  unfold Client.chat at ran
  cases scanned : scanChat typed.chatroomId buf with
  | error fault =>
      rw [scanned] at ran
      cases ran
  | ok found =>
      rw [scanned] at ran
      change (chatMsg client.user.usernameString found.2 found.1 typed.sendTime >>= fun message =>
        pure (client, some message)) = .ok (next, sent) at ran
      unfold chatMsg at ran
      split at ran
      · cases ran
      · cases ran
        exact Typing.chat loggedIn rfl rfl

theorem login_typing {client next : Client} {typed : Typed} {sent : Option Message}
    (loggedOut : client.isLogin = false) (ran : client.login typed = .ok (next, sent)) :
    Typing client next sent := by
  unfold Client.login at ran
  cases read : readLine maxChars typed.username with
  | error fault =>
      rw [read] at ran
      cases ran
  | ok name =>
      have short := readLine_length read
      have cut : (cutName name (cstr typed.password)).length < maxChars :=
        Nat.lt_of_le_of_lt (List.length_take_le' _ _) short
      rw [read] at ran
      change (if maxChars ≤ (cstr typed.password).length then .error .overread
        else userMsg (cutName name (cstr typed.password)) (cstr typed.password) .login typed.textTime
          typed.sendTime >>= fun message => pure (_, some message)) = Except.ok (next, sent) at ran
      split at ran
      · cases ran
      · unfold userMsg at ran
        simp only at ran
        split at ran
        · cases ran
        · cases ran
          refine Typing.login loggedOut loggedOut rfl (CharArray.strncpy_terminated cut) rfl
            (fun kept => ?_)
          rw [kept, Bool.false_and]

theorem stdinCb_typing {client next : Client} {typed : Typed} {sent : Option Message}
    (ran : client.stdinCb typed = .ok (next, sent)) : Typing client next sent := by
  unfold stdinCb at ran
  cases read : readLine maxBuff typed.line with
  | error fault =>
      rw [read] at ran
      cases ran
  | ok buf =>
      rw [read] at ran
      change (if client.isLogin then client.chat typed buf
        else if atoi buf = 1 then client.login typed
        else .ok ((client.print (ascii "Input error\n")).printHelp, none)) = .ok (next, sent) at ran
      cases loggedIn : client.isLogin with
      | true =>
          rw [loggedIn, if_pos rfl] at ran
          exact chat_typing loggedIn ran
      | false =>
          rw [loggedIn, if_neg Bool.false_ne_true] at ran
          split at ran
          · exact login_typing loggedIn ran
          · cases ran
            exact Typing.other loggedIn loggedIn rfl rfl

theorem onInput_typing {client next : Client} {typed : Typed} {sent : Option Message}
    (ran : client.onInput typed = .ok (next, sent)) : Typing client next sent :=
  stdinCb_typing ((onInput_eq_ok_iff client typed _).mp ran).1

/-- A positive reply sets the id and the flag. -/
theorem act_accepted {result : Int} {message : Message} (isReply : IsReply result message)
    (positive : 0 < result) (client : Client) :
    (client.act message).isLogin = true ∧
      (client.act message).user = { client.user with userId := result } := by
  rcases isReply with ⟨type, text, low, high⟩
  have number : atoll message.msgString = result := by rw [text, atoll_intText low high]
  unfold Client.act
  rw [if_pos type, number, if_pos positive]
  exact ⟨rfl, rfl⟩

/-- A refused reply wipes the name and the password, and nothing else. -/
theorem act_refused {result : Int} {message : Message} (isReply : IsReply result message)
    (refused : Not (0 < result)) (client : Client) :
    (client.act message).isLogin = client.isLogin ∧
      (client.act message).user = { client.user with
        username := CharArray.empty maxChars, pass := CharArray.empty maxChars } := by
  rcases isReply with ⟨type, text, low, high⟩
  have number : atoll message.msgString = result := by rw [text, atoll_intText low high]
  unfold Client.act
  rw [if_pos type, number, if_neg refused]
  exact ⟨rfl, rfl⟩

/-! ## What is known in every state -/

/-- The stored name is terminated, and it is the accepted one after a login. -/
structure Known (session : Session) : Prop where
  stored : session.client.user.username.Terminated
  same : session.client.isLogin = true ->
    session.accepted = some session.client.user.usernameString

theorem known_start : Known start where
  stored := by decide
  same := fun loggedIn => nomatch loggedIn

/-- The name that is stored is also the one that is sent. -/
theorem usernameString_of_terminated {user : User} (stored : user.username.Terminated)
    {message : Message} (sender : message.senderName = user.username) :
    message.senderNameString = user.usernameString := by
  unfold Message.senderNameString User.usernameString
  rw [sender, CharArray.readThen_of_terminated stored, CharArray.readThen_of_terminated stored]

theorem Known.identified {session : Session} (known : Known session) : Identified session := by
  intro loggedIn
  refine ⟨_, known.same loggedIn, rfl, fun typed client message ran => ?_⟩
  cases stdinCb_typing ran with
  | chat _ _ sender =>
      have text : session.client.user.usernameString = session.client.user.username.text :=
        CharArray.readThen_of_terminated known.stored _
      rw [text, CharArray.strncpy_text] at sender
      exact usernameString_of_terminated known.stored sender
  | login loggedOut =>
      rw [loggedOut] at loggedIn
      cases loggedIn

/-- The user's typing changes the name only while nobody is logged in. -/
theorem Known.input {session next : Session} {typed : Typed} (known : Known session)
    (taken : step session (.input typed) = some next) : Known next := by
  simp only [step] at taken
  split at taken
  · cases taken
  · next client sent ran =>
      cases taken
      cases onInput_typing ran with
      | chat => exact ⟨known.stored, known.same⟩
      | login _ stays _ stored =>
          refine ⟨stored, fun loggedIn => ?_⟩
          rw [stays] at loggedIn
          cases loggedIn
      | other _ stays same =>
          refine ⟨?_, fun loggedIn => ?_⟩
          · change client.user.username.Terminated
            rw [same]
            exact known.stored
          · rw [stays] at loggedIn
            cases loggedIn

/-- The session after a reply to the oldest request. -/
theorem step_reply {session next : Session} {result : Int} {message : Message}
    (taken : step session (.reply result message) = some next) :
    Exists fun request => Exists fun rest => session.waiting = request :: rest ∧
      IsReply result message ∧
      next = {
        client := session.client.act message
        waiting := rest
        accepted := if 0 < result then some request.senderNameString else session.accepted } := by
  simp only [step] at taken
  split at taken
  · cases taken
  · next request rest waiting =>
      simp only [Option.ite_none_right_eq_some, Option.some.injEq] at taken
      exact ⟨request, rest, waiting, taken.1, taken.2.symm⟩

theorem Known.reply {session next : Session} {result : Int} {message : Message}
    (known : Known session) (fits : Fits session (.reply result message))
    (taken : step session (.reply result message) = some next) : Known next := by
  rcases step_reply taken with ⟨request, rest, waiting, isReply, same⟩
  have fitsRequest := fits request (by rw [waiting]; rfl)
  subst same
  by_cases positive : 0 < result
  · rcases act_accepted isReply positive session.client with ⟨_, user⟩
    rw [if_pos positive] at fitsRequest
    refine ⟨?_, fun _ => ?_⟩
    · rw [user]
      exact known.stored
    · rw [if_pos positive, user, ← fitsRequest]
      rfl
  · rcases act_refused isReply positive session.client with ⟨login, user⟩
    rw [if_neg positive] at fitsRequest
    refine ⟨?_, fun loggedIn => ?_⟩
    · rw [user]
      exact (by decide : (CharArray.empty maxChars).Terminated)
    · rw [login] at loggedIn
      rw [if_neg positive, user, known.same loggedIn, fitsRequest loggedIn]
      rfl

/-- After a reply that does not fit, the client goes by another name than the
accepted one. -/
theorem Known.breaks {session next : Session} {event : Event} (known : Known session)
    (unfit : Not (Fits session event)) (taken : step session event = some next) :
    Not (Identified next) := by
  intro identified
  cases event with
  | input typed => exact unfit trivial
  | reply result message =>
      rcases step_reply taken with ⟨request, rest, waiting, isReply, same⟩
      apply unfit
      intro other isHead
      rw [waiting] at isHead
      cases isHead
      subst same
      by_cases positive : 0 < result
      · rcases act_accepted isReply positive session.client with ⟨loggedIn, user⟩
        rcases identified loggedIn with ⟨name, accepted, stored, _⟩
        rw [if_pos positive] at accepted ⊢
        cases accepted
        rw [user] at stored
        exact stored
      · rcases act_refused isReply positive session.client with ⟨login, user⟩
        rw [if_neg positive]
        intro loggedIn
        rcases identified (login.trans loggedIn) with ⟨name, accepted, stored, _⟩
        rw [if_neg positive, known.same loggedIn, Option.some.injEq] at accepted
        rw [user] at stored
        rw [accepted, ← stored]
        rfl

/-! ## One request at a time -/

/-- At most one request waits, and then its name is the one stored. -/
structure Single (session : Session) : Prop where
  known : Known session
  pending : session.waiting = [] ∨ Exists fun request => session.waiting = [request] ∧
    session.client.isLogin = false ∧
    session.client.user.usernameString = request.senderNameString

theorem single_start : Single start where
  known := known_start
  pending := Or.inl rfl

/-- With a single request every reply fits. -/
theorem Single.fits {session : Session} (single : Single session) (event : Event) :
    Fits session event := by
  cases event with
  | input typed => trivial
  | reply result message =>
      intro request isHead
      rcases single.pending with none | ⟨only, waiting, loggedOut, stored⟩
      · rw [none] at isHead
        cases isHead
      · rw [waiting] at isHead
        cases isHead
        split
        · exact stored
        · intro loggedIn
          rw [loggedOut] at loggedIn
          cases loggedIn

theorem Single.step {session next : Session} {event : Event} (single : Single session)
    (oneAtATime : OneAtATime session event) (taken : step session event = some next) :
    Single next := by
  cases event with
  | input typed =>
      refine ⟨single.known.input taken, ?_⟩
      simp only [Identity.step] at taken
      split at taken
      · cases taken
      · next client sent ran =>
          cases taken
          have alone := oneAtATime client sent ((onInput_eq_ok_iff _ _ _).mp ran).1
          cases onInput_typing ran with
          | chat _ type _ =>
              have notLogin : enqueue session.waiting (some _) = session.waiting :=
                if_neg (by rw [type]; decide)
              rw [notLogin]
              exact single.pending
          | @login _ message _ stays type stored sender =>
              have added : enqueue session.waiting (some message) = session.waiting ++ [message] :=
                if_pos type
              rw [added] at alone ⊢
              have nothing : session.waiting = [] := by
                rcases alone with same | nothing
                · have lengths := congrArg List.length same
                  rw [List.length_append, List.length_singleton] at lengths
                  omega
                · exact nothing
              rw [nothing]
              exact Or.inr ⟨message, rfl, stays, (usernameString_of_terminated stored sender).symm⟩
          | other loggedOut stays same =>
              rcases single.pending with nothing | ⟨request, waiting, _, stored⟩
              · exact Or.inl nothing
              · refine Or.inr ⟨request, waiting, stays, ?_⟩
                rw [← stored]
                exact congrArg User.usernameString same
  | reply result message =>
      refine ⟨single.known.reply (single.fits _) taken, Or.inl ?_⟩
      rcases step_reply taken with ⟨request, rest, waiting, _, same⟩
      rw [same]
      rcases single.pending with nothing | ⟨only, one, _⟩
      · rw [nothing] at waiting
        cases waiting
      · rw [one] at waiting
        exact (List.cons.inj waiting).2.symm

/-- The client is who the server accepted, in every state of a run, if and
only if every reply of the run fits the stored name.  It does if no login is
requested while another one waits. -/
theorem identified_iff_replies_fit (events : List Event) :
    (Run.Always step Identified start events <-> Run.Guarded step Fits start events) ∧
      (Run.Guarded step OneAtATime start events -> Run.Guarded step Fits start events) := by
  constructor
  · refine Run.always_iff_guarded Known (fun _ => True) known_start
      (fun _ known _ => known.identified) ?_ ?_
      (Run.invariant trivial (fun _ _ _ _ _ => trivial) events)
    · intro session event next known _ _ fits taken
      cases event with
      | input typed => exact known.input taken
      | reply result message => exact known.reply fits taken
    · intro session event next known _ _ unfit taken
      exact known.breaks unfit taken
  · intro guarded
    exact guarded.mono single_start
      (fun _ _ _ single oneAtATime taken => single.step oneAtATime taken)
      (fun _ event single _ => single.fits event)

/-- What a user types to log in, where the heap notices nothing. -/
def typedLogin (username password : String) : Typed where
  line := ascii "1\n"
  username := ascii username ++ ascii "\n"
  password := ascii password
  noticed := false
  chatroomId := 0
  textTime := 1500000000000
  sendTime := 1500000000000

/-- The server's reply, with the request's other fields left out. -/
def replyMessage (result : Int) : Message :=
  { Message.newMessgae with
    type := MessageType.login.code, msg := CharArray.strncpy maxMsgData (intText result) }

/-- The reply to `alice` arrives after `bob` was typed.  The second password is
so long that it overwrites the mark by which a heap knows a freed block. -/
def twoInFlight : List Event :=
  [.input (typedLogin "alice" "secret"), .input (typedLogin "bob" "guessing12"),
    .reply 1 (replyMessage 1)]

theorem twoInFlight_not_identified : Not (Run.Always step Identified start twoInFlight) := by
  have reached : (Run.after step start twoInFlight).map
      (fun session => (session.client.isLogin, session.accepted, session.client.user.usernameString)) =
      some (true, some (ascii "alice"), ascii "bob") := by
    decide +kernel
  intro always
  rcases Option.map_eq_some_iff.mp reached with ⟨session, leads, shape⟩
  have loggedIn : session.client.isLogin = true := congrArg Prod.fst shape
  have accepted : session.accepted = some (ascii "alice") := congrArg (fun triple => triple.2.1) shape
  have stored : session.client.user.usernameString = ascii "bob" :=
    congrArg (fun triple => triple.2.2) shape
  rcases always.finish leads loggedIn with ⟨name, isAccepted, isStored, _⟩
  rw [accepted] at isAccepted
  cases isAccepted
  exact absurd (isStored.symm.trans stored) (by decide)

end Identity
end ChatHub
