import ChatHub.Network.Order

namespace ChatHub

/-!
# Where a text comes from

A text that a client shows was typed by a user of another connection, after
the server had accepted a login there, and when the server handled it, a
member of the chatroom had the reader's descriptor in the record.

The client types texts only when it is logged in, and it is logged in only
after it has read a positive reply to a login.  The server sends a positive
reply only when it has set the user online, and never forgets that it did.
-/

namespace Network

open World

/-- The server has accepted a login on the connection. -/
def Accepted (world : World) (bev : Bufferevent) : Prop :=
  Exists fun userId => 0 < userId ∧ (bev, userId) ∈ world.logins

/-- A text that was typed behind an accepted login, handled by the server, and
copied for a connection because of a member of the chatroom. -/
def Genuine (network : Network) (bev : Bufferevent) (message : Message) : Prop :=
  Exists fun handled => handled ∈ network.history ∧ handled.message = message ∧
    handled.sender ≠ bev ∧ message ∈ (network.parties handled.sender).typed ∧
    Accepted network.world handled.sender ∧
    Exists fun userId => Dao.Member handled.world.db.store message.groupId userId ∧
      Dao.positiveSockfd handled.world.db.store userId = some bev.fd

/-! ## What is due -/

theorem eq_login_of_code {type : MessageType} (same : type.code = MessageType.login.code) :
    type = .login := by
  revert same
  cases type <;> decide

section Due

variable {handled : Handled} {bev : Bufferevent} {part : List Message} {message : Message}

/-- A positive answer to a login was remembered. -/
theorem due_accepted (due : Due handled bev part) (member : message ∈ part)
    (isLogin : message.type = MessageType.login.code) (positive : 0 < atoll message.msgString) :
    (bev, atoll message.msgString) ∈ handled.next.logins := by
  cases due with
  | copies isChat =>
      rw [List.eq_of_mem_replicate member] at isLogin
      rw [isLogin] at isChat
      exact absurd isChat (by decide)
  | @reply type request isType result range remembered =>
      split at member
      · next isSender =>
          rw [List.mem_singleton.mp member] at isLogin positive ⊢
          have sameType : type = .login := eq_login_of_code isLogin
          subst sameType
          have isReply := Agreement.answer_isReply handled.message range
          have number : atoll (answering handled.message .login result).msgString =
              result :=
            (congrArg atoll isReply.2.1).trans (atoll_intText isReply.2.2.1 isReply.2.2.2)
          rw [number] at positive ⊢
          exact isSender ▸ remembered rfl positive
      · cases member
  | nothing => cases member

/-- A text that is due is a copy for a member of the chatroom. -/
theorem due_text (sane : Sane handled.world) (due : Due handled bev part) (member : message ∈ part)
    (isText : message.type = MessageType.text.code) :
    handled.message = message ∧ handled.sender ≠ bev ∧
      Exists fun userId => Dao.Member handled.world.db.store message.groupId userId ∧
        Dao.positiveSockfd handled.world.db.store userId = some bev.fd := by
  cases due with
  | copies =>
      have same := List.eq_of_mem_replicate member
      have counted : 0 < handled.copies bev :=
        Nat.pos_of_ne_zero (List.mem_replicate.mp member).1
      rcases List.mem_filterMap.mp (List.count_pos_iff.mp counted) with ⟨fd, isFd, leads⟩
      rw [receiverOf_eq_some_iff] at leads
      rcases (Dao.mem_roomFds sane.rooms).mp isFd with ⟨userId, _, isMember, named⟩
      have sameFd := sane.keyed.fd_of_hashGet leads.1
      exact ⟨same.symm, leads.2.symm, userId, same ▸ isMember, sameFd ▸ named⟩
  | @reply type request =>
      split at member
      · rw [List.mem_singleton.mp member] at isText
        change type.code = MessageType.text.code at isText
        rcases request with isType | isType | isType <;>
          exact absurd isText (by rw [isType]; decide)
      · cases member
  | nothing => cases member

end Due

/-! ## What holds in every state -/

/-- Who is logged in, or has typed a text, was accepted. -/
structure Known (network : Network) : Prop where
  remembered : forall handled, handled ∈ network.history ->
    handled.next.logins ⊆ network.world.logins
  loggedIn : forall bev, (network.parties bev).client.isLogin = true ->
    Accepted network.world bev
  texts : forall bev message, message ∈ (network.parties bev).typed ->
    message.type = MessageType.text.code -> Accepted network.world bev

theorem known_start (world : World) : Known (start world) where
  remembered := fun _ member => absurd member List.not_mem_nil
  loggedIn := fun _ isLogin => nomatch isLogin
  texts := fun _ _ member => absurd member List.not_mem_nil

/-- No login is ever forgotten. -/
theorem logins_subset {world next : World} {event : World.Event} (normal : world.db.Normal)
    (taken : World.step world event = some next) : world.logins ⊆ next.logins := by
  cases step_effect normal taken with
  | accept _ _ same => exact same ▸ List.Subset.refl _
  | close _ same => exact same ▸ List.Subset.refl _
  | login _ _ change =>
      rw [change.logins]
      exact List.subset_cons_self _ _
  | ordinary change => exact change.logins ▸ List.Subset.refl _

theorem Accepted.mono {world next : World} {bev : Bufferevent} (accepted : Accepted world bev)
    (grows : world.logins ⊆ next.logins) : Accepted next bev := by
  rcases accepted with ⟨userId, positive, member⟩
  exact ⟨userId, positive, grows member⟩

/-- The parties are as they were for what is known about them. -/
theorem Known.world {network next : Network} (known : Known network)
    (grows : network.world.logins ⊆ next.world.logins)
    (history : forall handled, handled ∈ next.history ->
      handled ∈ network.history ∨ handled.next = next.world)
    (clients : forall bev, (next.parties bev).client = (network.parties bev).client)
    (typed : forall bev, (next.parties bev).typed = (network.parties bev).typed) : Known next where
  remembered := by
    intro handled member
    rcases history handled member with old | new
    · exact List.Subset.trans (known.remembered handled old) grows
    · exact new ▸ List.Subset.refl _
  loggedIn := by
    intro bev isLogin
    rw [clients bev] at isLogin
    exact (known.loggedIn bev isLogin).mono grows
  texts := by
    intro bev message member isText
    rw [typed bev] at member
    exact (known.texts bev message member isText).mono grows

/-- One party has changed. -/
theorem Known.update {network : Network} (known : Known network) {bev : Bufferevent} {party : Party}
    (loggedIn : party.client.isLogin = true -> Accepted network.world bev)
    (texts : forall message, message ∈ party.typed -> message.type = MessageType.text.code ->
      Accepted network.world bev) :
    Known { network with parties := Function.update network.parties bev party } where
  remembered := known.remembered
  loggedIn := (Function.forall_update_iff network.parties
    (fun other party => party.client.isLogin = true -> Accepted network.world other)).mpr
      ⟨loggedIn, fun other _ => known.loggedIn other⟩
  texts := (Function.forall_update_iff network.parties (fun other party => forall message,
    message ∈ party.typed -> message.type = MessageType.text.code ->
      Accepted network.world other)).mpr ⟨texts, fun other _ => known.texts other⟩

/-- A client logs in when it acts on a positive reply. -/
theorem act_isLogin {client : Client} {message : Message}
    (isLogin : (client.act message).isLogin = true) : client.isLogin = true ∨
      message.type = MessageType.login.code ∧ 0 < atoll message.msgString := by
  unfold Client.act at isLogin
  split at isLogin
  · next isReply =>
      split at isLogin
      · next positive => exact Or.inr ⟨isReply, positive⟩
      · exact Or.inl isLogin
  split at isLogin
  · exact Or.inl isLogin
  · exact Or.inl isLogin

theorem Known.stdin {network : Network} (known : Known network) {bev : Bufferevent}
    {typed : Client.Typed} (careful : Careful network (.stdin bev typed)) :
    Known { network with
      parties := Function.update network.parties bev ((network.parties bev).stdin typed) } := by
  rcases careful with ⟨client, sent, ran, _⟩
  have typing := Identity.stdinCb_typing ran
  rcases Party.stdin_cases ran with ⟨_, stops⟩ | ⟨_, sends⟩
  · rw [stops]
    exact known.update (known.loggedIn bev) (known.texts bev)
  · rw [sends]
    refine known.update (fun isLogin => ?_) (fun message member isText => ?_)
    · change client.isLogin = true at isLogin
      cases typing with
      | chat loggedIn => exact known.loggedIn bev loggedIn
      | login _ stays => exact absurd isLogin (stays ▸ Bool.false_ne_true)
      | other _ stays => exact absurd isLogin (stays ▸ Bool.false_ne_true)
    · rcases List.mem_append.mp member with old | new
      · exact known.texts bev message old isText
      · rw [Option.mem_toList] at new
        cases typing with
        | chat loggedIn => exact known.loggedIn bev loggedIn
        | login _ _ isLogin =>
            rw [Option.mem_some_iff.mp new, isText] at isLogin
            cases isLogin
        | other => cases new

theorem Known.step {network next : Network} {event : Event} (known : Known network)
    (consistent : Consistent network) (careful : Careful network event)
    (taken : Network.step network event = some next) : Known next := by
  cases event with
  | manage event =>
      rcases step_manage taken with ⟨_, world, changed, same⟩
      subst same
      exact known.world (logins_subset consistent.sane.normal changed)
        (fun _ member => Or.inl member) (fun _ => rfl) (fun _ => rfl)
  | stdin bev typed =>
      rw [step_stdin taken]
      exact known.stdin careful
  | serve bev count buf arrays =>
      rcases step_serve taken with ⟨_, _, world, reading, same⟩
      subst same
      refine known.world (logins_subset consistent.sane.normal reading.taken)
        (fun handled member => ?_) (fun _ => rfl) (fun _ => rfl)
      rcases List.mem_append.mp member with old | new
      · exact Or.inl old
      · right
        unfold handledBy at new
        split at new
        · rw [List.mem_singleton.mp new]
          rfl
        · cases new
  | arrive bev count behind =>
      rcases step_arrive taken with ⟨available, same⟩
      rcases (consistent.inStep bev).arrive consistent.sendable available careful.1 careful.2 behind with
        ⟨message, ⟨handled, part, member, due, inPart⟩, client, typed, _, _⟩
      rw [same]
      refine known.update (fun isLogin => ?_) (fun other isTyped => ?_)
      · rw [client] at isLogin
        rcases act_isLogin isLogin with before | ⟨isReply, positive⟩
        · exact known.loggedIn bev before
        · exact ⟨_, positive, known.remembered handled member (due_accepted due inPart isReply positive)⟩
      · rw [typed] at isTyped
        exact known.texts bev other isTyped

/-- In every careful run, from any state that the server reaches before, every
text that a client has read is genuine, and who is logged in was accepted. -/
theorem reads_genuine_texts {clock : Nat -> Int} {setup : List World.Event} {world : World}
    (reached : Run.after World.step (World.start clock) setup = some world) {events : List Event}
    (careful : Run.Guarded step Careful (start world) events) :
    Run.Always step (fun network => forall bev,
      ((network.parties bev).client.isLogin = true -> Accepted network.world bev) ∧
      forall message, message ∈ (network.parties bev).read ->
        message.type = MessageType.text.code -> Genuine network bev message)
      (start world) events := by
  have always := @Run.invariant_guarded _ _ step (fun network => Consistent network ∧ Known network)
    Careful (start world) ⟨consistent_start reached, known_start world⟩
    (fun _ _ _ holds isCareful taken =>
      ⟨holds.1.step isCareful taken, holds.2.step holds.1 isCareful taken⟩) events careful
  refine always.mono (fun network holds bev => ⟨holds.2.loggedIn bev, fun message isRead isText => ?_⟩)
  rcases (holds.1.inStep bev).relays.reads with ⟨parts, dueAll, isPrefix, _⟩
  rcases due_of_mem dueAll (isPrefix.subset isRead) with ⟨handled, part, member, due, inPart⟩
  rcases due_text (holds.1.saneBefore handled member) due inPart isText with
    ⟨same, notSelf, isMember⟩
  have typed : message ∈ (network.parties handled.sender).typed := by
    apply (holds.1.inStep handled.sender).relays.handles.subset
    exact List.mem_filterMap.mpr ⟨(handled.sender, handled.message),
      List.mem_map.mpr ⟨handled, member, rfl⟩, by rw [if_pos rfl, same]⟩
  exact ⟨handled, member, same, notSelf, typed, holds.2.texts _ message typed isText, isMember⟩

theorem reads_genuine_texts_session : Exists fun world => Exists fun network =>
    Run.after World.step (World.start (fun _ => 0)) roomSetup = some world ∧
      Run.after step (start world) session = some network ∧
      Genuine network ⟨1, 6⟩ greeting := by
  rcases session_careful with ⟨world, reached, _, careful, network, leads, isRead⟩
  have genuine := (reads_genuine_texts reached careful).finish leads
  exact ⟨world, network, reached, leads, (genuine ⟨1, 6⟩).2 greeting isRead rfl⟩

end Network
end ChatHub
