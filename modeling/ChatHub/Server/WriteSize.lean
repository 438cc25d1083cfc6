import ChatHub.Lib.WireNumbers
import ChatHub.Server.HandlerFrame

namespace ChatHub

/-!
# How much the server sends

`pack_message` can report the size of the text that it allocates, and the
client passes that size on.  The server does not ask for it: every write
passes `MAX_BUFF` bytes.  A shorter text is followed by whatever lies behind
it in memory, and a longer one is cut off, so the two agree for one length of
the text only.
-/

namespace WriteSize

open ChatHub.Action World

/-- The write passes the text with its terminating NUL and nothing else. -/
def SendsExactly (write : Write) : Prop :=
  write.size = write.json.length + 1

/-- The handlers that write. -/
inductive Handler where
  | register
  | login
  | logout
  | chat
  deriving DecidableEq

/-- The handler is called with a message of the connection. -/
def Handler.run : Handler -> Bufferevent -> Message -> Action World Unit
  | .register => handleRegister
  | .login => handleLogin
  | .logout => handleLogout
  | .chat => handleChat

/-- The messages that a handler packs: an answer, or the message itself with
another send time. -/
inductive Packs (message : Message) : Handler -> Message -> Prop where
  | register (result : Int) : Packs message .register (answering message .register result)
  | login (result : Int) : Packs message .login (answering message .login result)
  | logout (result : Int) : Packs message .logout (answering message .logout result)
  | chat (time : Int) : Packs message .chat { message with sendTime := time }

/-- The strings are terminated UTF-8 texts, and the numbers are of 64 bits. -/
structure Printable (message : Message) : Prop extends WireNumbers.SixtyFourBit message where
  msgTerminated : message.msg.Terminated
  senderTerminated : message.senderName.Terminated
  msgUtf8 : Parson.Utf8 message.msg.text
  senderUtf8 : Parson.Utf8 message.senderName.text

/-- The number of characters that a number is printed with. -/
def numberWidth (z : Int) : Nat :=
  (Binary64.formatG17 (Binary64.round z)).length

/-- The number of characters that a string is written with, without quotes. -/
def escapedWidth (text : Bytes) : Nat :=
  (text.flatMap Parson.escape).length

/-- The number of characters that the fields are written with. -/
def width (message : Message) : Nat :=
  numberWidth message.msgId + numberWidth message.groupId + numberWidth message.sendTime +
    numberWidth message.type.toNat + escapedWidth message.senderNameString +
    escapedWidth message.msgString

/-! ## The length of the text -/

section Text

variable {message : Message}

theorem Printable.senderNameString_eq (printable : Printable message) :
    message.senderNameString = message.senderName.text :=
  CharArray.readThen_of_terminated printable.senderTerminated _

theorem packMessage_length (printable : Printable message) :
    message.packMessage.length = 103 + width message := by
  have msgValid : Parson.isValidUtf8 message.msgString = true := by
    rw [message.msgString_eq]
    exact Parson.isValidUtf8_of_utf8 printable.msgUtf8
  have senderValid : Parson.isValidUtf8 message.senderNameString = true := by
    rw [printable.senderNameString_eq]
    exact Parson.isValidUtf8_of_utf8 printable.senderUtf8
  unfold Message.packMessage Parson.jsonSerializeToStringPretty
  rw [Message.packObject_of_valid msgValid senderValid]
  simp only [Parson.jsonSerializeToBufferR, Parson.serializeMembers, Parson.jsonSerializeString,
    List.length_append, List.isEmpty_cons, List.isEmpty_nil, if_true, Bool.false_eq_true, if_false]
  have names : (List.flatMap Parson.escape (ascii "msgId")).length = 5 ∧
      (List.flatMap Parson.escape (ascii "groupId")).length = 7 ∧
      (List.flatMap Parson.escape (ascii "senderName")).length = 10 ∧
      (List.flatMap Parson.escape (ascii "sendTime")).length = 8 ∧
      (List.flatMap Parson.escape (ascii "type")).length = 4 ∧
      (List.flatMap Parson.escape (ascii "msg")).length = 3 := by
    decide
  have marks : (ascii "\"").length = 1 ∧ (ascii ":").length = 1 ∧ (ascii " ").length = 1 ∧
      (ascii ",").length = 1 ∧ (ascii "\x7b").length = 1 ∧ (ascii "\x7d").length = 1 ∧
      (Parson.lineBreak true).length = 1 ∧ (Parson.lineIndent true 1).length = 4 ∧
      (Parson.lineIndent true 0).length = 0 := by
    decide
  simp only [names, marks, zero_add]
  unfold width numberWidth escapedWidth
  simp only [Int.cast_natCast, List.length_nil]
  omega

end Text

/-! ## What the handlers write -/

section Rules

variable {kind : Write -> Prop} {Value Result : Type}

/-- Whatever the action returns, it appends writes of this kind. -/
def Appends (kind : Write -> Prop) (action : Action World Value) : Prop :=
  forall world, Exists fun sent => (action world).2.written = world.written ++ sent ∧
    forall write, write ∈ sent -> kind write

theorem appends_of_frame {action : Action World Value}
    (frame : forall world, (action world).2.written = world.written) : Appends kind action := by
  intro world
  refine ⟨[], ?_, fun write member => absurd member List.not_mem_nil⟩
  rw [frame, List.append_nil]

theorem appends_write {bev : Bufferevent} {json : Bytes} {size : Nat} (isKind : kind ⟨bev, json, size⟩) :
    Appends kind (buffereventWrite bev json size) := by
  intro world
  unfold buffereventWrite
  split
  · exact ⟨[⟨bev, json, size⟩], rfl, List.forall_mem_singleton.mpr isKind⟩
  · exact ⟨[], (List.append_nil _).symm, fun write member => absurd member List.not_mem_nil⟩

theorem appends_bind {middle : Value -> Prop} {first : Action World Value}
    {second : Value -> Action World Result} (appendsFirst : Appends kind first)
    (yields : Yields middle first) (appendsSecond : forall value, middle value ->
      Appends kind (second value)) : Appends kind (first >>= second) := by
  intro world
  rcases appendsFirst world with ⟨sent, written, kinds⟩
  rw [bind_apply]
  cases ran : first world with
  | mk result after =>
      rw [ran] at written
      cases result with
      | error fault => exact ⟨sent, written, kinds⟩
      | ok value =>
          rcases appendsSecond value (yields world value after ran) after with
            ⟨more, writtenMore, kindsMore⟩
          refine ⟨sent ++ more, ?_, fun write member => ?_⟩
          · change (second value after).2.written = _
            rw [writtenMore, written, List.append_assoc]
          · rcases List.mem_append.mp member with old | new
            · exact kinds write old
            · exact kindsMore write new

theorem appends_any {first : Action World Value} {second : Value -> Action World Result}
    (appendsFirst : Appends kind first) (appendsSecond : forall value, Appends kind (second value)) :
    Appends kind (first >>= second) :=
  appends_bind appendsFirst (yields_any first) (fun value _ => appendsSecond value)

theorem appends_ite {condition : Prop} [Decidable condition] {left right : Action World Value}
    (appendsLeft : Appends kind left) (appendsRight : Appends kind right) :
    Appends kind (if condition then left else right) := by
  split
  · exact appendsLeft
  · exact appendsRight

end Rules

/-- The write passes a message that the handler packed. -/
def Packed (message : Message) (handler : Handler) (write : Write) : Prop :=
  Exists fun packed => Packs message handler packed ∧ write = .ofMessage write.bev packed

theorem stampMessage_yields (message : Message) :
    Yields (fun left => Exists fun time => left = { message with sendTime := time })
      (stampMessage message) := by
  refine yields_ite ?_ (yields_pure ⟨message.sendTime, rfl⟩)
  exact yields_bind (yields_any _) (fun time _ => yields_pure ⟨time, rfl⟩)

/-- Saving a message changes at most its send time. -/
theorem saveMessage_stamps (chatroomId : Int) (message : Message) :
    Yields (fun saved : Int × Message => Exists fun time => saved.2 = { message with sendTime := time })
      (saveMessage chatroomId message) := by
  refine yields_bind (yields_any _) (fun msgId _ => ?_)
  refine yields_ite (yields_pure ⟨message.sendTime, rfl⟩) ?_
  refine yields_bind (stampMessage_yields message) (fun left stamped => ?_)
  refine yields_bind (yields_any _) (fun reply _ => ?_)
  exact yields_ite (yields_pure stamped) (yields_pure stamped)

theorem sendCopies_appends (sender : Bufferevent) (fds : List Int) (message : Message) (time : Int) :
    Appends (Packed message .chat) (sendCopies sender fds { message with sendTime := time }) := by
  induction fds generalizing time with
  | nil => exact appends_of_frame (fun _ => rfl)
  | cons fd rest inductionHypothesis =>
      refine appends_any (appends_of_frame (fun _ => rfl)) (fun receiver => ?_)
      apply appends_ite (inductionHypothesis time)
      refine appends_any ?_ (fun _ => ?_)
      · cases receiver with
        | none => exact appends_of_frame (fun _ => rfl)
        | some bev => exact appends_write ⟨_, Packs.chat time, rfl⟩
      · refine appends_bind (appends_of_frame (fun _ => rfl))
          (dao_yields (saveMessage_stamps _ _)) (fun saved stamped => ?_)
        rcases stamped with ⟨other, same⟩
        rw [same]
        exact inductionHypothesis other

/-- A handler writes what it packs and nothing else. -/
theorem run_appends (handler : Handler) (this : Bufferevent) (message : Message) :
    Appends (Packed message handler) (handler.run this message) := by
  cases handler with
  | register =>
      refine appends_any (appends_of_frame (fun _ => rfl)) (fun user => ?_)
      refine appends_any (appends_of_frame (fun _ => rfl)) (fun userId => ?_)
      exact appends_write ⟨_, Packs.register userId, rfl⟩
  | login =>
      refine appends_any (appends_of_frame (fun _ => rfl)) (fun user => ?_)
      refine appends_any (appends_of_frame (fun _ => rfl)) (fun userId => ?_)
      have answers : Appends (Packed message .login)
          (buffereventWrite this (reply message .login userId) maxBuff) :=
        appends_write ⟨_, Packs.login userId, rfl⟩
      refine appends_ite (appends_any (appends_of_frame (fun _ => rfl)) (fun _ => ?_)) answers
      exact appends_any (appends_of_frame (fun _ => rfl)) (fun _ => answers)
  | logout =>
      refine appends_any (appends_of_frame (fun _ => rfl)) (fun user => ?_)
      refine appends_any (appends_of_frame (fun _ => rfl)) (fun userId => ?_)
      exact appends_write ⟨_, Packs.logout userId, rfl⟩
  | chat =>
      refine appends_any (appends_of_frame (fun _ => rfl)) (fun found => ?_)
      cases found.1 with
      | none => exact appends_ite (appends_of_frame (fun _ => rfl)) (appends_of_frame (fun _ => rfl))
      | some fds => exact sendCopies_appends this (fds.take found.2) message message.sendTime

/-! ## The bound on an answer -/

theorem escape_length_le : forall c : UInt8, (Parson.escape c).length ≤ 6 := by
  apply forall_byte
  decide +kernel

theorem escapedWidth_le (text : Bytes) : escapedWidth text ≤ 6 * text.length := by
  induction text with
  | nil => exact Nat.le_refl 0
  | cons c rest inductionHypothesis =>
      have first := escape_length_le c
      unfold escapedWidth at inductionHypothesis ⊢
      rw [List.flatMap_cons, List.length_append, List.length_cons]
      omega

theorem escape_number : forall c : UInt8, c = 0x2D ∨ isDigit c = true -> Parson.escape c = [c] := by
  apply forall_byte
  decide +kernel

/-- Digits and signs are written as they are. -/
theorem escapedWidth_number {text : Bytes}
    (number : forall c, c ∈ text -> c = 0x2D ∨ isDigit c = true) : escapedWidth text = text.length := by
  induction text with
  | nil => rfl
  | cons c rest inductionHypothesis =>
      have others := inductionHypothesis (fun other member => number other (List.mem_cons_of_mem _ member))
      unfold escapedWidth at others ⊢
      rw [List.flatMap_cons, escape_number c (number c List.mem_cons_self), List.length_append, others,
        List.length_singleton, List.length_cons, Nat.add_comm]

/-- An answer is too short for `MAX_BUFF` bytes. -/
theorem width_answering {message : Message} {type : MessageType} {result : Int}
    (printable : Printable (answering message type result)) :
    width (answering message type result) < 3992 := by
  have sender := escapedWidth_le (answering message type result).senderNameString
  rw [printable.senderNameString_eq] at sender
  have senderFits : (answering message type result).senderName.text.length < maxChars :=
    printable.senderTerminated
  have digits : forall c, c ∈ (answering message type result).msgString ->
      c = 0x2D ∨ isDigit c = true := by
    intro c member
    rw [Message.msgString_eq] at member
    exact mem_intText ((List.takeWhile_sublist _).subset ((List.take_sublist _ _).subset member))
  have text := escapedWidth_number digits
  rw [Message.msgString_eq] at text
  have textFits := (answering message type result).msg.fits
  have typeSmall := (answering message type result).type.toNat_lt
  have msgId := Binary64.formatG17_round_length_le printable.msgId.1 printable.msgId.2
  have groupId := Binary64.formatG17_round_length_le printable.groupId.1 printable.groupId.2
  have sendTime := Binary64.formatG17_round_length_le printable.sendTime.1 printable.sendTime.2
  have typeWidth := Binary64.formatG17_round_length_le
    (z := ((answering message type result).type.toNat : Int)) (by omega) (by omega)
  unfold maxChars at senderFits
  unfold maxMsgData at textFits
  unfold width numberWidth
  rw [printable.senderNameString_eq, Message.msgString_eq]
  omega

/-- Each write of a handler is a text that it packed.  A packed message with
proper strings is sent exactly if its fields take 3992 characters, and no
answer does. -/
theorem sendsExactly_iff_width (handler : Handler) (this : Bufferevent) (message : Message)
    (world : World) :
    Exists fun sent => (handler.run this message world).2.written = world.written ++ sent ∧
      forall write, write ∈ sent -> Exists fun packed =>
        Packs message handler packed ∧ write.json = packed.packMessage ∧
          (Printable packed -> (SendsExactly write <-> handler = .chat ∧ width packed = 3992)) := by
  rcases run_appends handler this message world with ⟨sent, written, kinds⟩
  refine ⟨sent, written, fun write member => ?_⟩
  rcases kinds write member with ⟨packed, packs, isWrite⟩
  refine ⟨packed, packs, congrArg Write.json isWrite, fun printable => ?_⟩
  have size : SendsExactly write <-> width packed = 3992 := by
    unfold SendsExactly
    rw [isWrite]
    change maxBuff = packed.packMessage.length + 1 <-> _
    rw [packMessage_length printable]
    unfold maxBuff
    omega
  rw [size]
  cases packs with
  | register result =>
      have less := width_answering printable
      exact ⟨fun same => by omega, fun both => by cases both.1⟩
  | login result =>
      have less := width_answering printable
      exact ⟨fun same => by omega, fun both => by cases both.1⟩
  | logout result =>
      have less := width_answering printable
      exact ⟨fun same => by omega, fun both => by cases both.1⟩
  | chat time => exact ⟨fun same => ⟨rfl, same⟩, And.right⟩

/-- The answer to the first registration is followed by other memory. -/
theorem firstAnswer_not_sendsExactly :
    Not (Run.Always World.step
      (fun world => forall write, write ∈ world.written -> SendsExactly write)
      (World.start (fun _ => 1)) [.accept 5, arrival ⟨0, 5⟩ (request .register 0 "bob secret 1")]) := by
  have reached : (Run.after World.step (World.start (fun _ => 1))
      [.accept 5, arrival ⟨0, 5⟩ (request .register 0 "bob secret 1")]).map
      (fun world => world.written.map (fun write => decide (write.size = write.json.length + 1))) =
        some [false] := by
    decide +kernel
  intro always
  rcases Option.map_eq_some_iff.mp reached with ⟨world, leads, tests⟩
  rcases List.map_eq_singleton_iff.mp tests with ⟨write, isOnly, test⟩
  have sent := always.finish leads write (by rw [isOnly]; exact List.mem_singleton_self write)
  exact of_decide_eq_false test sent

end WriteSize
end ChatHub
