import ChatHub.Network.Order
import ChatHub.Server.Refinement

namespace ChatHub

/-!
# Clients and server together provide the service

Seen from the clients, the server, its database and the bytes on the way are
the service.  Each connection asks the service for what its client typed, and
its client reads what the service sends to the connection, in the same order,
whatever the order in which the server reads and the bytes arrive.
-/

namespace Network

open World

/-- An event of the service. -/
abbrev ChatEvent := Service.Event Bytes Bytes Bufferevent Message

/-- What an event is for the server. -/
def serverEvent (network : Network) : Event -> Option World.Event
  | .manage event => some event
  | .serve bev count buf _ => some (.read bev buf ((network.parties bev).toServer.take count))
  | .stdin _ _ | .arrive _ _ _ => none

/-- What the service sees of an event. -/
def seenBy (network : Network) (event : Event) : Option ChatEvent :=
  (serverEvent network event).bind Refinement.eventOf

/-- The clients are careful, none asks for a login twice, and what the server
does is orderly. -/
def Proper (network : Network) (event : Event) : Prop :=
  (Careful network event ∧ LogsInOnce network event) ∧
    forall served, serverEvent network event = some served ->
      Refinement.Orderly network.world served

/-- The connection and the item of a request. -/
def requestItem : ChatEvent -> Option (Bufferevent × Message)
  | .request conn item _ => some (conn, item)
  | .openRoom _ _ | .leaveRoom _ _ | .closeRoom _ => none

/-- The message asks for something. -/
def asks (message : Message) : Bool :=
  (Refinement.requestOf message).isSome

/-- A service in this state was asked for these events.  What a connection
asked for is what its client typed, and what the client read is what the
service sent to it.  Nothing is missing once nothing is on the way. -/
structure Serviced (chat : Chat) (log : List ChatEvent) (network : Network) : Prop where
  provides : Refinement.Provides (Simulation.responses Service.respond chat log) network.world
  asked : forall bev,
    addressed bev (log.filterMap requestItem) <+: (network.parties bev).typed.filter asks
  askedAll : forall bev, (network.parties bev).toServer = [] ->
    addressed bev (log.filterMap requestItem) = (network.parties bev).typed.filter asks
  reads : forall bev, (network.parties bev).read.map Message.packMessage <+: (addressed bev
    ((Simulation.responses Service.respond chat log).sent.drop chat.sent.length)).map
      (fun sent => (Refinement.packed sent).packMessage)
  readsAll : forall bev, (network.parties bev).toClient = [] ->
    (network.parties bev).read.map Message.packMessage = (addressed bev
      ((Simulation.responses Service.respond chat log).sent.drop chat.sent.length)).map
        (fun sent => (Refinement.packed sent).packMessage)

/-! ## What holds in every state -/

/-- What the server wrote when it handled these messages. -/
def writtenFor (history : List Handled) : List Write :=
  history.flatMap (fun handled => handled.next.written.drop handled.world.written.length)

/-- The service was asked for what the server handled, and sent what this made
the server write. -/
structure Explained (chat : Chat) (log : List ChatEvent) (network : Network) : Prop where
  consistent : Consistent network
  provides : Refinement.Provides (Simulation.responses Service.respond chat log) network.world
  written : forall bev, writtenTo bev network.world.written =
    (addressed bev chat.sent).map (fun sent => .ofMessage bev (Refinement.packed sent)) ++
      writtenTo bev (writtenFor network.history)
  asked : log.filterMap requestItem =
    (network.history.map (fun handled => (handled.sender, handled.message))).filter
      (fun item => asks item.2)

section Explained

variable {chat : Chat} {log : List ChatEvent} {network next : Network}

theorem addressed_filter {Item : Type} (bev : Bufferevent) (test : Item -> Bool)
    (items : List (Bufferevent × Item)) :
    addressed bev (items.filter (fun item => test item.2)) = (addressed bev items).filter test := by
  unfold addressed
  rw [List.filterMap_filter, List.filter_filterMap]
  apply List.filterMap_congr
  intro item _
  by_cases isFor : item.1 = bev
  · simp only [if_pos isFor, Option.filter]
  · simp only [if_neg isFor, ite_self, Option.filter]

/-- The messages that are due are those that were written. -/
theorem written_of_due {bev : Bufferevent} {history : List Handled} {parts : List (List Message)}
    (due : List.Forall₂ (fun handled part => DueWritten handled bev part) history parts) :
    writtenTo bev (writtenFor history) = parts.flatten.map (Write.ofMessage bev) := by
  induction due with
  | nil => rfl
  | cons first _ inductionHypothesis =>
      unfold writtenFor at inductionHypothesis ⊢
      rw [List.flatten_cons, List.map_append, ← inductionHypothesis, ← first.2, List.flatMap_cons,
        writtenTo_append]

/-- What the service has sent since then is what the server wrote. -/
theorem Explained.sent (explained : Explained chat log network) (bev : Bufferevent) :
    writtenTo bev (writtenFor network.history) = (addressed bev
      ((Simulation.responses Service.respond chat log).sent.drop chat.sent.length)).map
        (fun sent => .ofMessage bev (Refinement.packed sent)) := by
  have grows : chat.sent <+: (Simulation.responses Service.respond chat log).sent :=
    @Simulation.responses_invariant _ _ Service.respond (fun service => chat.sent <+: service.sent)
      (fun service event before => List.IsPrefix.trans before (service.sent_respond event)) chat
      List.prefix_rfl log
  rcases grows with ⟨more, same⟩
  have shown := explained.provides.shows.written bev
  rw [explained.written bev, ← same, addressed_append, List.map_append] at shown
  rw [← same, List.drop_left]
  exact List.append_cancel_left shown

/-- What a client has read is the beginning of what is due, as it was packed. -/
theorem Explained.reads (explained : Explained chat log network) {bev : Bufferevent}
    {parts : List (List Message)}
    (due : List.Forall₂ (fun handled part => DueWritten handled bev part) network.history parts) :
    parts.flatten.map Message.packMessage = (addressed bev
      ((Simulation.responses Service.respond chat log).sent.drop chat.sent.length)).map
        (fun sent => (Refinement.packed sent).packMessage) := by
  have texts := congrArg (List.map Write.json) ((written_of_due due).symm.trans (explained.sent bev))
  rw [List.map_map, List.map_map] at texts
  exact texts

theorem Explained.serviced (explained : Explained chat log network) : Serviced chat log network := by
  have asked : forall bev, addressed bev (log.filterMap requestItem) =
      (handledFrom bev network.history).filter asks := fun bev => by
    rw [explained.asked, addressed_filter]
    rfl
  have relays : forall bev, Relays bev network.history (network.parties bev) :=
    fun bev => (explained.consistent.inStep bev).relays
  refine ⟨explained.provides, fun bev => ?_, fun bev empty => ?_, fun bev => ?_, fun bev empty => ?_⟩
  · rw [asked]
    exact (relays bev).handles.filter _
  · rw [asked, (relays bev).handlesAll empty]
  · rcases (relays bev).reads with ⟨parts, due, isPrefix, _⟩
    rw [← explained.reads due]
    exact isPrefix.map _
  · rcases (relays bev).reads with ⟨parts, due, _, all⟩
    rw [← explained.reads due, all empty]

/-- The service responds to what is seen of an event of the server. -/
theorem provides_append {world after : World} {event : World.Event}
    (provides : Refinement.Provides (Simulation.responses Service.respond chat log) world)
    (orderly : Refinement.Orderly world event) (taken : World.step world event = some after) :
    Refinement.Provides (Simulation.responses Service.respond chat
      (log ++ (Refinement.eventOf event).toList)) after := by
  rw [Simulation.responses_append, Simulation.responses_toList]
  exact Refinement.simulates_step _ _ _ _ provides orderly taken

theorem written_of_manages {world after : World} {event : World.Event} (manages : Manages event)
    (taken : World.step world event = some after) : after.written = world.written := by
  have kept : forall {Value : Type} {action : Action Db Value},
      perform (dao action) world = some after -> after.written = world.written := by
    intro Value action ran
    rcases Refinement.perform_dao ran with ⟨value, db, _, same⟩
    rw [same]
  cases event with
  | read => cases manages
  | accept fd =>
      simp only [World.step, Option.ite_none_right_eq_some, Option.map_eq_some_iff] at taken
      rcases taken with ⟨_, conns, _, same⟩
      rw [← same]
  | close bev =>
      simp only [World.step, Option.map_eq_some_iff] at taken
      rcases taken with ⟨conns, _, same⟩
      rw [← same]
  | createChatroom =>
      simp only [World.step, Option.ite_none_right_eq_some] at taken
      exact kept taken.2
  | leaveChatrooom => exact kept taken
  | delChatrooom => exact kept taken

theorem no_request_of_manages {event : World.Event} (manages : Manages event) :
    (Refinement.eventOf event).toList.filterMap requestItem = [] := by
  cases event with
  | read => cases manages
  | leaveChatrooom chatroomId username =>
      change ((Redis.readCounter username).map _).toList.filterMap requestItem = []
      cases Redis.readCounter username <;> rfl
  | accept | close | createChatroom | delChatrooom => rfl

/-- A message that asks for something is a request. -/
theorem request_of_received {bev : Bufferevent} {buf input : Bytes} {message : Message}
    (received : Framing.received buf input = .ok (some message)) :
    (Refinement.eventOf (.read bev buf input)).toList.filterMap requestItem =
      [(bev, message)].filter (fun item => asks item.2) := by
  have sameEvent : Refinement.eventOf (.read bev buf input) =
      (Refinement.requestOf message).map (.request bev message) := by
    simp only [Refinement.eventOf, received]
  rw [sameEvent]
  unfold asks
  cases isRequest : Refinement.requestOf message with
  | none => simp [isRequest]
  | some request => simp [isRequest, requestItem]

theorem Explained.serve (explained : Explained chat log network) {bev : Bufferevent} {count : Nat}
    {buf : Bytes} {arrays : List (Bufferevent × Bytes)}
    (oneBlock : count = (cstr (network.parties bev).toServer).length + 1)
    (orderly : Refinement.Orderly network.world
      (.read bev buf ((network.parties bev).toServer.take count)))
    (taken : step network (.serve bev count buf arrays) = some next) :
    Explained chat (log ++ (Refinement.eventOf
      (.read bev buf ((network.parties bev).toServer.take count))).toList) next := by
  have consistent := explained.consistent
  rcases consistent.handlesFirst oneBlock taken with ⟨message, rest, world, handles⟩
  rcases handleAllMessage_writes consistent.sane consistent.kept.truthful handles.sendable.stamped
    handles.ran with ⟨packed, written, _⟩
  change world.written = network.world.written ++ _ at written
  have isWorld : next.world = world := by
    rw [handles.same]
    rfl
  refine ⟨consistent.serve oneBlock taken, ?_, ?_, ?_⟩
  · rw [isWorld]
    exact provides_append explained.provides orderly handles.reading.taken
  · intro other
    rw [isWorld, handles.history]
    unfold writtenFor
    rw [List.flatMap_append, writtenTo_append, ← List.append_assoc]
    change _ = _ ++ writtenTo other (writtenFor network.history) ++ _
    rw [← explained.written, List.flatMap_singleton, written, List.drop_left, writtenTo_append]
  · rw [handles.history, List.map_append, List.filter_append, ← explained.asked,
      List.filterMap_append, request_of_received handles.received]
    rfl

/-- A proper event of the network is seen by the service. -/
theorem explains_step : Simulation.Simulates step Proper (fun log event => log ++ [event]) seenBy
    (Explained chat) := by
  intro log network event next explained proper taken
  have logged : Simulation.follow (fun log event => log ++ [event]) log (seenBy network event) =
      log ++ (seenBy network event).toList := by
    rw [← Simulation.responses_toList, Simulation.responses_log]
  rw [logged]
  have consistent := explained.consistent.step proper.1.1 taken
  cases event with
  | manage event =>
      rcases step_manage taken with ⟨manages, world, changed, same⟩
      subst same
      refine ⟨consistent, provides_append explained.provides (proper.2 event rfl) changed, ?_, ?_⟩
      · intro bev
        change writtenTo bev world.written = _
        rw [written_of_manages manages changed]
        exact explained.written bev
      · change (log ++ (Refinement.eventOf event).toList).filterMap requestItem = _
        rw [List.filterMap_append, no_request_of_manages manages, List.append_nil]
        exact explained.asked
  | stdin bev typed =>
      rw [step_stdin taken] at consistent ⊢
      change Explained chat (log ++ []) _
      rw [List.append_nil]
      exact ⟨consistent, explained.provides, explained.written, explained.asked⟩
  | serve bev count buf arrays => exact explained.serve proper.1.1 (proper.2 _ rfl) taken
  | arrive bev count behind =>
      rw [(step_arrive taken).2] at consistent ⊢
      change Explained chat (log ++ []) _
      rw [List.append_nil]
      exact ⟨consistent, explained.provides, explained.written, explained.asked⟩

end Explained

/-- After every proper run, from a server that is in use, the clients got what
the service gives. -/
theorem serviced_after {clock : Nat -> Int} {setup : List World.Event}
    (orderly : Run.Guarded World.step Refinement.Orderly (World.start clock) setup) {world : World}
    (reached : Run.after World.step (World.start clock) setup = some world) {events : List Event}
    (proper : Run.Guarded step Proper (start world) events) {network : Network}
    (leads : Run.after step (start world) events = some network) :
    Serviced (Simulation.responses Service.respond Service.start (setup.filterMap Refinement.eventOf))
      (Simulation.seen step seenBy (start world) events) network := by
  have provides : Refinement.Provides (Simulation.responses Service.respond Service.start
      (setup.filterMap Refinement.eventOf)) world := by
    rw [← Simulation.seen_eq_filterMap reached]
    exact Refinement.simulates_step.run (Refinement.provides_start clock) orderly reached
  have initially : Explained (Simulation.responses Service.respond Service.start
      (setup.filterMap Refinement.eventOf)) [] (start world) :=
    ⟨consistent_start reached, provides,
      fun bev => (provides.shows.written bev).trans (List.append_nil _).symm, rfl⟩
  have explained := explains_step.run initially proper leads
  rw [Simulation.responses_log, List.nil_append] at explained
  exact explained.serviced

/-! ## A session -/

theorem sane_step {network next : Network} {event : Event} (sane : Sane network.world)
    (taken : step network event = some next) : Sane next.world := by
  cases event with
  | manage event =>
      rcases step_manage taken with ⟨_, world, changed, same⟩
      subst same
      exact sane.step changed
  | stdin bev typed =>
      rw [step_stdin taken]
      exact sane
  | serve bev count buf arrays =>
      rcases step_serve taken with ⟨_, _, world, reading, same⟩
      rw [same]
      exact sane.step reading.taken
  | arrive bev count behind =>
      rw [(step_arrive taken).2]
      exact sane

/-- A sufficient test for proper events. -/
def properTest (network : Network) (event : Event) : Bool :=
  (carefulTest network event && logsInOnceTest network event) && (serverEvent network event).all (Refinement.orderlyTest network.world)

theorem proper_of_test {network : Network} (sane : Sane network.world) {event : Event}
    (passed : properTest network event = true) : Proper network event := by
  rw [properTest, Bool.and_eq_true, Bool.and_eq_true] at passed
  refine ⟨passed.1.imp careful_of_test logsInOnce_of_test, fun served isServed => Refinement.orderly_of_test sane ?_⟩
  have orderly := passed.2
  rw [isServed, Option.all_some] at orderly
  exact orderly

/-- Two users log in, and one of them reads what the other one typed. -/
theorem serviced_after_session : Exists fun world => Exists fun network =>
    Run.after World.step (World.start (fun _ => 0)) roomSetup = some world ∧
      Run.after step (start world) session = some network ∧
      Serviced (Simulation.responses Service.respond Service.start
          (roomSetup.filterMap Refinement.eventOf))
        (Simulation.seen step seenBy (start world) session) network ∧
      greeting ∈ (network.parties ⟨1, 6⟩).read := by
  have facts : (Run.after World.step (World.start (fun _ => 0)) roomSetup).map (fun world =>
      (Run.check World.step Refinement.orderlyTest (World.start (fun _ => 0)) roomSetup,
        Run.check step properTest (start world) session,
        (Run.after step (start world) session).map
          (fun network => decide (greeting ∈ (network.parties ⟨1, 6⟩).read)))) =
      some (true, true, some true) := by
    decide +kernel
  rcases Option.map_eq_some_iff.mp facts with ⟨world, reached, all⟩
  rw [Prod.mk.injEq, Prod.mk.injEq, Option.map_eq_some_iff] at all
  rcases all with ⟨orderlySetup, checked, network, leads, isRead⟩
  have saneStart := sane_start (fun _ => 0)
  have orderly := @Run.guarded_of_check _ _ World.step Sane Refinement.Orderly Refinement.orderlyTest
    (World.start (fun _ => 0)) saneStart (fun _ _ _ sane taken => sane.step taken)
    (fun _ _ sane passed => Refinement.orderly_of_test sane passed) roomSetup orderlySetup
  have sane : Sane world :=
    (Run.invariant saneStart (fun _ _ _ sane taken => sane.step taken) roomSetup).finish reached
  have proper := @Run.guarded_of_check _ _ step (fun network => Sane network.world) Proper properTest
    (start world) sane (fun _ _ _ sane taken => sane_step sane taken)
    (fun _ _ sane passed => proper_of_test sane passed) session checked
  exact ⟨world, network, reached, leads, serviced_after orderly reached proper leads,
    of_decide_eq_true isRead⟩

end Network
end ChatHub
