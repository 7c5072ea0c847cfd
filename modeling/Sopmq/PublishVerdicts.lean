import Sopmq.PublishCallbacks
import Sopmq.PublishSafety

/-!
# What the client of a publish is told

The handler of a publish has nothing to say but UNAVAILABLE: `do_stamp_message` does nothing, and
the other responses are never sent. So a client is told of a failure or of nothing, whatever the
nodes answer.

Nor is a publish ever stamped among nodes that all run this program. The reply of
`send_proxy_publish` has no status, and a reply without one fails the node that gave it.

Both are facts about the run of a publish that every part of the handler keeps: the loop, the calls
inside of calls, the catch clauses and the late answers.
-/

namespace Sopmq

/-- The status of the reply is not set, and QUEUED is not its default. So no
local reply is a success. -/
theorem LocalNode.status_sendProxyPublish (murmurHash3 : String → UInt128) (node : LocalNode)
    (now : Time) (clientMessage : PublishMessage) (response : ProxyPublishResponseMessage)
    (answered : (node.sendProxyPublish murmurHash3 now clientMessage).2.2 = .ok response) :
    response.status ≠ .queued := by
  unfold sendProxyPublish at answered
  cases converted : uuidFromBytes clientMessage.messageId with
  | error what => simp [converted] at answered
  | ok messageId =>
    simp only [converted] at answered
    split at answered
    · cases answered
    · cases answered
      simp [ProxyPublishResponseMessage.status]

/-- A publish leaves the identity of its message as it is. Only the content
is moved out. -/
theorem LocalNode.identity_sendProxyPublish (murmurHash3 : String → UInt128) (node : LocalNode)
    (now : Time) (clientMessage : PublishMessage) :
    (node.sendProxyPublish murmurHash3 now clientMessage).2.1.identity =
      clientMessage.identity := by
  unfold sendProxyPublish
  cases uuidFromBytes clientMessage.messageId with
  | error what => rfl
  | ok messageId =>
    simp only
    split <;> rfl

/-- The parts of the handler, apart from the reply of the local node, which
is not QUEUED. The calls in progress and the content of the message play no
role. -/
structure PublishHandler.Keeps (answers : Answers) (holds : PublishRun → Prop) : Prop where
  frame : ∀ run after : PublishRun, after.trace = run.trace → after.logic = run.logic →
    after.message.identity = run.message.identity → holds run → holds after
  asked : ∀ run : PublishRun, holds run → holds (run.perform run.logic.callFunction)
  refused : ∀ run : PublishRun, holds run → holds (run.perform (run.logic, .failFunction))
  failed : ∀ (run : PublishRun) (node : Node), holds run → holds (run.nodeFailed node)
  answered : ∀ (run : PublishRun) (node : Node), holds run → holds (run.answer answers node)
  replied : ∀ (run : PublishRun) (node : Node) (response : ProxyPublishResponseMessage),
    response.status ≠ .queued → holds run → holds (run.answer (answers.replying response) node)

namespace PublishHandler

variable {setting : PublishSetting} {holds : PublishRun → Prop}

/-- A callback keeps it, if its call and its answer do. -/
theorem Keeps.callback {call : PublishHandler → PublishHandler × Outcome} {answers : Answers}
    {node : Node} (keeps : Keeps setting.answers holds)
    (called : ∀ handler : PublishHandler, holds handler.run → holds (call handler).1.run)
    (answered : ∀ run : PublishRun, holds run → holds (run.answer answers node))
    (handler : PublishHandler) (given : holds handler.run) :
    holds (callback call answers handler node).1.run := by
  have ended := called { handler with run := handler.run.answer answers node }
    (answered handler.run given)
  unfold PublishHandler.callback
  dsimp only
  split
  · split
    · exact called _ (keeps.failed _ node ended)
    · exact ended
  · exact ended

/-- A call keeps it, with all the calls that it leads to. By induction on
the bound of nested calls. -/
theorem Keeps.proceed (keeps : Keeps setting.answers holds) (fuel : Nat)
    (handler : PublishHandler) (given : holds handler.run) :
    holds (proceed setting fuel handler).1.run := by
  induction fuel generalizing handler with
  | zero =>
    unfold PublishHandler.proceed
    split <;> exact given
  | succ fuel inductionHypothesis =>
    unfold PublishHandler.proceed
    split
    · exact given
    · exact given
    · next node calling =>
      have handed : holds (handler.handTo node).run :=
        keeps.frame handler.run _ rfl rfl rfl given
      dsimp only
      split
      · have served : holds ((handler.handTo node).serve setting).1.run := by
          refine keeps.frame (handler.handTo node).run _ rfl rfl ?_ handed
          exact LocalNode.identity_sendProxyPublish ..
        split
        · next after error raised =>
          rw [raised] at served
          exact served
        · next after response answered =>
          have status : response.status ≠ .queued :=
            LocalNode.status_sendProxyPublish _ _ _ _ response (congrArg Prod.snd answered)
          rw [answered] at served
          exact keeps.callback inductionHypothesis
            (fun run => keeps.replied run node response status) after served
      · split
        · exact keeps.callback inductionHypothesis (fun run => keeps.answered run node) _ handed
        · exact keeps.frame (handler.handTo node).run _ rfl rfl rfl handed

/-- The loop keeps it, from one iteration to the next. -/
theorem Keeps.loop (keeps : Keeps setting.answers holds) (iterations : Nat)
    (handler : PublishHandler) (given : holds handler.run) :
    holds (loop setting iterations handler).1.run := by
  induction iterations generalizing handler with
  | zero => exact given
  | succ iterations inductionHypothesis =>
    have iterated : holds (handler.iterate iterations).run :=
      keeps.asked _ (keeps.frame handler.run _ rfl rfl rfl given)
    have ended := keeps.proceed 3 (handler.iterate iterations) iterated
    unfold PublishHandler.loop
    dsimp only
    split
    · exact inductionHypothesis _ ended
    · exact ended

/-- The handler keeps it, whether it runs the loop, refuses or raises. -/
theorem Keeps.handlePostMessage (keeps : Keeps setting.answers holds) (isAlive : Node → Bool)
    (shuffle : Equiv.Perm (Fin 3)) (wasSuccessful : Bool) (localNode : LocalNode)
    (message : PublishMessage) (nextId : UInt32)
    (started : ∀ nodes, holds (PublishRun.start message nextId nodes)) :
    holds (handlePostMessage setting isAlive shuffle wasSuccessful localNode message
      nextId).1.run := by
  unfold PublishHandler.handlePostMessage
  dsimp only
  split
  · split
    · exact keeps.refused _ (started _)
    · exact started _
    · next nodes found =>
      have ended := keeps.loop (QuorumLogic.runIterations 3)
        (start localNode message nextId nodes) (started nodes)
      split
      · next handler raised unavailable =>
        rw [unavailable] at ended
        exact keeps.refused _ ended
      · exact ended
  · exact started _

/-- A late answer keeps it, with the call that it may lead to. -/
theorem Keeps.deliver (keeps : Keeps setting.answers holds) (handler after : PublishHandler)
    (node : Node) (delivered : deliver setting handler node = some after)
    (given : holds handler.run) : holds after.run := by
  unfold PublishHandler.deliver at delivered
  split at delivered
  · cases delivered
    exact keeps.callback (keeps.proceed 3) (fun run => keeps.answered run node) _
      (keeps.frame handler.run _ rfl rfl rfl given)
  · cases delivered

/-- The states of a publish: after the handler, and after any late answers,
for any ring, shuffle and liveness. -/
def Reached (setting : PublishSetting) (message : PublishMessage) (handler : PublishHandler) :
    Prop :=
  ∃ isAlive shuffle wasSuccessful localNode nextId,
    Machine.Reaches (deliver setting)
      (handlePostMessage setting isAlive shuffle wasSuccessful localNode message nextId).1 handler

/-- What the parts of the handler keep, and what holds at the start, holds
in every state. -/
theorem Keeps.reached (keeps : Keeps setting.answers holds) {message : PublishMessage}
    {handler : PublishHandler} (reached : Reached setting message handler)
    (started : ∀ nextId nodes, holds (PublishRun.start message nextId nodes)) :
    holds handler.run := by
  obtain ⟨isAlive, shuffle, wasSuccessful, localNode, nextId, reaches⟩ := reached
  refine reaches.invariant (fun handler => holds handler.run) ?_
    (keeps.handlePostMessage isAlive shuffle wasSuccessful localNode message nextId
      (started nextId))
  intro before node after given delivered
  exact keeps.deliver before after node delivered given

end PublishHandler

namespace PublishRun

/-- All responses are UNAVAILABLE, in reply to the message, whose identity
is the one it came with. -/
structure Unavailing (id : UInt32) (run : PublishRun) : Prop where
  message : run.message.identity.id = id
  responses : ∀ response ∈ run.responses,
    response.status = .unavailable ∧ response.identity.inReplyTo = id

variable {id : UInt32} {run : PublishRun}

/-- It depends on the responses and on the identity of the message only. -/
theorem Unavailing.frame {after : PublishRun} (unavailing : Unavailing id run)
    (responses : after.responses = run.responses)
    (identity : after.message.identity = run.message.identity) : Unavailing id after :=
  ⟨identity ▸ unavailing.message, responses ▸ unavailing.responses⟩

/-- A call of the quorum logic sends nothing, or the response of the fail
function. -/
theorem Unavailing.perform (unavailing : Unavailing id run)
    (made : QuorumLogic 3 (List (VectorClock 3)) × QuorumLogic.Call) :
    Unavailing id (run.perform made) := by
  obtain ⟨logic, node | _⟩ := made
  · exact unavailing.frame (by simp [PublishRun.perform, PublishRun.responses]) rfl
  · refine ⟨unavailing.message, ?_⟩
    have added : (run.perform (logic, .failFunction)).responses =
        run.responses ++ [unavailableResponse (run.nextId + 1) run.message] := by
      simp [PublishRun.perform, PublishRun.responses]
    rw [added]
    exact List.forall_mem_append.mpr
      ⟨unavailing.responses, List.forall_mem_singleton.mpr ⟨rfl, unavailing.message⟩⟩

/-- So a failure keeps it, whatever call it leads to. -/
theorem Unavailing.failed (unavailing : Unavailing id run) (node : Node) :
    Unavailing id (run.nodeFailed node) := unavailing.perform _

/-- So does an answer, in each of the ways in which the callback ends. -/
theorem Unavailing.answer (unavailing : Unavailing id run) (answers : Answers) (node : Node) :
    Unavailing id (run.answer answers node) := by
  have handled := answer_handled answers run node
  generalize run.answer answers node = after at handled
  cases handled with
  | rejected refused =>
    refine (unavailing.frame ?_ ?_).failed node <;>
      cases answers.queued node <;> simp [log, nodeSuccess, PublishRun.responses]
  | stored clock given first => exact unavailing.frame (by simp [PublishRun.responses]) rfl
  | stamped clock maxClock given later agreed =>
    exact unavailing.frame (by simp [log, doStampMessage, PublishRun.responses]) rfl
  | clashed clock error given later raised =>
    have combined : Unavailing id
        ((run.accept node clock).log (.combine (run.logic.ctx ++ [clock]))) :=
      unavailing.frame (by simp [log, PublishRun.responses]) rfl
    exact combined.failed node

/-- No node has been counted as a success, and nothing has been stamped. -/
structure Unstamped (run : PublishRun) : Prop where
  successes : run.logic.successNodes = []
  stamps : run.stamps = 0

/-- A failure counts no success and stamps nothing. -/
theorem Unstamped.failed (unstamped : Unstamped run) (node : Node) :
    Unstamped (run.nodeFailed node) := by
  obtain ⟨-, -, successes, -, -, -, -, -, stamps⟩ := run.nodeFailed_kept node
  exact ⟨successes.trans unstamped.successes, stamps.trans unstamped.stamps⟩

/-- Nor does an answer without the status QUEUED, which is a failure. -/
theorem Unstamped.answer (unstamped : Unstamped run) (answers : Answers) (node : Node)
    (unqueued : answers.queued node = false) : Unstamped (run.answer answers node) := by
  have refused : ∀ clock, answers.clockOf node ≠ some clock := by
    intro clock given
    exact absurd (answers.queued_of_clockOf node clock given) (by simp [unqueued])
  have handled := answer_handled answers run node
  obtain ⟨-, -, -, -, -, successes⟩ := handled.kept
  refine ⟨by rw [successes, unstamped.successes, unqueued]; rfl, ?_⟩
  cases handled.recorded with
  | rejected _ _ _ stamps => exact stamps.trans unstamped.stamps
  | stored clock given => exact absurd given (refused clock)
  | stamped clock _ given => exact absurd given (refused clock)
  | clashed clock _ given => exact absurd given (refused clock)

end PublishRun

namespace PublishHandler

/-- Every part of the handler keeps the responses UNAVAILABLE, whatever the
nodes answer. -/
theorem keeps_unavailing (answers : Answers) (id : UInt32) :
    Keeps answers (PublishRun.Unavailing id) where
  frame run after trace logic identity unavailing :=
    unavailing.frame (by rw [PublishRun.responses, trace, PublishRun.responses]) identity
  asked run unavailing := unavailing.perform _
  refused run unavailing := unavailing.perform _
  failed run node unavailing := unavailing.failed node
  answered run node unavailing := unavailing.answer answers node
  replied run node response status unavailing := unavailing.answer _ node

/-- All that the client is sent in the course of a publish is UNAVAILABLE,
in reply to its message. -/
theorem Reached.unavailing {setting : PublishSetting} {message : PublishMessage}
    {handler : PublishHandler} (reached : Reached setting message handler) :
    handler.run.Unavailing message.identity.id :=
  (keeps_unavailing setting.answers message.identity.id).reached reached
    fun _ _ => ⟨rfl, fun _ sent => nomatch sent⟩

/-- Every part of the handler leaves the publish unstamped, if no node
answers with QUEUED. -/
theorem keeps_unstamped (answers : Answers) (unqueued : ∀ node, answers.queued node = false) :
    Keeps answers PublishRun.Unstamped where
  frame run after trace logic identity unstamped :=
    ⟨logic ▸ unstamped.successes, by rw [PublishRun.stamps, trace]; exact unstamped.stamps⟩
  asked run unstamped := by
    refine ⟨unstamped.successes, ?_⟩
    simpa [PublishRun.perform, PublishRun.stamps, QuorumLogic.callFunction] using unstamped.stamps
  refused run unstamped := by
    refine ⟨unstamped.successes, ?_⟩
    simpa [PublishRun.perform, PublishRun.stamps] using unstamped.stamps
  failed run node unstamped := unstamped.failed node
  answered run node unstamped := unstamped.answer answers node (unqueued node)
  replied run node response status unstamped :=
    unstamped.answer _ node (by simp [Answers.queued, Answers.replying, status])

/-- The other nodes report an error, or pass on the reply that the program
gives on some node, for some message and at some time. -/
def Relayed (setting : PublishSetting) : Prop :=
  ∀ node response, setting.answers.reply node = .message response →
    ∃ (replica : LocalNode) (now : Time) (message : PublishMessage),
      (replica.sendProxyPublish setting.murmurHash3 now message).2.2 = .ok response

/-- Among nodes that all run this program no publish is stamped, in no order
of the answers: `do_stamp_message` is not called, no node counts as a
success, and all that the client is sent is UNAVAILABLE, in reply to its
message. -/
theorem relayed_publish_unstamped (setting : PublishSetting) (relayed : Relayed setting)
    (message : PublishMessage) (handler : PublishHandler)
    (reached : Reached setting message handler) :
    handler.run.stamps = 0 ∧ handler.run.logic.successNodes = [] ∧
      ∀ response ∈ handler.run.responses, response.status = .unavailable ∧
        response.identity.inReplyTo = message.identity.id := by
  have unqueued : ∀ node, setting.answers.queued node = false := by
    intro node
    unfold Answers.queued
    split
    · next response replied =>
      obtain ⟨replica, now, given, answered⟩ := relayed node response replied
      exact decide_eq_false (replica.status_sendProxyPublish _ now given response answered)
    · rfl
  have unstamped := (keeps_unstamped setting.answers unqueued).reached reached
    fun nextId nodes => ⟨rfl, rfl⟩
  exact ⟨unstamped.stamps, unstamped.successes, reached.unavailing.responses⟩

/-- The first node of three handles a publish, and the reply of the second
one serves for the others. -/
def relaySetting : PublishSetting :=
  { lateSetting with
    answers := { lateSetting.answers with
      reply := fun _ =>
        match ((freshNode ⟨2, 20⟩ Ring.sample).sendProxyPublish (fun _ => 15) 0
          PublishMessage.sample).2.2 with
        | .ok response => .message response
        | .error _ => .error "connection refused" } }

/-- All three nodes are tried, and the client is refused twice. Nothing is
stamped. -/
theorem relayed_publish_unstamped_three :
    ∃ handler, Reached relaySetting PublishMessage.sample handler ∧
      handler.handed.map Prod.fst = [⟨1, 10⟩, ⟨2, 20⟩, ⟨3, 30⟩] ∧
      handler.run.responses.length = 2 ∧ handler.run.stamps = 0 := by
  have relayed : Relayed relaySetting := by
    intro node response replied
    refine ⟨freshNode ⟨2, 20⟩ Ring.sample, 0, PublishMessage.sample, ?_⟩
    simp only [relaySetting] at replied
    split at replied
    · next given answered =>
      cases replied
      exact answered
    · cases replied
  obtain ⟨handler, ran, handed, refused⟩ : ∃ handler,
      Machine.run (deliver relaySetting)
        (handlePostMessage relaySetting (fun _ => true) 1 true (freshNode ⟨1, 10⟩ Ring.sample)
          PublishMessage.sample 0).1 [⟨2, 20⟩, ⟨3, 30⟩] = some handler ∧
      handler.handed.map Prod.fst = [⟨1, 10⟩, ⟨2, 20⟩, ⟨3, 30⟩] ∧
      handler.run.responses.length = 2 := ⟨_, rfl, rfl, rfl⟩
  have reached : Reached relaySetting PublishMessage.sample handler :=
    ⟨_, _, _, _, _, Machine.reaches_of_run _ _ handler _ ran⟩
  exact ⟨handler, reached, handed, refused,
    (relayed_publish_unstamped relaySetting relayed _ handler reached).1⟩

end PublishHandler

namespace AuthenticatedSession

/-- A client that receives what publish handlers send, whatever the nodes
answer to these, is never told that a message was piped, stored or dropped:
the callback of a publish is called with UNAVAILABLE or with a network
error, if it is called. -/
theorem publishes_unacknowledged (nextId : UInt32) (session : AuthenticatedSession)
    (reached : Machine.Reaches step (stateEntry nextId) session)
    (served : ∀ response, .publishResponse response ∈ session.received →
      ∃ setting message handler, PublishHandler.Reached setting message handler ∧
        response ∈ handler.run.responses) :
    ∀ call ∈ session.callbacks, call.2 = .unavailable ∨ call.2 = .networkError := by
  intro call member
  obtain ⟨message, -, justified⟩ := (accounted_of_reached reached).justified call member
  rcases justified with broken | ⟨response, received, -, told⟩
  · exact Or.inr broken
  · obtain ⟨setting, published, handler, ran, sent⟩ := served response received
    rw [told, (ran.unavailing.responses response sent).1]
    exact Or.inl rfl

/-- A publish that has been written, and the UNAVAILABLE response to it. -/
def refusedEvents : List SessionEvent :=
  [.publishMessage [1] someCall, .writeCompleted 0 true,
    .messageRead (.publishResponse ⟨⟨1, 3⟩, .unavailable⟩)]

/-- No replica is alive, so the handler sends this response, and the
callback is told of it. -/
theorem publishes_unacknowledged_unavailable :
    ∃ session, Machine.run step (stateEntry 2) refusedEvents = some session ∧
      session.callbacks = [(0, .unavailable)] ∧
      ∀ call ∈ session.callbacks, call.2 = .unavailable ∨ call.2 = .networkError := by
  obtain ⟨session, ran, told, read⟩ : ∃ session,
      Machine.run step (stateEntry 2) refusedEvents = some session ∧
      session.callbacks = [(0, .unavailable)] ∧
      session.received = [.publishResponse ⟨⟨1, 3⟩, .unavailable⟩] := ⟨_, rfl, rfl, rfl⟩
  refine ⟨session, ran, told, publishes_unacknowledged 2 session
    (Machine.reaches_of_run step (stateEntry 2) session refusedEvents ran) ?_⟩
  intro response received
  obtain rfl : response = ⟨⟨1, 3⟩, .unavailable⟩ := by simpa [read] using received
  exact ⟨PublishHandler.lateSetting,
    { PublishMessage.sample with identity := ⟨3, 0⟩ }, _,
    ⟨fun _ => false, 1, true, PublishHandler.freshNode ⟨1, 10⟩ Ring.sample, 0,
      Relation.ReflTransGen.refl⟩, List.mem_singleton.mpr rfl⟩

end AuthenticatedSession

end Sopmq
