import Sopmq.Machine
import Sopmq.MessageDispatcher

/-!
# The authenticated client session

`authenticated_state` starts one read when it is entered. Each call of `publish_message`
sends a message, and registers the handler of its response when the send has succeeded. A
read that completes goes through its status callback, which only reports failures, and
then through the dispatcher to the handler of the publish that the message replies to.
Neither of them starts another read.

A run is any interleaving of publish calls, completed writes and completed reads. The
writes in progress are reported in any order. A publish call is known by its place among
the calls, and its handler by that number. `connection_error` only writes to the log; it is
kept here as a flag, so that the runs without failures can be told from the others. The
completed writes with their success, the received messages and the calls of the publish
callbacks are kept as histories.

A failed read calls the handlers of each table in the order of a `std::unordered_map`, which
is part of the event.
-/

namespace Sopmq

/-- `PublishMessageResponse`, what the callback of a publish is called with.
The last value is the one that no message carries. -/
inductive PublishMessageResponse where
  | messagePiped
  | messageStored
  | messageDropped
  | notAuth
  | unavailable
  | networkError
deriving DecidableEq, Repr

/-- The cast of a status of a response message. The two enumerations have
the same values. -/
def PublishMessageResponse.ofStatus : PublishStatus → PublishMessageResponse
  | .piped => messagePiped
  | .stored => messageStored
  | .dropped => messageDropped
  | .notAuth => notAuth
  | .unavailable => unavailable

/-- A message from the server: the response to a publish, or one of another
type, of which only type and identity matter. -/
inductive ServerMessage where
  | publishResponse (message : PublishResponseMessage)
  | other (type : MessageType) (identity : Identifier) (foreign : type ≠ .publishResponse)

namespace ServerMessage

/-- The type of a message, by which the dispatcher chooses a table. -/
def type : ServerMessage → MessageType
  | publishResponse _ => .publishResponse
  | other type _ _ => type

/-- The identifier of a message and of the one it replies to, by which the
dispatcher chooses a handler. -/
def identity : ServerMessage → Identifier
  | publishResponse message => message.identity
  | other _ identity _ => identity

end ServerMessage

/-- The arguments of `publish_message`, apart from the callback. -/
structure PublishCall where
  queueId : String
  storeIfCantPipe : Bool
  ttl : Int32
  data : Bytes
deriving DecidableEq, Repr

/-- A client session in its authenticated state, with its connection and the
histories. No step reads a history. -/
structure AuthenticatedSession where
  nextId : UInt32
  dispatcher : MessageDispatcher Nat
  reads : Nat
  writes : List (Nat × PublishMessage)
  completed : List (Nat × Bool)
  sent : List (PublishMessage × UInt32)
  valid : Bool
  failed : Bool
  received : List ServerMessage
  callbacks : List (Nat × PublishMessageResponse)

/-- What happens to a session. A publish draws the identifier of its
message. A read completes with a message, with bytes that do not parse, or
with a network error. -/
inductive SessionEvent where
  | publishMessage (messageId : Bytes) (call : PublishCall)
  | writeCompleted (index : Nat) (success : Bool)
  | messageRead (message : ServerMessage)
  | parseFailed
  | readFailed (order : MessageType → KeyedMap.Iteration UInt32 (Option Nat))

namespace AuthenticatedSession

/-- `authenticated_state::read_next`: one more read is in progress. -/
def readNext (session : AuthenticatedSession) : AuthenticatedSession :=
  { session with reads := session.reads + 1 }

/-- `authenticated_state::state_entry`, over a connection that has no reads
in progress. The counter goes on from the login. -/
def stateEntry (nextId : UInt32) : AuthenticatedSession :=
  readNext
    { nextId := nextId
      dispatcher := MessageDispatcher.create
      reads := 0
      writes := []
      completed := []
      sent := []
      valid := true
      failed := false
      received := []
      callbacks := [] }

/-- `PublishMessage_Flags_STORE_IF_PIPE_FAILS`, the one flag of a
publish. -/
def storeIfPipeFails : UInt32 := 1

/-- `authenticated_state::publish_message`. The message is sent with its
flags under the next identifier, and no handler is registered yet. -/
def publishMessage (session : AuthenticatedSession) (messageId : Bytes) (call : PublishCall) :
    AuthenticatedSession :=
  let id := session.nextId + 1
  let message : PublishMessage :=
    { identity := ⟨id, 0⟩
      messageId := messageId
      queueId := call.queueId
      ttl := call.ttl.toUInt32
      content := call.data }
  { session with
    nextId := id
    writes := session.writes ++ [(session.sent.length, message)]
    sent := session.sent ++ [(message, if call.storeIfCantPipe then storeIfPipeFails else 0)] }

/-- `session::connection_error`, which leaves the session as it is but for
the flag. -/
def connectionError (session : AuthenticatedSession) : AuthenticatedSession :=
  { session with failed := true }

/-- `session::protocol_violation`: the session is not valid any more. -/
def protocolViolation (session : AuthenticatedSession) : AuthenticatedSession :=
  { session with valid := false }

/-- The callback of a send: on success the handler of the response is
registered, and a failure is only reported. -/
def writeCompleted (session : AuthenticatedSession) (index : Nat) (success : Bool) :
    Option AuthenticatedSession :=
  match session.writes[index]? with
  | none => none
  | some (serial, message) =>
      let written :=
        { session with
          writes := session.writes.eraseIdx index
          completed := session.completed ++ [(serial, success)] }
      some
        (if success then
          { written with
            dispatcher := session.dispatcher.setHandlerFor .publishResponse (some serial)
              message.identity.id }
        else written.connectionError)

/-- The dispatch of a message. A handler is only ever looked up for
responses, and a message without one violates the protocol. -/
def dispatch (session : AuthenticatedSession) (message : ServerMessage) :
    AuthenticatedSession :=
  match session.dispatcher.dispatch message.type message.identity.inReplyTo, message with
  | .handler serial, .publishResponse response =>
      { session with
        callbacks := session.callbacks ++
          [(serial, PublishMessageResponse.ofStatus response.status)] }
  | .unhandled, _ => session.protocolViolation
  | _, _ => session

/-- One read of the connection is over. There is no step without a read in
progress. -/
def endRead (session : AuthenticatedSession) : Option AuthenticatedSession :=
  match session.reads with
  | 0 => none
  | reads + 1 => some { session with reads := reads }

/-- A message has been read: the status callback does nothing, and the
message is dispatched. -/
def messageRead (session : AuthenticatedSession) (message : ServerMessage) :
    AuthenticatedSession :=
  { session with received := session.received ++ [message] }.dispatch message

/-- `on_read_error`: the status callback, and then every registered handler
with the error, in the given order. -/
def readFailed (order : MessageType → KeyedMap.Iteration UInt32 (Option Nat))
    (session : AuthenticatedSession) : AuthenticatedSession :=
  { session.connectionError with
    callbacks := session.callbacks ++
      (session.dispatcher.cancelAllWithError order).map fun serial => (serial, .networkError) }

/-- One event of a session. A completed read ends the read in progress,
whatever it brings. -/
def step (session : AuthenticatedSession) : SessionEvent → Option AuthenticatedSession
  | .publishMessage messageId call => some (session.publishMessage messageId call)
  | .writeCompleted index success => session.writeCompleted index success
  | .messageRead message => session.endRead.map fun ended => ended.messageRead message
  | .parseFailed => session.endRead.map connectionError
  | .readFailed order => session.endRead.map (readFailed order)

/-- The calls of the callbacks that carry the status of a response, as
opposed to a network error. -/
def answered (session : AuthenticatedSession) : List (Nat × PublishMessageResponse) :=
  session.callbacks.filter fun call => call.2 ≠ .networkError

/-- The one read of the state entry is in progress, has brought a message,
or has failed. No more callbacks got a status than messages came. -/
structure OneRead (session : AuthenticatedSession) : Prop where
  single : session.reads + session.received.length ≤ 1
  listening : session.failed = false → session.reads + session.received.length = 1
  answered : session.answered.length ≤ session.received.length

/-- A read that ends was in progress. What it leads to is done in the state
that has one read less. -/
theorem endRead_map_some (session after : AuthenticatedSession)
    (next : AuthenticatedSession → AuthenticatedSession)
    (moved : session.endRead.map next = some after) :
    ∃ reads, session.reads = reads + 1 ∧ after = next { session with reads := reads } := by
  obtain ⟨ended, completed, rfl⟩ := Option.map_eq_some_iff.mp moved
  unfold endRead at completed
  split at completed
  · cases completed
  · next reads count =>
    obtain rfl := Option.some.inj completed
    exact ⟨reads, count, rfl⟩

/-- A dispatch calls at most one callback with a status, starts no read and
receives no further message. -/
theorem dispatch_frame (session : AuthenticatedSession) (message : ServerMessage) :
    (session.dispatch message).reads = session.reads ∧
      (session.dispatch message).received = session.received ∧
      (session.dispatch message).answered.length ≤ session.answered.length + 1 := by
  unfold dispatch
  split
  · refine ⟨rfl, rfl, ?_⟩
    simp only [answered, List.filter_append, List.length_append]
    exact Nat.add_le_add_left (List.length_filter_le _ _) _
  · exact ⟨rfl, rfl, Nat.le_succ _⟩
  · exact ⟨rfl, rfl, Nat.le_succ _⟩

/-- A message that is read is received, calls at most one callback with a
status, and starts no read. -/
theorem messageRead_frame (session : AuthenticatedSession) (message : ServerMessage) :
    (session.messageRead message).reads = session.reads ∧
      (session.messageRead message).received.length = session.received.length + 1 ∧
      (session.messageRead message).answered.length ≤ session.answered.length + 1 := by
  obtain ⟨reads, received, calls⟩ := dispatch_frame
    { session with received := session.received ++ [message] } message
  refine ⟨reads, ?_, calls⟩
  rw [messageRead, received, List.length_append, List.length_singleton]

/-- The handlers that a failed read calls get the network error, so no
callback gets a status. -/
theorem answered_readFailed (order : MessageType → KeyedMap.Iteration UInt32 (Option Nat))
    (session : AuthenticatedSession) : (session.readFailed order).answered = session.answered := by
  simp [readFailed, answered, connectionError]

/-- A completed write has nothing to do with reads, and keeps the
account. -/
theorem writeCompleted_oneRead (session after : AuthenticatedSession) (index : Nat)
    (success : Bool) (one : session.OneRead)
    (completed : session.writeCompleted index success = some after) : after.OneRead := by
  obtain ⟨single, listening, answered⟩ := one
  unfold writeCompleted at completed
  split at completed
  · exact absurd completed (by simp)
  · obtain rfl := Option.some.inj completed
    cases success with
    | true => exact ⟨single, listening, answered⟩
    | false => exact ⟨single, fun unfailed => absurd unfailed (by simp [connectionError]), answered⟩

/-- Every step keeps the account of the one read. No event starts
another. -/
theorem step_oneRead (session : AuthenticatedSession) (event : SessionEvent)
    (after : AuthenticatedSession) (one : session.OneRead)
    (moved : session.step event = some after) : after.OneRead := by
  obtain ⟨single, listening, answered⟩ := one
  cases event with
  | publishMessage messageId call =>
    obtain rfl := Option.some.inj moved
    exact ⟨single, listening, answered⟩
  | writeCompleted index success =>
    exact writeCompleted_oneRead session after index success ⟨single, listening, answered⟩ moved
  | messageRead message =>
    obtain ⟨reads, count, rfl⟩ := endRead_map_some session after _ moved
    obtain ⟨readsKept, received, calls⟩ :=
      messageRead_frame { session with reads := reads } message
    have total : reads + (session.received.length + 1) = 1 := by omega
    constructor
    · rw [readsKept, received]
      exact total.le
    · intro _
      rw [readsKept, received]
      exact total
    · rw [received]
      exact calls.trans (Nat.succ_le_succ answered)
  | parseFailed =>
    obtain ⟨reads, count, rfl⟩ := endRead_map_some session after _ moved
    refine ⟨?_, fun unfailed => absurd unfailed (by simp [connectionError]), answered⟩
    simp only [connectionError]
    omega
  | readFailed order =>
    obtain ⟨reads, count, rfl⟩ := endRead_map_some session after _ moved
    refine ⟨?_, fun unfailed => absurd unfailed (by simp [readFailed, connectionError]), ?_⟩
    · simp only [readFailed, connectionError]
      omega
    · rw [answered_readFailed]
      exact answered

/-- The account holds in every state of every run. -/
theorem oneRead_of_reached (nextId : UInt32) (session : AuthenticatedSession)
    (reached : Machine.Reaches step (stateEntry nextId) session) : session.OneRead :=
  reached.invariant OneRead step_oneRead
    ⟨le_rfl, fun _ => rfl, le_rfl⟩

/-- In every state of every run without failures, exactly one read is in
progress if and only if no message has been received so far: the session
listens for one message and never again. -/
theorem listening_iff (nextId : UInt32) (session : AuthenticatedSession)
    (reached : Machine.Reaches step (stateEntry nextId) session)
    (unfailed : session.failed = false) :
    session.reads = 1 ↔ session.received = [] := by
  have total := (oneRead_of_reached nextId session reached).listening unfailed
  rw [← List.length_eq_zero_iff]
  omega

/-- A publish of one byte to a queue, for runs on fixed inputs. -/
def someCall : PublishCall := ⟨"queue", true, 60, [1]⟩

/-- A publish whose message has been written, so that its handler is
registered. -/
def publishedEvents : List SessionEvent :=
  [.publishMessage [1] someCall, .writeCompleted 0 true]

/-- The statement at this run: the session listens, as nothing has come. -/
theorem listening_published :
    ∃ session, Machine.run step (stateEntry 2) publishedEvents = some session ∧
      session.failed = false ∧ session.valid = true ∧ session.received = [] ∧
      session.reads = 1 := by
  refine ⟨_, rfl, rfl, rfl, rfl, ?_⟩
  exact (listening_iff 2 _ (Machine.reaches_of_run step (stateEntry 2) _ publishedEvents rfl)
    rfl).mpr rfl

/-- Two publishes, the second one after the response to the first. Both have
been written. -/
def answeredEvents : List SessionEvent :=
  [.publishMessage [1] someCall, .writeCompleted 0 true,
    .messageRead (.publishResponse ⟨⟨3, 3⟩, .stored⟩),
    .publishMessage [2] someCall, .writeCompleted 0 true]

/-- The second publish waits for its response with its handler in place, and
nothing reads it. -/
theorem second_publish_unread :
    ∃ session, Machine.run step (stateEntry 2) answeredEvents = some session ∧
      session.failed = false ∧ session.valid = true ∧
      session.callbacks = [(0, .messageStored)] ∧
      session.dispatcher.dispatch .publishResponse 4 = .handler 1 ∧ session.reads = 0 :=
  ⟨_, rfl, rfl, rfl, rfl, rfl, rfl⟩

/-- Over a whole run, failures included, at most one publish gets the status
of its message. -/
theorem answered_once (nextId : UInt32) (session : AuthenticatedSession)
    (reached : Machine.Reaches step (stateEntry nextId) session) :
    session.answered.length ≤ 1 := by
  obtain ⟨single, _, answered⟩ := oneRead_of_reached nextId session reached
  omega

end AuthenticatedSession

end Sopmq
