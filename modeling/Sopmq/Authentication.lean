import Sopmq.MessageDispatcher
import Sopmq.UserAccount

/-!
# The two ends of the authentication

The client's `unauthenticated_state` and the server's `csunauthenticated`, with the
parts of the session and of the connection that they use. Each end has the counter of
its connection, a dispatcher, and the reads and writes that it has started and that
have not been reported to it. A handler returns the new state of its end together with
the messages that it sends.

A server looks the user up in the storage; the answer comes from another thread, and
the handler of the answer posts the rest of its work to the io service. The outcome of
a lookup is a function of the name hash.
-/

namespace Sopmq

/-- `GetChallengeMessage::Type`: whether a client or another node asks for
the challenge. -/
inductive AuthType where
  | client
  | server
deriving DecidableEq, Repr

/-- The `AnswerChallengeMessage`: the hash of the user name, and the answer
to the challenge. -/
structure AnswerChallengeMessage where
  identity : Identifier
  unameHash : Bytes
  challengeResponse : Bytes
deriving DecidableEq, Repr

/-- The messages of the authentication, in the order in which a login
exchanges them. -/
inductive AuthMessage where
  | getChallenge (identity : Identifier) (type : AuthType)
  | challengeResponse (identity : Identifier) (challenge : Bytes)
  | answerChallenge (answer : AnswerChallengeMessage)
  | authAck (identity : Identifier) (authorized : Bool)
deriving DecidableEq, Repr

namespace AuthMessage

/-- The type that a message is sent under, which fixes the table it is
dispatched by. -/
def type : AuthMessage → MessageType
  | getChallenge _ _ => .getChallenge
  | challengeResponse _ _ => .challengeResponse
  | answerChallenge _ => .answerChallenge
  | authAck _ _ => .authAck

/-- The identifier of a message and of the message it replies to. -/
def identity : AuthMessage → Identifier
  | getChallenge identity _ => identity
  | challengeResponse identity _ => identity
  | answerChallenge answer => answer.identity
  | authAck identity _ => identity

end AuthMessage

/-- The state of a client session, and the states that started its reads.
The two may differ while a read is in progress. -/
inductive SessionState where
  | unauthenticated
  | authenticated
deriving DecidableEq, Repr

/-- The handlers that `unauthenticated_state` registers, by name. -/
inductive ClientHandler where
  | onChallengeResponse
  | onAuthAck
deriving DecidableEq, Repr

/-- A client session that authenticates: its connection, its state, and the
calls of the callback so far. -/
structure ClientSession where
  nextId : UInt32
  username : Bytes
  password : Bytes
  dispatcher : MessageDispatcher ClientHandler
  state : SessionState
  valid : Bool
  reads : List SessionState
  writes : Nat
  authCallbacks : List Bool

namespace ClientSession

/-- `session::authenticate`, up to the entry of its state. The counter is
that of the connection. -/
def create (nextId : UInt32) (username password : Bytes) : ClientSession where
  nextId := nextId
  username := username
  password := password
  dispatcher := MessageDispatcher.create
  state := .unauthenticated
  valid := true
  reads := []
  writes := 0
  authCallbacks := []

/-- `unauthenticated_state::state_entry`: the handler of the challenge is
registered, the request is sent and a read is started. -/
def stateEntry (session : ClientSession) : ClientSession × List AuthMessage :=
  let id := session.nextId + 1
  ({ session with
      nextId := id
      dispatcher :=
        session.dispatcher.setHandlerFor .challengeResponse (some .onChallengeResponse) id
      writes := session.writes + 1
      reads := session.reads ++ [.unauthenticated] },
    [.getChallenge ⟨id, 0⟩ .client])

/-- The answer of a client to a challenge: a hash of the hashed password
with the challenge behind it. -/
def answer (crypto : Crypto) (password challenge : Bytes) : Bytes :=
  crypto.sha256HexString (crypto.sha256HexString password ++ challenge)

/-- `unauthenticated_state::on_challenge_response`. The handler of the
challenge response is cleared for identifier zero only. -/
def onChallengeResponse (crypto : Crypto) (session : ClientSession) (response : Identifier)
    (challenge : Bytes) : ClientSession × List AuthMessage :=
  let id := session.nextId + 1
  ({ session with
      nextId := id
      dispatcher := (session.dispatcher.setHandler .challengeResponse none).setHandlerFor
        .authAck (some .onAuthAck) id
      writes := session.writes + 1
      reads := session.reads ++ [.unauthenticated] },
    [.answerChallenge
      { identity := ⟨id, response.id⟩
        unameHash := crypto.sha256HexString session.username
        challengeResponse := answer crypto session.password challenge }])

/-- The callback of `session::authenticate`: `on_auth_status`, which enters
the authenticated state, and then the registered callback. -/
def authCallback (session : ClientSession) (authd : Bool) : ClientSession :=
  { session with
    state := if authd then .authenticated else session.state
    reads := if authd then session.reads ++ [.authenticated] else session.reads
    authCallbacks := session.authCallbacks ++ [authd] }

/-- `unauthenticated_state::on_auth_ack`, which hands the verdict to the
callback. -/
def onAuthAck (session : ClientSession) (authorized : Bool) : ClientSession :=
  if authorized then session.authCallback true else session.authCallback false

/-- `session::protocol_violation`: the session is not valid any more. -/
def protocolViolation (session : ClientSession) : ClientSession :=
  { session with valid := false }

/-- A message arrives for the oldest read. Its status callback does nothing
on success, and the message goes to the dispatcher of the state that started
the read. The authenticated state has no handlers before a publish. A
handler is only ever looked up for messages of the type that it takes. -/
def receive (crypto : Crypto) (session : ClientSession) (message : AuthMessage) :
    Option (ClientSession × List AuthMessage) :=
  match session.reads with
  | [] => none
  | .authenticated :: reads =>
      some ({ session with reads := reads }.protocolViolation, [])
  | .unauthenticated :: reads =>
      let reading := { session with reads := reads }
      match session.dispatcher.dispatch message.type message.identity.inReplyTo, message with
      | .handler .onChallengeResponse, .challengeResponse response challenge =>
          some (reading.onChallengeResponse crypto response challenge)
      | .handler .onAuthAck, .authAck _ authorized => some (reading.onAuthAck authorized, [])
      | _, _ => some (reading.protocolViolation, [])

/-- The stream ends under the oldest read: `on_message_received` reports the
failure in the unauthenticated state, and the handlers, called without a
message, return. -/
def readFailed (session : ClientSession) : Option ClientSession :=
  match session.reads with
  | [] => none
  | .authenticated :: reads => some { session with reads := reads }
  | .unauthenticated :: reads => some ({ session with reads := reads }.authCallback false)

/-- `unauthenticated_state::on_message_sent`, which does nothing on success.
The report takes one write away. -/
def onMessageSent (session : ClientSession) : Option ClientSession :=
  match session.writes with
  | 0 => none
  | writes + 1 => some { session with writes := writes }

/-- A write is only reported when one is in progress, and the report takes
it away. -/
theorem onMessageSent_some (session after : ClientSession)
    (reported : session.onMessageSent = some after) :
    ∃ writes, session.writes = writes + 1 ∧ after = { session with writes := writes } := by
  unfold onMessageSent at reported
  split at reported
  · exact absurd reported (by simp)
  · next writes started => exact ⟨writes, started, (Option.some.inj reported).symm⟩

/-- A challenge with a handler goes to `on_challenge_response`. -/
theorem receive_challengeResponse (crypto : Crypto) (session : ClientSession)
    (response : Identifier) (challenge : Bytes) (reads : List SessionState)
    (waiting : session.reads = .unauthenticated :: reads)
    (handled : session.dispatcher.dispatch .challengeResponse response.inReplyTo =
      .handler .onChallengeResponse) :
    session.receive crypto (.challengeResponse response challenge) =
      some ({ session with reads := reads }.onChallengeResponse crypto response challenge) := by
  simp only [receive, waiting, AuthMessage.type, AuthMessage.identity, handled]

/-- An AuthAck with a handler goes to `on_auth_ack`. -/
theorem receive_authAck (crypto : Crypto) (session : ClientSession) (identity : Identifier)
    (authorized : Bool) (reads : List SessionState)
    (waiting : session.reads = .unauthenticated :: reads)
    (handled : session.dispatcher.dispatch .authAck identity.inReplyTo = .handler .onAuthAck) :
    session.receive crypto (.authAck identity authorized) =
      some ({ session with reads := reads }.onAuthAck authorized, []) := by
  simp only [receive, waiting, AuthMessage.type, AuthMessage.identity, handled]

end ClientSession

/-- The state of a server connection, and the states that started its reads.
A read goes back to the state that started it. -/
inductive ConnectionState where
  | csunauthenticated
  | csauthenticated
deriving DecidableEq, Repr

/-- The handlers that `csunauthenticated` registers, by name. -/
inductive ServerHandler where
  | handleGetChallengeMessage
  | handleAnswerChallengeMessage
deriving DecidableEq, Repr

/-- A message of a type that belongs neither to the authentication nor to
`csauthenticated`. It has no handler in any state. -/
structure OtherMessage where
  type : MessageType
  identity : Identifier
  foreign : type ∈ [.publishResponse, .consumeFromQueue, .consumeResponse, .gossip, .proxyPublish,
    .proxyPublishResponse, .stamp]

/-- A message from the peer, who may send any type in any state. -/
inductive PeerMessage where
  | auth (message : AuthMessage)
  | publish (message : PublishMessage)
  | other (message : OtherMessage)

namespace PeerMessage

/-- The type that a message is sent under, which fixes the table it is
dispatched by. -/
def type : PeerMessage → MessageType
  | auth message => message.type
  | publish _ => .publish
  | other message => message.type

/-- The identifier of a message and of the message it replies to. -/
def identity : PeerMessage → Identifier
  | auth message => message.identity
  | publish message => message.identity
  | other message => message.identity

end PeerMessage

/-- The handler that `csauthenticated` registers, by name. -/
inductive AuthenticatedHandler where
  | handlePostMessage
deriving DecidableEq, Repr

/-- The dispatcher of `csauthenticated`, as its `start` sets it up. Nothing
changes it afterwards. -/
def csauthenticatedDispatcher : MessageDispatcher AuthenticatedHandler :=
  MessageDispatcher.create.setHandler .publish (some .handlePostMessage)

/-- The settings of a node that its authentication uses: the user of unit
tests, and the key that servers share. -/
structure AuthSettings where
  unitTestUsername : Bytes
  ringKeyHash : Bytes

/-- A server connection that authenticates its peer: the counter of the
connection, the fields of `csunauthenticated`, the state of the connection,
its reads and writes, the lookups in progress and the work posted to the io
service. -/
structure ServerConnection where
  nextId : UInt32
  dispatcher : MessageDispatcher ServerHandler
  authType : Option AuthType
  challenge : Bytes
  closeAfterTransmission : Bool
  state : ConnectionState
  closed : Bool
  reads : List ConnectionState
  writes : Nat
  lookups : List AnswerChallengeMessage
  posted : List (Bool × AnswerChallengeMessage)

namespace ServerConnection

/-- `connection_in::start`, with `csunauthenticated::start`: the handler of
the request is registered, and a read is started. -/
def start (nextId : UInt32) : ServerConnection where
  nextId := nextId
  dispatcher :=
    MessageDispatcher.create.setHandler .getChallenge (some .handleGetChallengeMessage)
  authType := none
  challenge := []
  closeAfterTransmission := false
  state := .csunauthenticated
  closed := false
  reads := [.csunauthenticated]
  writes := 0
  lookups := []
  posted := []

/-- `connection_in::handle_error`: close the socket. The reads in progress
are not taken back; each is still reported, with an error or with the
message that it had completed with. -/
def handleError (connection : ServerConnection) : ServerConnection :=
  { connection with closed := true }

/-- Close the socket unless all is well. Both states do this when a write is
over. -/
def closeUnless (connection : ServerConnection) (well : Bool) : ServerConnection :=
  if well then connection else connection.handleError

/-- `csunauthenticated::handle_read_result` and
`csauthenticated::handle_read_result`, for the state that has started the
read. The latter reads on at once. -/
def handleReadResult (connection : ServerConnection) (owner : ConnectionState) (success : Bool) :
    ServerConnection :=
  match owner, success with
  | .csunauthenticated, true => connection
  | .csauthenticated, true =>
      { connection with reads := connection.reads ++ [ConnectionState.csauthenticated] }
  | _, false => connection.handleError

/-- `csunauthenticated::handle_get_challenge_message` and
`generate_challenge_response`, for the random bytes that are drawn. -/
def handleGetChallengeMessage (randomBytes : Bytes) (connection : ServerConnection)
    (message : Identifier) (type : AuthType) : ServerConnection × List AuthMessage :=
  let id := connection.nextId + 1
  ({ connection with
      authType := some type
      nextId := id
      challenge := randomBytes
      dispatcher := (connection.dispatcher.setHandler .getChallenge none).setHandlerFor
        .answerChallenge (some .handleAnswerChallengeMessage) id
      writes := connection.writes + 1
      reads := connection.reads ++ [.csunauthenticated] },
    [.challengeResponse ⟨id, message.id⟩ randomBytes])

/-- `csunauthenticated::successful_auth`, with `connection_in::change_state`
and `csauthenticated::start`. -/
def successfulAuth (connection : ServerConnection) (message : AnswerChallengeMessage) :
    ServerConnection × List AuthMessage :=
  let id := connection.nextId + 1
  ({ connection with
      nextId := id
      writes := connection.writes + 1
      reads := connection.reads ++ [.csauthenticated]
      state := .csauthenticated },
    [.authAck ⟨id, message.identity.id⟩ true])

/-- `csunauthenticated::failed_auth`: the negative AuthAck is sent, and the
connection closes when it has been written. -/
def failedAuth (connection : ServerConnection) (message : AnswerChallengeMessage) :
    ServerConnection × List AuthMessage :=
  let id := connection.nextId + 1
  ({ connection with
      closeAfterTransmission := true
      nextId := id
      writes := connection.writes + 1 },
    [.authAck ⟨id, message.identity.id⟩ false])

/-- `csunauthenticated::handle_answer_challenge_message`: a unit test user
is let in at once, another client is looked up, and a server is compared
with the ring key. -/
def handleAnswerChallengeMessage (crypto : Crypto) (settings : AuthSettings)
    (connection : ServerConnection) (message : AnswerChallengeMessage) :
    ServerConnection × List AuthMessage :=
  if connection.authType = some .client ∧ settings.unitTestUsername ≠ [] ∧
      message.unameHash = crypto.sha256HexString settings.unitTestUsername then
    connection.successfulAuth message
  else if connection.authType = some .client then
    ({ connection with lookups := connection.lookups ++ [message] }, [])
  else if message.challengeResponse =
      crypto.sha256HexString (settings.ringKeyHash ++ connection.challenge) then
    connection.successfulAuth message
  else
    connection.failedAuth message

/-- The dispatch of a message by `csunauthenticated`. A handler is only ever
looked up for messages of the type that it takes. Without a handler the
socket is closed; an empty function raises, and changes nothing. -/
def dispatch (crypto : Crypto) (settings : AuthSettings) (randomBytes : Bytes)
    (connection : ServerConnection) (message : PeerMessage) :
    ServerConnection × List AuthMessage :=
  match connection.dispatcher.dispatch message.type message.identity.inReplyTo, message with
  | .handler .handleGetChallengeMessage, .auth (.getChallenge identity type) =>
      connection.handleGetChallengeMessage randomBytes identity type
  | .handler .handleAnswerChallengeMessage, .auth (.answerChallenge answer) =>
      connection.handleAnswerChallengeMessage crypto settings answer
  | .unhandled, _ => (connection.handleError, [])
  | _, _ => (connection, [])

/-- A message of the authentication arrives for the oldest read: the status
callback of the state that has started the read, and then the dispatch by
that state. The dispatcher of `csauthenticated` has no handler for these
messages. -/
def receive (crypto : Crypto) (settings : AuthSettings) (randomBytes : Bytes)
    (connection : ServerConnection) (message : AuthMessage) :
    Option (ServerConnection × List AuthMessage) :=
  match connection.reads with
  | [] => none
  | owner :: reads =>
      let reading := { connection with reads := reads }.handleReadResult owner true
      match owner with
      | .csunauthenticated => some (reading.dispatch crypto settings randomBytes (.auth message))
      | .csauthenticated => some (reading.handleError, [])

/-- `csunauthenticated::handle_write_result`: the socket is closed when the
write has failed, and when it was to be the last one. -/
def handleWriteResult (connection : ServerConnection) (success : Bool) :
    Option ServerConnection :=
  match connection.writes with
  | 0 => none
  | writes + 1 =>
      some ({ connection with writes := writes }.closeUnless
        (success && !connection.closeAfterTransmission))

/-- A lookup finishes: `is_authorized` reports to the callback of the
handler, which posts the rest of the work. -/
def lookupFinished (crypto : Crypto) (storage : Bytes → AsyncQueryState)
    (connection : ServerConnection) : Option ServerConnection :=
  match connection.lookups with
  | [] => none
  | message :: lookups =>
      some { connection with
        lookups := lookups
        posted := connection.posted ++
          (UserAccount.isAuthorized crypto (storage message.unameHash) connection.challenge
            message.challengeResponse).map (fun authd => (authd, message)) }

/-- The io service runs the oldest posted work, which sends the verdict. -/
def runPosted (connection : ServerConnection) : Option (ServerConnection × List AuthMessage) :=
  match connection.posted with
  | [] => none
  | (authd, message) :: posted =>
      let running := { connection with posted := posted }
      some (if authd then running.successfulAuth message else running.failedAuth message)

/-- A write is only reported when one is in progress, and the report takes
it away. -/
theorem handleWriteResult_some (connection after : ServerConnection) (success : Bool)
    (reported : connection.handleWriteResult success = some after) :
    ∃ writes, connection.writes = writes + 1 ∧
      after = { connection with writes := writes }.closeUnless
        (success && !connection.closeAfterTransmission) := by
  unfold handleWriteResult at reported
  split at reported
  · exact absurd reported (by simp)
  · next writes started => exact ⟨writes, started, (Option.some.inj reported).symm⟩

/-- A request with a handler goes to `handle_get_challenge_message`. -/
theorem receive_getChallenge (crypto : Crypto) (settings : AuthSettings) (randomBytes : Bytes)
    (connection : ServerConnection) (identity : Identifier) (type : AuthType)
    (reads : List ConnectionState) (waiting : connection.reads = .csunauthenticated :: reads)
    (handled : connection.dispatcher.dispatch .getChallenge identity.inReplyTo =
      .handler .handleGetChallengeMessage) :
    connection.receive crypto settings randomBytes (.getChallenge identity type) =
      some ({ connection with reads := reads }.handleGetChallengeMessage randomBytes identity
        type) := by
  simp only [receive, waiting, handleReadResult, dispatch, PeerMessage.type, PeerMessage.identity,
    AuthMessage.type, AuthMessage.identity, handled]

/-- An answer with a handler goes to `handle_answer_challenge_message`. -/
theorem receive_answerChallenge (crypto : Crypto) (settings : AuthSettings) (randomBytes : Bytes)
    (connection : ServerConnection) (answer : AnswerChallengeMessage)
    (reads : List ConnectionState) (waiting : connection.reads = .csunauthenticated :: reads)
    (handled : connection.dispatcher.dispatch .answerChallenge answer.identity.inReplyTo =
      .handler .handleAnswerChallengeMessage) :
    connection.receive crypto settings randomBytes (.answerChallenge answer) =
      some ({ connection with reads := reads }.handleAnswerChallengeMessage crypto settings
        answer) := by
  simp only [receive, waiting, handleReadResult, dispatch, PeerMessage.type, PeerMessage.identity,
    AuthMessage.type, AuthMessage.identity, handled]

end ServerConnection

end Sopmq
