import Sopmq.ConnectionIn

/-!
# The authentication handshake

A client session and a server connection with the messages in flight between them.
Messages arrive in the order they were sent and are not lost; a close by the server
lets the messages that it has sent arrive before the client's reads end. When a
message arrives, when a write is reported, when a lookup finishes and when posted work
runs is left open.

With the account of the user in the storage, every run exchanges the four messages,
reports one verdict to the client's callback, and leaves the server authenticated if
and only if the verdict is true.
-/

namespace Sopmq

/-- What a handshake depends on: the hash, the settings and the storage of
the server, the challenge it draws, and the user name and password given to
the client. -/
structure HandshakeSetting where
  crypto : Crypto
  settings : AuthSettings
  storage : Bytes → AsyncQueryState
  challenge : Bytes
  username : Bytes
  password : Bytes
  clientNextId : UInt32
  serverNextId : UInt32

/-- The two ends, the messages in flight to each of them, and all messages
sent so far. -/
structure Handshake where
  client : ClientSession
  server : ServerConnection
  toServer : List AuthMessage
  toClient : List AuthMessage
  exchanged : List AuthMessage

/-- What happens in a handshake: a message arrives, a read of the client
ends, a write is reported, a lookup finishes, or posted work runs. -/
inductive HandshakeEvent where
  | serverReceives
  | clientReceives
  | clientReadEnds
  | clientWritten
  | serverWritten
  | lookupFinished
  | postedRuns
deriving DecidableEq, Repr

namespace Handshake

/-- The client has entered its state and sent its request, and the server
has started its connection. -/
def start (setting : HandshakeSetting) : Handshake :=
  let entered := (ClientSession.create setting.clientNextId setting.username
    setting.password).stateEntry
  { client := entered.1
    server := ServerConnection.start setting.serverNextId
    toServer := entered.2
    toClient := []
    exchanged := entered.2 }

/-- The server has acted and sent messages, which are now in flight to the
client. -/
def serverActed (handshake : Handshake) (acted : ServerConnection × List AuthMessage) :
    Handshake :=
  { handshake with
    server := acted.1
    toClient := handshake.toClient ++ acted.2
    exchanged := handshake.exchanged ++ acted.2 }

/-- The client has acted and sent messages, which are now in flight to the
server. -/
def clientActed (handshake : Handshake) (acted : ClientSession × List AuthMessage) :
    Handshake :=
  { handshake with
    client := acted.1
    toServer := handshake.toServer ++ acted.2
    exchanged := handshake.exchanged ++ acted.2 }

/-- One event of a handshake. Messages arrive in the order they were sent,
and a read of the client ends when the server has closed and nothing is in
flight. -/
def step (setting : HandshakeSetting) (handshake : Handshake) :
    HandshakeEvent → Option Handshake
  | .serverReceives =>
      match handshake.toServer with
      | [] => none
      | message :: later =>
          (handshake.server.receive setting.crypto setting.settings setting.challenge message).map
            fun acted => { handshake with toServer := later }.serverActed acted
  | .clientReceives =>
      match handshake.toClient with
      | [] => none
      | message :: later =>
          (handshake.client.receive setting.crypto message).map
            fun acted => { handshake with toClient := later }.clientActed acted
  | .clientReadEnds =>
      if handshake.server.closed ∧ handshake.toClient = [] then
        handshake.client.readFailed.map fun client => { handshake with client := client }
      else
        none
  | .clientWritten =>
      handshake.client.onMessageSent.map fun client => { handshake with client := client }
  | .serverWritten =>
      (handshake.server.handleWriteResult true).map fun server =>
        { handshake with server := server }
  | .lookupFinished =>
      (handshake.server.lookupFinished setting.crypto setting.storage).map
        fun server => { handshake with server := server }
  | .postedRuns => handshake.server.runPosted.map handshake.serverActed

/-- The server's end as an incoming connection that waits for its next event
and has no response under way. -/
def incoming (handshake : Handshake) : ConnectionIn := ⟨handshake.server, 0, none⟩

/-- What an event of the handshake does to the server is what the server's
connection does by itself: nothing when the client acts, the two steps of a
read when a message arrives, and one step otherwise. -/
theorem step_incoming (setting : HandshakeSetting) (handshake after : Handshake)
    (event : HandshakeEvent) (moved : step setting handshake event = some after) :
    Machine.Reaches (ConnectionIn.step setting.crypto setting.settings) handshake.incoming
      after.incoming := by
  cases event with
  | serverReceives =>
    simp only [step] at moved
    split at moved
    · cases moved
    · next message later waiting =>
      obtain ⟨⟨server, sent⟩, received, rfl⟩ := Option.map_eq_some_iff.mp moved
      exact Machine.reaches_of_run _ _ _ _
        (handshake.incoming.run_receive setting.crypto setting.settings setting.challenge message
          server sent rfl received)
  | clientReceives =>
    simp only [step] at moved
    split at moved
    · cases moved
    · obtain ⟨acted, -, rfl⟩ := Option.map_eq_some_iff.mp moved
      exact Relation.ReflTransGen.refl
  | clientReadEnds =>
    simp only [step] at moved
    split at moved
    · obtain ⟨client, -, rfl⟩ := Option.map_eq_some_iff.mp moved
      exact Relation.ReflTransGen.refl
    · cases moved
  | clientWritten =>
    obtain ⟨client, -, rfl⟩ := Option.map_eq_some_iff.mp moved
    exact Relation.ReflTransGen.refl
  | serverWritten =>
    obtain ⟨server, reported, rfl⟩ := Option.map_eq_some_iff.mp moved
    refine Relation.ReflTransGen.single ⟨.writeCompleted true, ?_⟩
    exact Option.map_eq_some_iff.mpr ⟨server, reported, rfl⟩
  | lookupFinished =>
    obtain ⟨server, finished, rfl⟩ := Option.map_eq_some_iff.mp moved
    refine Relation.ReflTransGen.single ⟨.lookupFinished setting.storage, ?_⟩
    exact Option.map_eq_some_iff.mpr ⟨server, finished, rfl⟩
  | postedRuns =>
    obtain ⟨⟨server, sent⟩, ran, rfl⟩ := Option.map_eq_some_iff.mp moved
    refine Relation.ReflTransGen.single ⟨.runPosted, ?_⟩
    exact Option.map_eq_some_iff.mpr ⟨(server, sent), ran, rfl⟩

/-- The server's part in a run of the handshake is a run of an incoming
connection. What is proved of these connections over every run holds of the
server of every handshake. -/
theorem reaches_incoming (setting : HandshakeSetting) (handshake after : Handshake)
    (reached : Machine.Reaches (step setting) handshake after) :
    Machine.Reaches (ConnectionIn.step setting.crypto setting.settings) handshake.incoming
      after.incoming := by
  refine reached.invariant
    (fun state : Handshake => Machine.Reaches (ConnectionIn.step setting.crypto setting.settings)
      handshake.incoming state.incoming) ?_ Relation.ReflTransGen.refl
  intro before event after' earlier moved
  exact Relation.ReflTransGen.trans earlier (step_incoming setting before after' event moved)

end Handshake

namespace HandshakeSetting

/-- The request of the client, by the counter of its end. It replies to
nothing. -/
def getChallenge (setting : HandshakeSetting) : AuthMessage :=
  .getChallenge ⟨setting.clientNextId + 1, 0⟩ .client

/-- The challenge of the server, in reply to the request. -/
def challengeResponse (setting : HandshakeSetting) : AuthMessage :=
  .challengeResponse ⟨setting.serverNextId + 1, setting.clientNextId + 1⟩ setting.challenge

/-- The answer of the client, in reply to the challenge, with the name that
it was given. -/
def answerChallenge (setting : HandshakeSetting) : AnswerChallengeMessage where
  identity := ⟨setting.clientNextId + 1 + 1, setting.serverNextId + 1⟩
  unameHash := setting.crypto.sha256HexString setting.username
  challengeResponse := ClientSession.answer setting.crypto setting.password setting.challenge

/-- The verdict of the server, in reply to the answer. -/
def authAck (setting : HandshakeSetting) (authorized : Bool) : AuthMessage :=
  .authAck ⟨setting.serverNextId + 1 + 1, setting.clientNextId + 1 + 1⟩ authorized

/-- The messages of the handshake, in the order they are sent. Only the
verdict is left open. -/
def script (setting : HandshakeSetting) (verdict : Bool) : List AuthMessage :=
  [setting.getChallenge, setting.challengeResponse, .answerChallenge setting.answerChallenge,
    setting.authAck verdict]

end HandshakeSetting

/-- The client waits for the challenge, with its handler in place. -/
structure ClientRequested (setting : HandshakeSetting) (client : ClientSession) : Prop where
  nextId : client.nextId = setting.clientNextId + 1
  username : client.username = setting.username
  password : client.password = setting.password
  handled : client.dispatcher.dispatch .challengeResponse (setting.clientNextId + 1) =
    .handler .onChallengeResponse
  reads : client.reads = [.unauthenticated]
  authCallbacks : client.authCallbacks = []

/-- The client waits for the acknowledgement, with its handler in place. -/
structure ClientAnswered (setting : HandshakeSetting) (client : ClientSession) : Prop where
  handled : client.dispatcher.dispatch .authAck (setting.clientNextId + 1 + 1) =
    .handler .onAuthAck
  reads : client.reads = [.unauthenticated]
  authCallbacks : client.authCallbacks = []

/-- The client has reported the verdict, and reads on if it is positive. -/
structure ClientFinished (verdict : Bool) (client : ClientSession) : Prop where
  reads : client.reads = if verdict then [.authenticated] else []
  authCallbacks : client.authCallbacks = [verdict]

/-- The server has not decided yet, and has not closed. -/
structure ServerOpen (server : ServerConnection) : Prop where
  closeAfterTransmission : server.closeAfterTransmission = false
  closed : server.closed = false
  state : server.state = .csunauthenticated

/-- The server waits for the request, and nothing else is in progress. -/
structure ServerStarted (setting : HandshakeSetting) (server : ServerConnection) : Prop
    extends ServerOpen server where
  nextId : server.nextId = setting.serverNextId
  handled : server.dispatcher.dispatch .getChallenge 0 = .handler .handleGetChallengeMessage
  reads : server.reads = [.csunauthenticated]
  lookups : server.lookups = []
  posted : server.posted = []

/-- The server has sent its challenge; it has the given reads, lookups and
posted work in progress. -/
structure ServerChallenged (setting : HandshakeSetting) (reads : List ConnectionState)
    (lookups : List AnswerChallengeMessage) (posted : List (Bool × AnswerChallengeMessage))
    (server : ServerConnection) : Prop extends ServerOpen server where
  nextId : server.nextId = setting.serverNextId + 1
  authType : server.authType = some .client
  challenge : server.challenge = setting.challenge
  handled : server.dispatcher.dispatch .answerChallenge (setting.serverNextId + 1) =
    .handler .handleAnswerChallengeMessage
  reads : server.reads = reads
  lookups : server.lookups = lookups
  posted : server.posted = posted

/-- The server has sent its verdict. Only a negative one closes the
connection, and only when it has been written. -/
structure ServerDecided (verdict : Bool) (server : ServerConnection) : Prop where
  closed : server.closed = true → verdict = false
  closeAfterTransmission : server.closeAfterTransmission = !verdict
  state : server.state = if verdict then .csauthenticated else .csunauthenticated
  lookups : server.lookups = []
  posted : server.posted = []

/-- The server answers the request with its challenge, and waits for the
answer. -/
theorem ServerStarted.receive {setting : HandshakeSetting} {server : ServerConnection}
    (started : ServerStarted setting server) :
    ∃ after, server.receive setting.crypto setting.settings setting.challenge
        setting.getChallenge = some (after, [setting.challengeResponse]) ∧
      ServerChallenged setting [.csunauthenticated] [] [] after ∧
      after.writes = server.writes + 1 := by
  have received := ServerConnection.receive_getChallenge setting.crypto setting.settings
    setting.challenge server ⟨setting.clientNextId + 1, 0⟩ .client [] started.reads started.handled
  refine ⟨({ server with reads := [] }.handleGetChallengeMessage setting.challenge
    ⟨setting.clientNextId + 1, 0⟩ .client).1, received.trans ?_, ?_, rfl⟩
  · rw [HandshakeSetting.challengeResponse, ← started.nextId]
    rfl
  · refine ⟨⟨started.closeAfterTransmission, started.closed, started.state⟩, ?_, rfl, rfl, ?_, rfl,
      started.lookups, started.posted⟩
    · rw [← started.nextId]
      rfl
    · rw [← started.nextId]
      exact MessageDispatcher.dispatch_setHandlerFor _ _ _ _

/-- The client answers the challenge, and waits for the acknowledgement. -/
theorem ClientRequested.receive {setting : HandshakeSetting} {client : ClientSession}
    (requested : ClientRequested setting client) :
    ∃ after, client.receive setting.crypto setting.challengeResponse =
        some (after, [.answerChallenge setting.answerChallenge]) ∧
      ClientAnswered setting after ∧ after.writes = client.writes + 1 := by
  have received := ClientSession.receive_challengeResponse setting.crypto client
    ⟨setting.serverNextId + 1, setting.clientNextId + 1⟩ setting.challenge [] requested.reads
    requested.handled
  refine ⟨({ client with reads := [] }.onChallengeResponse setting.crypto
    ⟨setting.serverNextId + 1, setting.clientNextId + 1⟩ setting.challenge).1,
    received.trans ?_, ?_, rfl⟩
  · rw [HandshakeSetting.answerChallenge, ← requested.nextId, ← requested.username,
      ← requested.password]
    rfl
  · refine ⟨?_, rfl, requested.authCallbacks⟩
    rw [← requested.nextId]
    exact MessageDispatcher.dispatch_setHandlerFor _ _ _ _

/-- The server looks the client up. There is no user of unit tests who would
be let in at once. -/
theorem ServerChallenged.receive {setting : HandshakeSetting} {server : ServerConnection}
    (noUnitTest : setting.settings.unitTestUsername = [])
    (challenged : ServerChallenged setting [.csunauthenticated] [] [] server) :
    ∃ after, server.receive setting.crypto setting.settings setting.challenge
        (.answerChallenge setting.answerChallenge) = some (after, []) ∧
      ServerChallenged setting [] [setting.answerChallenge] [] after ∧
      after.writes = server.writes := by
  have received := ServerConnection.receive_answerChallenge setting.crypto setting.settings
    setting.challenge server setting.answerChallenge [] challenged.reads challenged.handled
  have untested : ¬ (server.authType = some .client ∧ setting.settings.unitTestUsername ≠ [] ∧
      setting.answerChallenge.unameHash =
        setting.crypto.sha256HexString setting.settings.unitTestUsername) :=
    fun tested => tested.2.1 noUnitTest
  refine ⟨{ server with reads := [], lookups := server.lookups ++ [setting.answerChallenge] },
    received.trans ?_, ?_, rfl⟩
  · simp only [ServerConnection.handleAnswerChallengeMessage, if_neg untested,
      if_pos challenged.authType]
  · refine ⟨⟨challenged.closeAfterTransmission, challenged.closed, challenged.state⟩,
      challenged.nextId, challenged.authType, challenged.challenge, challenged.handled, rfl, ?_,
      challenged.posted⟩
    rw [challenged.lookups]
    rfl

/-- The lookup posts the verdict, on which the account and the answer
decide. -/
theorem ServerChallenged.lookupFinished {setting : HandshakeSetting} {server : ServerConnection}
    (verdict : Bool)
    (decided : UserAccount.isAuthorized setting.crypto
      (setting.storage setting.answerChallenge.unameHash) setting.challenge
      setting.answerChallenge.challengeResponse = [verdict])
    (challenged : ServerChallenged setting [] [setting.answerChallenge] [] server) :
    ∃ after, server.lookupFinished setting.crypto setting.storage = some after ∧
      ServerChallenged setting [] [] [(verdict, setting.answerChallenge)] after ∧
      after.writes = server.writes := by
  refine ⟨{ server with lookups := [], posted := [(verdict, setting.answerChallenge)] }, ?_, ?_,
    rfl⟩
  · simp [ServerConnection.lookupFinished, challenged.lookups, challenged.challenge, decided,
      challenged.posted]
  · exact ⟨⟨challenged.closeAfterTransmission, challenged.closed, challenged.state⟩,
      challenged.nextId, challenged.authType, challenged.challenge, challenged.handled,
      challenged.reads, rfl, rfl⟩

/-- The posted work sends the verdict and enters the state that goes with
it. -/
theorem ServerChallenged.runPosted {setting : HandshakeSetting} {server : ServerConnection}
    (verdict : Bool)
    (challenged : ServerChallenged setting [] [] [(verdict, setting.answerChallenge)] server) :
    ∃ after, server.runPosted = some (after, [setting.authAck verdict]) ∧
      ServerDecided verdict after ∧ after.writes = server.writes + 1 := by
  cases verdict with
  | true =>
    refine ⟨({ server with posted := [] }.successfulAuth setting.answerChallenge).1, ?_, ?_, rfl⟩
    · simp only [ServerConnection.runPosted, challenged.posted, HandshakeSetting.authAck,
        ← challenged.nextId]
      rfl
    · refine ⟨fun closed => ?_, challenged.closeAfterTransmission, rfl, challenged.lookups, rfl⟩
      exact absurd closed (by simp [ServerConnection.successfulAuth, challenged.closed])
  | false =>
    refine ⟨({ server with posted := [] }.failedAuth setting.answerChallenge).1, ?_, ?_, rfl⟩
    · simp only [ServerConnection.runPosted, challenged.posted, HandshakeSetting.authAck,
        ← challenged.nextId]
      rfl
    · exact ⟨fun _ => rfl, rfl, challenged.state, challenged.lookups, rfl⟩

/-- The client reports the verdict to its callback, once. -/
theorem ClientAnswered.receive {setting : HandshakeSetting} {client : ClientSession}
    (verdict : Bool) (answered : ClientAnswered setting client) :
    ∃ after, client.receive setting.crypto (setting.authAck verdict) = some (after, []) ∧
      ClientFinished verdict after ∧ after.writes = client.writes := by
  have received := ClientSession.receive_authAck setting.crypto client
    ⟨setting.serverNextId + 1 + 1, setting.clientNextId + 1 + 1⟩ verdict [] answered.reads
    answered.handled
  refine ⟨_, received, ?_, ?_⟩
  · cases verdict <;>
      exact ⟨rfl, by simp [ClientSession.onAuthAck, ClientSession.authCallback,
        answered.authCallbacks]⟩
  · cases verdict <;> rfl

/-- The phases of a handshake, by the last thing that happened. Reports of
writes do not change the phase. -/
inductive HandshakePhase where
  | requested
  | challenged
  | answered
  | lookedUp
  | posted
  | acknowledged
  | finished

namespace HandshakePhase

/-- What the client waits for in each phase. -/
def Client (setting : HandshakeSetting) (verdict : Bool) :
    HandshakePhase → ClientSession → Prop
  | requested | challenged => ClientRequested setting
  | answered | lookedUp | posted | acknowledged => ClientAnswered setting
  | finished => ClientFinished verdict

/-- What the server waits for in each phase. -/
def Server (setting : HandshakeSetting) (verdict : Bool) :
    HandshakePhase → ServerConnection → Prop
  | requested => ServerStarted setting
  | challenged | answered => ServerChallenged setting [.csunauthenticated] [] []
  | lookedUp => ServerChallenged setting [] [setting.answerChallenge] []
  | posted => ServerChallenged setting [] [] [(verdict, setting.answerChallenge)]
  | acknowledged | finished => ServerDecided verdict

/-- The messages in flight to the server in each phase, at most one. -/
def toServer (setting : HandshakeSetting) : HandshakePhase → List AuthMessage
  | requested => [setting.getChallenge]
  | answered => [.answerChallenge setting.answerChallenge]
  | _ => []

/-- The messages in flight to the client in each phase, at most one. -/
def toClient (setting : HandshakeSetting) (verdict : Bool) : HandshakePhase → List AuthMessage
  | challenged => [setting.challengeResponse]
  | acknowledged => [setting.authAck verdict]
  | _ => []

/-- How many messages of the script have been sent. -/
def sent : HandshakePhase → Nat
  | requested => 1
  | challenged => 2
  | answered | lookedUp | posted => 3
  | acknowledged | finished => 4

/-- A report of a write does not change what the client waits for, in any
phase. -/
theorem client_written (setting : HandshakeSetting) (verdict : Bool) (phase : HandshakePhase)
    (client : ClientSession) (writes : Nat) (waits : phase.Client setting verdict client) :
    phase.Client setting verdict { client with writes := writes } := by
  cases phase
  case requested | challenged =>
    obtain ⟨nextId, username, password, handled, reads, authCallbacks⟩ := waits
    exact ⟨nextId, username, password, handled, reads, authCallbacks⟩
  case answered | lookedUp | posted | acknowledged =>
    obtain ⟨handled, reads, authCallbacks⟩ := waits
    exact ⟨handled, reads, authCallbacks⟩
  case finished =>
    obtain ⟨reads, authCallbacks⟩ := waits
    exact ⟨reads, authCallbacks⟩

/-- Nor what the server waits for. It closes the connection after a negative
verdict only. -/
theorem server_written (setting : HandshakeSetting) (verdict : Bool) (phase : HandshakePhase)
    (server : ServerConnection) (writes : Nat) (waits : phase.Server setting verdict server) :
    phase.Server setting verdict
      ({ server with writes := writes }.closeUnless (true && !server.closeAfterTransmission)) := by
  cases phase
  case requested =>
    obtain ⟨⟨stays, closed, state⟩, nextId, handled, reads, lookups, posted⟩ := waits
    rw [stays]
    exact ⟨⟨rfl, closed, state⟩, nextId, handled, reads, lookups, posted⟩
  case challenged | answered | lookedUp | posted =>
    obtain ⟨⟨stays, closed, state⟩, nextId, authType, challenge, handled, reads, lookups, posted⟩ :=
      waits
    rw [stays]
    exact ⟨⟨rfl, closed, state⟩, nextId, authType, challenge, handled, reads, lookups, posted⟩
  case acknowledged | finished =>
    obtain ⟨closed, closes, state, lookups, posted⟩ := waits
    cases verdict with
    | true =>
      rw [closes]
      exact ⟨closed, rfl, state, lookups, posted⟩
    | false =>
      rw [closes]
      exact ⟨fun _ => rfl, rfl, state, lookups, posted⟩

end HandshakePhase

namespace Handshake

/-- A handshake that ends with the verdict is in a phase: both ends, the
messages in flight and those sent are as the phase says. -/
structure At (setting : HandshakeSetting) (verdict : Bool) (phase : HandshakePhase)
    (handshake : Handshake) : Prop where
  client : phase.Client setting verdict handshake.client
  server : phase.Server setting verdict handshake.server
  toServer : handshake.toServer = phase.toServer setting
  toClient : handshake.toClient = phase.toClient setting verdict
  exchanged : handshake.exchanged = (setting.script verdict).take phase.sent

/-- A handshake starts with the request in flight. -/
theorem start_at (setting : HandshakeSetting) (verdict : Bool) :
    At setting verdict .requested (start setting) where
  client := ⟨rfl, rfl, rfl, MessageDispatcher.dispatch_setHandlerFor _ _ _ _, rfl, rfl⟩
  server := ⟨⟨rfl, rfl, rfl⟩, rfl, MessageDispatcher.dispatch_setHandler _ _ _, rfl, rfl, rfl⟩
  toServer := rfl
  toClient := rfl
  exchanged := rfl

/-- What is left to do: messages to be sent and to arrive, work of the
server, and writes to be reported. -/
def work (handshake : Handshake) : Nat :=
  20 * (4 - handshake.exchanged.length) + 8 * handshake.toServer.length +
    6 * handshake.server.lookups.length + 4 * handshake.server.posted.length +
    2 * handshake.toClient.length + handshake.client.writes + handshake.server.writes

variable {setting : HandshakeSetting} {verdict : Bool} {phase : HandshakePhase}
  {handshake after : Handshake}

/-- A message that arrives at the server is the request or the answer. The
one is followed by the challenge, the other by a lookup. -/
theorem At.serverReceives (noUnitTest : setting.settings.unitTestUsername = [])
    (reached : At setting verdict phase handshake)
    (moved : step setting handshake .serverReceives = some after) :
    (∃ next, At setting verdict next after) ∧ after.work < handshake.work := by
  obtain ⟨client, server, toServer, toClient, exchanged⟩ := reached
  cases phase
  case requested =>
    obtain ⟨server', received, challenged, writes⟩ := ServerStarted.receive server
    simp only [step, toServer, HandshakePhase.toServer, received, Option.map_some,
      Option.some.injEq] at moved
    subst moved
    refine ⟨⟨.challenged, client, challenged, rfl, ?_, ?_⟩, ?_⟩
    · simp [serverActed, toClient, HandshakePhase.toClient]
    · simp [serverActed, exchanged, HandshakePhase.sent, HandshakeSetting.script]
    · simp [work, serverActed, toServer, toClient, exchanged, writes, challenged.lookups,
        challenged.posted, server.lookups, server.posted, HandshakePhase.toServer,
        HandshakePhase.toClient, HandshakePhase.sent, HandshakeSetting.script]
      omega
  case answered =>
    obtain ⟨server', received, looking, writes⟩ := ServerChallenged.receive noUnitTest server
    simp only [step, toServer, HandshakePhase.toServer, received, Option.map_some,
      Option.some.injEq] at moved
    subst moved
    refine ⟨⟨.lookedUp, client, looking, rfl, ?_, ?_⟩, ?_⟩
    · simp [serverActed, toClient, HandshakePhase.toClient]
    · simp [serverActed, exchanged, HandshakePhase.sent]
    · simp [work, serverActed, toServer, writes, looking.lookups, looking.posted, server.lookups,
        server.posted, HandshakePhase.toServer]
  all_goals exact absurd moved (by simp [step, toServer, HandshakePhase.toServer])

/-- A message that arrives at the client is the challenge or the verdict.
The one is answered, and the other ends the handshake. -/
theorem At.clientReceives (reached : At setting verdict phase handshake)
    (moved : step setting handshake .clientReceives = some after) :
    (∃ next, At setting verdict next after) ∧ after.work < handshake.work := by
  obtain ⟨client, server, toServer, toClient, exchanged⟩ := reached
  cases phase
  case challenged =>
    obtain ⟨client', received, answered, writes⟩ := ClientRequested.receive client
    simp only [step, toClient, HandshakePhase.toClient, received, Option.map_some,
      Option.some.injEq] at moved
    subst moved
    refine ⟨⟨.answered, answered, server, ?_, rfl, ?_⟩, ?_⟩
    · simp [clientActed, toServer, HandshakePhase.toServer]
    · simp [clientActed, exchanged, HandshakePhase.sent, HandshakeSetting.script]
    · simp [work, clientActed, toServer, toClient, exchanged, writes, HandshakePhase.toServer,
        HandshakePhase.toClient, HandshakePhase.sent, HandshakeSetting.script]
      omega
  case acknowledged =>
    obtain ⟨client', received, finished, writes⟩ := ClientAnswered.receive verdict client
    simp only [step, toClient, HandshakePhase.toClient, received, Option.map_some,
      Option.some.injEq] at moved
    subst moved
    refine ⟨⟨.finished, finished, server, ?_, rfl, ?_⟩, ?_⟩
    · simp [clientActed, toServer, HandshakePhase.toServer]
    · simp [clientActed, exchanged, HandshakePhase.sent]
    · simp [work, clientActed, toServer, toClient, writes, HandshakePhase.toClient]
  all_goals exact absurd moved (by simp [step, toClient, HandshakePhase.toClient])

/-- No read of the client ends early: the server closes only after a
negative verdict, and when that has arrived the client does not read. -/
theorem At.clientReadEnds (reached : At setting verdict phase handshake) :
    step setting handshake .clientReadEnds = none := by
  obtain ⟨client, server, toServer, toClient, exchanged⟩ := reached
  cases phase
  case requested | challenged | answered | lookedUp | posted => simp [step, server.closed]
  case acknowledged => simp [step, toClient, HandshakePhase.toClient]
  case finished =>
    by_cases closed : handshake.server.closed = true
    · have reads := client.reads
      rw [server.closed closed] at reads
      simp [step, ClientSession.readFailed, reads]
    · simp [step, closed]

/-- A report to the client leaves one write less, in the same phase. -/
theorem At.clientWritten (reached : At setting verdict phase handshake)
    (moved : step setting handshake .clientWritten = some after) :
    (∃ next, At setting verdict next after) ∧ after.work < handshake.work := by
  obtain ⟨client, reported, rfl⟩ := Option.map_eq_some_iff.mp moved
  obtain ⟨writes, started, rfl⟩ := handshake.client.onMessageSent_some client reported
  refine ⟨⟨phase, ?_, reached.server, reached.toServer, reached.toClient, reached.exchanged⟩,
    by simp [work, started]⟩
  exact HandshakePhase.client_written setting verdict phase handshake.client writes reached.client

/-- A report to the server leaves one write less, in the same phase. -/
theorem At.serverWritten (reached : At setting verdict phase handshake)
    (moved : step setting handshake .serverWritten = some after) :
    (∃ next, At setting verdict next after) ∧ after.work < handshake.work := by
  obtain ⟨server, reported, rfl⟩ := Option.map_eq_some_iff.mp moved
  obtain ⟨writes, started, rfl⟩ := handshake.server.handleWriteResult_some server true reported
  refine ⟨⟨phase, reached.client, ?_, reached.toServer, reached.toClient, reached.exchanged⟩, ?_⟩
  · exact HandshakePhase.server_written setting verdict phase handshake.server writes
      reached.server
  · simp only [work, ServerConnection.closeUnless]
    split <;> simp [started, ServerConnection.handleError]

/-- A lookup that finishes is that of the answer, and its verdict is
posted. -/
theorem At.lookupFinished
    (decided : UserAccount.isAuthorized setting.crypto
      (setting.storage setting.answerChallenge.unameHash) setting.challenge
      setting.answerChallenge.challengeResponse = [verdict])
    (reached : At setting verdict phase handshake)
    (moved : step setting handshake .lookupFinished = some after) :
    (∃ next, At setting verdict next after) ∧ after.work < handshake.work := by
  obtain ⟨client, server, toServer, toClient, exchanged⟩ := reached
  cases phase
  case lookedUp =>
    obtain ⟨server', finished, posted, writes⟩ := ServerChallenged.lookupFinished verdict decided
      server
    simp only [step, finished, Option.map_some, Option.some.injEq] at moved
    subst moved
    refine ⟨⟨.posted, client, posted, toServer, toClient, exchanged⟩, ?_⟩
    simp [work, writes, posted.lookups, posted.posted, server.lookups, server.posted]
  all_goals exact absurd moved (by simp [step, ServerConnection.lookupFinished, server.lookups])

/-- Posted work that runs is the verdict, which is then in flight. -/
theorem At.postedRuns (reached : At setting verdict phase handshake)
    (moved : step setting handshake .postedRuns = some after) :
    (∃ next, At setting verdict next after) ∧ after.work < handshake.work := by
  obtain ⟨client, server, toServer, toClient, exchanged⟩ := reached
  cases phase
  case posted =>
    obtain ⟨server', ran, decided, writes⟩ := ServerChallenged.runPosted verdict server
    simp only [step, ran, Option.map_some, Option.some.injEq] at moved
    subst moved
    refine ⟨⟨.acknowledged, client, decided, toServer, ?_, ?_⟩, ?_⟩
    · simp [serverActed, toClient, HandshakePhase.toClient]
    · simp [serverActed, exchanged, HandshakePhase.sent, HandshakeSetting.script]
    · simp [work, serverActed, toClient, exchanged, writes, decided.lookups, decided.posted,
        server.lookups, server.posted, HandshakePhase.toClient, HandshakePhase.sent,
        HandshakeSetting.script]
      omega
  all_goals exact absurd moved (by simp [step, ServerConnection.runPosted, server.posted])

/-- Every event moves the handshake to a phase and leaves less to do. So
every run comes to an end. -/
theorem At.step (noUnitTest : setting.settings.unitTestUsername = [])
    (decided : UserAccount.isAuthorized setting.crypto
      (setting.storage setting.answerChallenge.unameHash) setting.challenge
      setting.answerChallenge.challengeResponse = [verdict])
    (event : HandshakeEvent) (reached : At setting verdict phase handshake)
    (moved : Handshake.step setting handshake event = some after) :
    (∃ next, At setting verdict next after) ∧ after.work < handshake.work := by
  cases event with
  | serverReceives => exact reached.serverReceives noUnitTest moved
  | clientReceives => exact reached.clientReceives moved
  | clientReadEnds => exact absurd (reached.clientReadEnds.symm.trans moved) (by simp)
  | clientWritten => exact reached.clientWritten moved
  | serverWritten => exact reached.serverWritten moved
  | lookupFinished => exact reached.lookupFinished decided moved
  | postedRuns => exact reached.postedRuns moved

/-- Before the last phase some event is enabled. A handshake in which none
is has come to the last one. -/
theorem At.finished (noUnitTest : setting.settings.unitTestUsername = [])
    (reached : At setting verdict phase handshake)
    (halted : Machine.Halted (Handshake.step setting) handshake) :
    At setting verdict .finished handshake := by
  cases phase
  case requested =>
    obtain ⟨server, received, _⟩ := ServerStarted.receive reached.server
    have stuck := halted .serverReceives
    simp [Handshake.step, reached.toServer, HandshakePhase.toServer, received] at stuck
  case challenged =>
    obtain ⟨client, received, _⟩ := ClientRequested.receive reached.client
    have stuck := halted .clientReceives
    simp [Handshake.step, reached.toClient, HandshakePhase.toClient, received] at stuck
  case answered =>
    obtain ⟨server, received, _⟩ := ServerChallenged.receive noUnitTest reached.server
    have stuck := halted .serverReceives
    simp [Handshake.step, reached.toServer, HandshakePhase.toServer, received] at stuck
  case lookedUp =>
    have stuck := halted .lookupFinished
    simp [Handshake.step, ServerConnection.lookupFinished, reached.server.lookups] at stuck
  case posted =>
    obtain ⟨server, ran, _⟩ := ServerChallenged.runPosted verdict reached.server
    have stuck := halted .postedRuns
    simp [Handshake.step, ran] at stuck
  case acknowledged =>
    obtain ⟨client, received, _⟩ := ClientAnswered.receive verdict reached.client
    have stuck := halted .clientReceives
    simp [Handshake.step, reached.toClient, HandshakePhase.toClient, received] at stuck
  case finished => exact reached

/-- The account that `user_account::create` stored is found and enabled; the
verdict compares the hashes of the two passwords with the challenge. -/
theorem isAuthorized_create (setting : HandshakeSetting) (stored : Bytes) (level : Int32)
    (others : List UserRow) (enabled : level ≠ 0)
    (found : setting.storage (setting.crypto.sha256HexString setting.username) =
      ⟨none, (UserAccount.create setting.crypto setting.username stored level).row :: others⟩) :
    UserAccount.isAuthorized setting.crypto
        (setting.storage setting.answerChallenge.unameHash) setting.challenge
        setting.answerChallenge.challengeResponse =
      [decide (ClientSession.answer setting.crypto setting.password setting.challenge =
        ClientSession.answer setting.crypto stored setting.challenge)] := by
  have lookup : setting.storage setting.answerChallenge.unameHash = _ := found
  have account : UserAccount.Enabled (findUser
      ⟨none, (UserAccount.create setting.crypto setting.username stored level).row :: others⟩) :=
    ⟨rfl, enabled⟩
  rw [lookup, UserAccount.isAuthorized_enabled _ _ _ _ account]
  exact congrArg (fun verdict => [verdict]) (decide_eq_decide.mpr eq_comm)

/-- For every user name, stored and given password, level other than zero
and challenge, and for the account that `user_account::create` stored: from
every state of a run the handshake comes to an end, and at every end the
four messages have been exchanged with matching identifiers, the callback
has been called once, with the verdict whether the two answers to the
challenge agree, and the server is in `csauthenticated` exactly if the
verdict is true. -/
theorem handshake_agrees (setting : HandshakeSetting) (stored : Bytes) (level : Int32)
    (others : List UserRow) (enabled : level ≠ 0)
    (found : setting.storage (setting.crypto.sha256HexString setting.username) =
      ⟨none, (UserAccount.create setting.crypto setting.username stored level).row :: others⟩)
    (noUnitTest : setting.settings.unitTestUsername = []) :
    (∀ handshake, Machine.Reaches (Handshake.step setting) (start setting) handshake →
      ∃ last, Machine.Reaches (Handshake.step setting) handshake last ∧
        Machine.Halted (Handshake.step setting) last) ∧
    ∀ last, Machine.Reaches (Handshake.step setting) (start setting) last →
      Machine.Halted (Handshake.step setting) last →
      ∃ verdict : Bool,
        (verdict = true ↔
          setting.crypto.sha256HexString
              (setting.crypto.sha256HexString setting.password ++ setting.challenge) =
            setting.crypto.sha256HexString
              (setting.crypto.sha256HexString stored ++ setting.challenge)) ∧
        last.exchanged =
          [.getChallenge ⟨setting.clientNextId + 1, 0⟩ .client,
            .challengeResponse ⟨setting.serverNextId + 1, setting.clientNextId + 1⟩
              setting.challenge,
            .answerChallenge
              { identity := ⟨setting.clientNextId + 1 + 1, setting.serverNextId + 1⟩
                unameHash := setting.crypto.sha256HexString setting.username
                challengeResponse := setting.crypto.sha256HexString
                  (setting.crypto.sha256HexString setting.password ++ setting.challenge) },
            .authAck ⟨setting.serverNextId + 1 + 1, setting.clientNextId + 1 + 1⟩ verdict] ∧
        last.client.authCallbacks = [verdict] ∧
        (last.server.state = .csauthenticated ↔ verdict = true) := by
  have decided := isAuthorized_create setting stored level others enabled found
  let verdict := decide (ClientSession.answer setting.crypto setting.password setting.challenge =
    ClientSession.answer setting.crypto stored setting.challenge)
  have kept : ∀ before event after, (∃ phase, At setting verdict phase before) →
      Handshake.step setting before event = some after →
      ∃ phase, At setting verdict phase after := by
    rintro before event after ⟨phase, reached⟩ moved
    exact (reached.step noUnitTest decided event moved).1
  have initially : ∃ phase, At setting verdict phase (start setting) :=
    ⟨.requested, start_at setting verdict⟩
  constructor
  · intro handshake reached
    refine Machine.exists_halted _ (fun handshake => ∃ phase, At setting verdict phase handshake)
      work kept ?_ handshake (reached.invariant _ kept initially)
    rintro before event after ⟨phase, reached⟩ moved
    exact (reached.step noUnitTest decided event moved).2
  · intro last reached halted
    obtain ⟨phase, ended⟩ := reached.invariant _ kept initially
    have finished := ended.finished noUnitTest halted
    refine ⟨verdict, decide_eq_true_iff, finished.exchanged, finished.client.authCallbacks, ?_⟩
    rw [finished.server.state]
    cases verdict <;> simp

/-- A user with the password `[7]` that gives some password. The hash is the
identity, so that only the right one matches. -/
def guessing (password : Bytes) : HandshakeSetting where
  crypto := Crypto.plain
  settings := ⟨[], []⟩
  storage := fun _ => ⟨none, [(UserAccount.create Crypto.plain [1] [7] 1).row]⟩
  challenge := [3, 4]
  username := [1]
  password := password
  clientNextId := 0
  serverNextId := 0

/-- The right password is accepted at both ends, and a wrong one at
neither. -/
theorem handshake_agrees_guessing :
    (∃ last, Machine.Reaches (Handshake.step (guessing [7])) (start (guessing [7])) last ∧
      last.client.authCallbacks = [true] ∧ last.server.state = .csauthenticated) ∧
    ∃ last, Machine.Reaches (Handshake.step (guessing [8])) (start (guessing [8])) last ∧
      last.client.authCallbacks = [false] ∧ last.server.state ≠ .csauthenticated := by
  constructor
  · obtain ⟨ends, agrees⟩ := handshake_agrees (guessing [7]) [7] 1 [] (by decide) rfl rfl
    obtain ⟨last, reached, halted⟩ := ends _ Relation.ReflTransGen.refl
    obtain ⟨verdict, decided, _, callbacks, state⟩ := agrees last reached halted
    have accepted : verdict = true := decided.mpr rfl
    exact ⟨last, reached, accepted ▸ callbacks, state.mpr accepted⟩
  · obtain ⟨ends, agrees⟩ := handshake_agrees (guessing [8]) [7] 1 [] (by decide) rfl rfl
    obtain ⟨last, reached, halted⟩ := ends _ Relation.ReflTransGen.refl
    obtain ⟨verdict, decided, _, callbacks, state⟩ := agrees last reached halted
    have rejected : ¬ verdict = true := fun accepted => absurd (decided.mp accepted) (by decide)
    refine ⟨last, reached, ?_, fun authenticated => rejected (state.mp authenticated)⟩
    rw [callbacks, Bool.eq_false_iff.mpr rejected]

end Handshake

end Sopmq
