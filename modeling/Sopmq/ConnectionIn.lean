import Sopmq.Authentication
import Sopmq.Machine

/-!
# Incoming connections

A `connection_in` over its whole life: its two states, the reads and writes that it
has started, the lookups of users and the work posted to the io service. The peer may
send any message in any state, and operations complete in any order, with success or
not. What a completed read does is split in two steps, the status callback and then
the dispatch of the message, with nothing in between on the io thread; a lookup may
finish at any time, on a thread of its own.

Closing the socket does not take reads back: they are still reported, with an error or,
when they had completed before, with their message. A failed read also calls the
registered handlers without a message, and these return at once. What the connection
sends is left out, apart from the number of writes.

Reads are started by four handlers of two states. The invariant counts what can still
start one: a read of `csunauthenticated`, its message in processing, a lookup and a
posted success. Each of these ends in at most one other, so there is never more than
one of them.
-/

namespace Sopmq

/-- An incoming connection: what the authentication uses, the number of
writes of `csauthenticated` in progress, and the message that waits for its
dispatch, with the state whose read it completed. -/
structure ConnectionIn where
  connection : ServerConnection
  responses : Nat
  processing : Option (ConnectionState × PeerMessage)

/-- What happens to a connection. A read completes with a message or fails.
The publish handler sends any number of responses, when it is called or
later. -/
inductive IncomingEvent where
  | readCompleted (result : Option PeerMessage)
  | dispatch (randomBytes : Bytes) (responses : Nat)
  | respond
  | writeCompleted (success : Bool)
  | responseWritten (success : Bool)
  | lookupFinished (storage : Bytes → AsyncQueryState)
  | runPosted

namespace ConnectionIn

/-- `connection_in::start`, with nothing in processing. The first read is in
progress. -/
def start : ConnectionIn where
  connection := ServerConnection.start 0
  responses := 0
  processing := none

/-- A read completes: its status callback runs, and its message waits for
the dispatch. -/
def readCompleted (conn : ConnectionIn) (result : Option PeerMessage) : Option ConnectionIn :=
  match conn.connection.reads with
  | [] => none
  | owner :: reads =>
      some { conn with
        connection :=
          { conn.connection with reads := reads }.handleReadResult owner result.isSome
        processing := result.map fun message => (owner, message) }

/-- `csauthenticated` sends responses, each with an identifier of its
own. -/
def respond (conn : ConnectionIn) (responses : Nat) : ConnectionIn :=
  { conn with
    connection :=
      { conn.connection with nextId := conn.connection.nextId + UInt32.ofNat responses }
    responses := conn.responses + responses }

/-- The dispatch of a message by `csauthenticated`. What its handler does to
queues and nodes is left out here. -/
def dispatchAuthenticated (conn : ConnectionIn) (message : PeerMessage) (responses : Nat) :
    ConnectionIn :=
  match csauthenticatedDispatcher.dispatch message.type message.identity.inReplyTo with
  | .handler .handlePostMessage => conn.respond responses
  | .badFunctionCall => conn
  | .unhandled => { conn with connection := conn.connection.handleError }

/-- The message that waits is dispatched, by the state whose read brought
it. -/
def dispatch (crypto : Crypto) (settings : AuthSettings) (randomBytes : Bytes) (responses : Nat)
    (conn : ConnectionIn) : Option ConnectionIn :=
  let done := { conn with processing := none }
  match conn.processing with
  | none => none
  | some (.csunauthenticated, message) =>
      some { done with
        connection := (conn.connection.dispatch crypto settings randomBytes message).1 }
  | some (.csauthenticated, message) => some (done.dispatchAuthenticated message responses)

/-- A write of `csunauthenticated` is over, and `handle_write_result`
decides whether to close. -/
def writeCompleted (conn : ConnectionIn) (success : Bool) : Option ConnectionIn :=
  (conn.connection.handleWriteResult success).map fun connection =>
    { conn with connection := connection }

/-- `csauthenticated::handle_write_result`: the socket is closed if the
write has failed. -/
def responseWritten (conn : ConnectionIn) (success : Bool) : Option ConnectionIn :=
  match conn.responses with
  | 0 => none
  | responses + 1 =>
      some { conn with
        connection := conn.connection.closeUnless success
        responses := responses }

/-- What the io thread does when no message waits for its dispatch. Nothing
comes in between. -/
def whenIdle (conn : ConnectionIn) (next : Option ConnectionIn) : Option ConnectionIn :=
  if conn.processing.isSome then none else next

/-- One event of a connection. A lookup finishes on its own thread, so also
while a message waits. -/
def step (crypto : Crypto) (settings : AuthSettings) (conn : ConnectionIn) :
    IncomingEvent → Option ConnectionIn
  | .readCompleted result => conn.whenIdle (conn.readCompleted result)
  | .dispatch randomBytes responses => conn.dispatch crypto settings randomBytes responses
  | .respond => conn.whenIdle (some (conn.respond 1))
  | .writeCompleted success => conn.whenIdle (conn.writeCompleted success)
  | .responseWritten success => conn.whenIdle (conn.responseWritten success)
  | .lookupFinished storage =>
      (conn.connection.lookupFinished crypto storage).map fun connection =>
        { conn with connection := connection }
  | .runPosted =>
      conn.whenIdle (conn.connection.runPosted.map fun result =>
        { conn with connection := result.1 })

/-- A step that waits for its turn is made when nothing is in processing. -/
theorem whenIdle_some (conn after : ConnectionIn) (next : Option ConnectionIn)
    (moved : conn.whenIdle next = some after) : conn.processing = none ∧ next = some after := by
  unfold whenIdle at moved
  split at moved
  · exact absurd moved (by simp)
  · next idle => exact ⟨Option.not_isSome_iff_eq_none.mp idle, moved⟩

/-- A read that completes is the oldest one in progress, and goes through
the status callback of its state. -/
theorem readCompleted_some (conn after : ConnectionIn) (result : Option PeerMessage)
    (completed : conn.readCompleted result = some after) :
    ∃ owner reads, conn.connection.reads = owner :: reads ∧
      after = { conn with
        connection := { conn.connection with reads := reads }.handleReadResult owner result.isSome
        processing := result.map fun message => (owner, message) } := by
  unfold readCompleted at completed
  split at completed
  · exact absurd completed (by simp)
  · next owner reads reading => exact ⟨owner, reads, reading, (Option.some.inj completed).symm⟩

/-- A write that is over leaves everything but its count, and may close the
socket. -/
theorem writeCompleted_some (conn after : ConnectionIn) (success : Bool)
    (completed : conn.writeCompleted success = some after) :
    ∃ writes well, after = { conn with
      connection := { conn.connection with writes := writes }.closeUnless well } := by
  obtain ⟨connection, reported, rfl⟩ := Option.map_eq_some_iff.mp completed
  obtain ⟨writes, -, rfl⟩ := conn.connection.handleWriteResult_some connection success reported
  exact ⟨writes, _, rfl⟩

/-- So does a response that has been written. -/
theorem responseWritten_some (conn after : ConnectionIn) (success : Bool)
    (completed : conn.responseWritten success = some after) :
    ∃ responses, after = { conn with
      connection := conn.connection.closeUnless success, responses := responses } := by
  unfold responseWritten at completed
  split at completed
  · exact absurd completed (by simp)
  · exact ⟨_, (Option.some.inj completed).symm⟩

/-- The dispatch is that of the state whose read brought the message. There
is a message that waits. -/
theorem dispatch_some (crypto : Crypto) (settings : AuthSettings) (randomBytes : Bytes)
    (responses : Nat) (conn after : ConnectionIn)
    (dispatched : conn.dispatch crypto settings randomBytes responses = some after) :
    ∃ message,
      conn.processing = some (.csunauthenticated, message) ∧
          after = { conn with
            processing := none
            connection := (conn.connection.dispatch crypto settings randomBytes message).1 } ∨
        conn.processing = some (.csauthenticated, message) ∧
          after = { conn with processing := none }.dispatchAuthenticated message responses := by
  unfold dispatch at dispatched
  split at dispatched
  · exact absurd dispatched (by simp)
  · next message waiting => exact ⟨message, Or.inl ⟨waiting, (Option.some.inj dispatched).symm⟩⟩
  · next message waiting => exact ⟨message, Or.inr ⟨waiting, (Option.some.inj dispatched).symm⟩⟩

/-- The dispatcher of `csauthenticated` has a handler for publishes only, so
none for a message of the authentication. -/
theorem csauthenticatedDispatcher_auth (message : AuthMessage) (id : UInt32) :
    csauthenticatedDispatcher.dispatch message.type id = .unhandled := by
  cases message <;>
    simp [csauthenticatedDispatcher, AuthMessage.type, MessageDispatcher.dispatch,
      MessageDispatcher.doDispatch, MessageDispatcher.find_setHandler, MessageDispatcher.create,
      KeyedMap.find_empty]

/-- A message of the authentication that arrives takes an idle connection
through two steps, and these come to what `ServerConnection.receive` does at
once: the handshake of the two ends and the life of a connection have one
and the same server. -/
theorem run_receive (crypto : Crypto) (settings : AuthSettings) (randomBytes : Bytes)
    (conn : ConnectionIn) (message : AuthMessage) (connection : ServerConnection)
    (sent : List AuthMessage) (idle : conn.processing = none)
    (received : conn.connection.receive crypto settings randomBytes message =
      some (connection, sent)) :
    Machine.run (step crypto settings) conn
        [.readCompleted (some (.auth message)), .dispatch randomBytes 0] =
      some { conn with connection := connection } := by
  unfold ServerConnection.receive at received
  split at received
  · cases received
  · next owner reads reading =>
    cases owner with
    | csunauthenticated =>
      simp only [Option.some.injEq] at received
      simp [Machine.run, step, whenIdle, idle, readCompleted, reading, dispatch, received]
    | csauthenticated =>
      obtain ⟨rfl, rfl⟩ := Prod.mk.inj (Option.some.inj received)
      simp [Machine.run, step, whenIdle, idle, readCompleted, reading, dispatch,
        dispatchAuthenticated, PeerMessage.type, PeerMessage.identity,
        csauthenticatedDispatcher_auth]

end ConnectionIn

namespace ServerConnection

/-- The reads in progress, and what can still start one without a further
message: the lookups and the posted successes. -/
def armed (connection : ServerConnection) : Nat :=
  connection.reads.length + connection.lookups.length +
    connection.posted.countP (fun work => work.1)

/-- An open connection that is authenticated reads for `csauthenticated`,
and only for it. -/
def Listening (connection : ServerConnection) : Prop :=
  connection.closed = false → connection.state = .csauthenticated →
    connection.reads = [.csauthenticated]

/-- A closed connection need not read. -/
theorem Listening.handleError (connection : ServerConnection) :
    connection.handleError.Listening :=
  fun opened => absurd opened (by simp [ServerConnection.handleError])

/-- Closing the socket or leaving it open keeps the reads. -/
theorem Listening.closeUnless {connection : ServerConnection} (listening : connection.Listening)
    (well : Bool) : (connection.closeUnless well).Listening := by
  unfold ServerConnection.closeUnless
  split
  · exact listening
  · exact Listening.handleError connection

/-- Nor does it change what is armed: reads in progress are not taken
back. -/
theorem armed_closeUnless (connection : ServerConnection) (well : Bool) :
    (connection.closeUnless well).armed = connection.armed := by
  unfold closeUnless
  split <;> rfl

/-- When nothing is armed, the connection is closed or not authenticated,
and stays so in whatever does not change this. -/
theorem Listening.of_silent {connection after : ServerConnection}
    (listening : connection.Listening) (silent : connection.armed = 0)
    (closed : after.closed = connection.closed) (state : after.state = connection.state) :
    after.Listening := by
  intro opened authenticated
  have reading := listening (closed ▸ opened) (state ▸ authenticated)
  rw [armed, reading] at silent
  exact absurd silent (by simp)

/-- When nothing is armed, no read is in progress. -/
theorem reads_of_silent {connection : ServerConnection} (silent : connection.armed = 0) :
    connection.reads = [] := by
  rw [armed] at silent
  exact List.length_eq_zero_iff.mp (by omega)

/-- A success starts the first read of `csauthenticated`. -/
theorem armed_successfulAuth (connection : ServerConnection) (message : AnswerChallengeMessage) :
    (connection.successfulAuth message).1.armed = connection.armed + 1 := by
  simp only [armed, successfulAuth, List.length_append, List.length_singleton]
  omega

/-- A success with no read in progress starts that of `csauthenticated`, and
this is then the only one. -/
theorem listening_successfulAuth (connection : ServerConnection)
    (message : AnswerChallengeMessage) (idle : connection.reads = []) :
    (connection.successfulAuth message).1.Listening := by
  intro _ _
  simp [successfulAuth, idle]

/-- The status callback of `csauthenticated` starts the next read at once,
in place of the one that has completed. -/
theorem rearmed (connection : ServerConnection) (silent : connection.armed = 0) :
    (connection.handleReadResult .csauthenticated true).armed ≤ 1 ∧
      (connection.handleReadResult .csauthenticated true).Listening := by
  constructor
  · simp only [handleReadResult, armed, List.length_append, List.length_singleton] at silent ⊢
    omega
  · intro _ _
    simp [handleReadResult, reads_of_silent silent]

/-- The answer of the peer starts a read, a lookup or neither. A failure
only sends the verdict. -/
theorem handleAnswerChallengeMessage_armed (crypto : Crypto) (settings : AuthSettings)
    (connection : ServerConnection) (message : AnswerChallengeMessage)
    (silent : connection.armed = 0) (listening : connection.Listening) :
    (connection.handleAnswerChallengeMessage crypto settings message).1.armed ≤ 1 ∧
      (connection.handleAnswerChallengeMessage crypto settings message).1.Listening := by
  have success : (connection.successfulAuth message).1.armed ≤ 1 ∧
      (connection.successfulAuth message).1.Listening := by
    rw [armed_successfulAuth, silent]
    exact ⟨le_rfl, listening_successfulAuth connection message (reads_of_silent silent)⟩
  unfold handleAnswerChallengeMessage
  split
  · exact success
  · split
    · refine ⟨?_, listening.of_silent silent rfl rfl⟩
      simp only [armed, List.length_append, List.length_singleton] at silent ⊢
      omega
    · split
      · exact success
      · exact ⟨silent.le.trans zero_le_one, listening.of_silent silent rfl rfl⟩

/-- The dispatch of a message that `csunauthenticated` has read arms at most
one thing, whatever the message. -/
theorem dispatch_armed (crypto : Crypto) (settings : AuthSettings) (randomBytes : Bytes)
    (connection : ServerConnection) (message : PeerMessage) (silent : connection.armed = 0)
    (listening : connection.Listening) :
    (connection.dispatch crypto settings randomBytes message).1.armed ≤ 1 ∧
      (connection.dispatch crypto settings randomBytes message).1.Listening := by
  unfold dispatch
  split
  · refine ⟨?_, listening.of_silent silent rfl rfl⟩
    simp only [armed, handleGetChallengeMessage, List.length_append,
      List.length_singleton] at silent ⊢
    omega
  · exact handleAnswerChallengeMessage_armed crypto settings connection _ silent listening
  · exact ⟨silent.le.trans zero_le_one, Listening.handleError connection⟩
  · exact ⟨silent.le.trans zero_le_one, listening⟩

/-- A closed connection stays closed when a write is over. -/
theorem closeUnless_closed (connection : ServerConnection) (well : Bool)
    (closed : connection.closed = true) : (connection.closeUnless well).closed = true := by
  unfold closeUnless
  split
  · exact closed
  · rfl

/-- No handler of `csunauthenticated` opens a closed connection. -/
theorem dispatch_closed (crypto : Crypto) (settings : AuthSettings) (randomBytes : Bytes)
    (connection : ServerConnection) (message : PeerMessage) (closed : connection.closed = true) :
    (connection.dispatch crypto settings randomBytes message).1.closed = true := by
  unfold dispatch
  split
  · exact closed
  · unfold handleAnswerChallengeMessage
    split_ifs <;> exact closed
  · rfl
  · exact closed

/-- Posted work is the oldest one, and ends in one of two ways by its
verdict: a success or a failure. -/
theorem runPosted_cases (connection after : ServerConnection) (sent : List AuthMessage)
    (ran : connection.runPosted = some (after, sent)) :
    ∃ authd message posted, connection.posted = (authd, message) :: posted ∧
      (authd = true ∧ after = ({ connection with posted := posted }.successfulAuth message).1 ∨
        authd = false ∧ after = ({ connection with posted := posted }.failedAuth message).1) := by
  unfold runPosted at ran
  split at ran
  · exact absurd ran (by simp)
  · next authd message posted waiting =>
    refine ⟨authd, message, posted, waiting, ?_⟩
    obtain rfl := congrArg Prod.fst (Option.some.inj ran)
    cases authd with
    | true => exact Or.inl ⟨rfl, rfl⟩
    | false => exact Or.inr ⟨rfl, rfl⟩

/-- Posted work neither closes the connection nor opens it. A failure closes
it later, when the verdict has been written. -/
theorem runPosted_closed (connection after : ServerConnection) (sent : List AuthMessage)
    (ran : connection.runPosted = some (after, sent)) : after.closed = connection.closed := by
  obtain ⟨_, _, _, _, ⟨_, rfl⟩ | ⟨_, rfl⟩⟩ := runPosted_cases connection after sent ran
  · rfl
  · rfl

/-- An authorization reports at most one success, whatever the storage
answers. -/
theorem countP_isAuthorized (crypto : Crypto) (qstate : AsyncQueryState)
    (challengeBytes response : Bytes) :
    (UserAccount.isAuthorized crypto qstate challengeBytes response).countP
      (fun verdict => verdict) ≤ 1 := by
  unfold UserAccount.isAuthorized UserAccount.userLookupCb
  dsimp only
  split <;> split <;> simp

/-- A lookup that finishes gives its place to the success that it posts, if
there is one. It starts no read itself. -/
theorem lookupFinished_armed (crypto : Crypto) (storage : Bytes → AsyncQueryState)
    (connection after : ServerConnection)
    (finished : connection.lookupFinished crypto storage = some after) :
    after.armed ≤ connection.armed ∧ after.closed = connection.closed ∧
      after.state = connection.state ∧ after.reads = connection.reads := by
  unfold lookupFinished at finished
  split at finished
  · exact absurd finished (by simp)
  · next message lookups waiting =>
    obtain rfl := Option.some.inj finished
    refine ⟨?_, rfl, rfl, rfl⟩
    have verdicts := countP_isAuthorized crypto (storage message.unameHash) connection.challenge
      message.challengeResponse
    simp only [armed, waiting, List.length_cons, List.countP_append, List.countP_map,
      Function.comp_def]
    omega

/-- Posted work starts a read only when it reports a success, and then takes
the place of that success. -/
theorem runPosted_armed (connection after : ServerConnection) (sent : List AuthMessage)
    (listening : connection.Listening) (single : connection.armed ≤ 1)
    (ran : connection.runPosted = some (after, sent)) :
    after.armed ≤ 1 ∧ after.Listening := by
  obtain ⟨authd, message, posted, waiting, verdict⟩ := runPosted_cases connection after sent ran
  have counted : connection.armed = { connection with posted := posted }.armed +
      if authd then 1 else 0 := by
    simp only [armed, waiting, List.countP_cons]
    omega
  rcases verdict with ⟨rfl, rfl⟩ | ⟨rfl, rfl⟩
  · rw [if_pos rfl] at counted
    have silent : { connection with posted := posted }.armed = 0 := by omega
    rw [armed_successfulAuth, silent]
    exact ⟨le_rfl, listening_successfulAuth _ message (reads_of_silent silent)⟩
  · rw [if_neg Bool.false_ne_true] at counted
    exact ⟨counted.ge.trans single, listening⟩

end ServerConnection

namespace ConnectionIn

/-- What can still start a read, the message in processing included if
`csunauthenticated` has read it. -/
def starters (conn : ConnectionIn) : Nat :=
  conn.connection.armed +
    match conn.processing with
    | some (.csunauthenticated, _) => 1
    | _ => 0

/-- Nothing can start a second read, and an authenticated connection reads.
This is the invariant of every run. -/
structure Disciplined (conn : ConnectionIn) : Prop where
  single : conn.starters ≤ 1
  listening : conn.connection.Listening

/-- When no message waits, what can start a read is what is armed. -/
theorem starters_idle (conn : ConnectionIn) (idle : conn.processing = none) :
    conn.starters = conn.connection.armed := by
  simp [starters, idle]

/-- A message that `csauthenticated` has read starts nothing more, for its
status callback has read on. -/
theorem starters_reading (conn : ConnectionIn) (message : PeerMessage)
    (waiting : conn.processing = some (.csauthenticated, message)) :
    conn.starters = conn.connection.armed := by
  simp [starters, waiting]

/-- A message that `csunauthenticated` has read counts as one, since its
handler may start a read. -/
theorem starters_answering (conn : ConnectionIn) (message : PeerMessage)
    (waiting : conn.processing = some (.csunauthenticated, message)) :
    conn.starters = conn.connection.armed + 1 := by
  simp [starters, waiting]

/-- The discipline of a connection with no message waiting, from what is
armed. -/
theorem Disciplined.of_idle {conn : ConnectionIn} (idle : conn.processing = none)
    (kept : conn.connection.armed ≤ 1 ∧ conn.connection.Listening) : conn.Disciplined :=
  ⟨(starters_idle conn idle).le.trans kept.1, kept.2⟩

/-- A completed read gives its place to its message or, once authenticated,
to the next read. -/
theorem readCompleted_disciplined (conn after : ConnectionIn) (result : Option PeerMessage)
    (idle : conn.processing = none) (disciplined : conn.Disciplined)
    (completed : conn.readCompleted result = some after) : after.Disciplined := by
  obtain ⟨single, listening⟩ := disciplined
  rw [starters_idle conn idle] at single
  obtain ⟨owner, reads, reading, rfl⟩ := readCompleted_some conn after result completed
  have counted : conn.connection.armed = { conn.connection with reads := reads }.armed + 1 := by
    simp only [ServerConnection.armed, reading, List.length_cons]
    omega
  have silent : { conn.connection with reads := reads }.armed = 0 := by omega
  cases result with
  | none =>
    apply Disciplined.of_idle rfl
    cases owner <;> exact ⟨silent.le.trans zero_le_one, ServerConnection.Listening.handleError _⟩
  | some message =>
    cases owner with
    | csunauthenticated =>
      refine ⟨(starters_answering _ message rfl).le.trans (Nat.succ_le_succ silent.le), ?_⟩
      intro opened authenticated
      exact absurd ((listening opened authenticated).symm.trans reading) (by simp)
    | csauthenticated =>
      have rearmed := ServerConnection.rearmed _ silent
      exact ⟨(starters_reading _ message rfl).le.trans rearmed.1, rearmed.2⟩

/-- The dispatch by `csauthenticated` sends responses or closes the socket,
and starts no read. -/
theorem dispatchAuthenticated_disciplined (conn : ConnectionIn) (message : PeerMessage)
    (responses : Nat) (disciplined : conn.Disciplined) :
    (conn.dispatchAuthenticated message responses).Disciplined := by
  obtain ⟨single, listening⟩ := disciplined
  unfold dispatchAuthenticated
  split
  · exact ⟨single, listening⟩
  · exact ⟨single, listening⟩
  · exact ⟨single, ServerConnection.Listening.handleError _⟩

/-- The dispatch of the message in processing keeps the discipline, by the
state whose read brought it. -/
theorem dispatch_disciplined (crypto : Crypto) (settings : AuthSettings) (randomBytes : Bytes)
    (responses : Nat) (conn after : ConnectionIn) (disciplined : conn.Disciplined)
    (dispatched : conn.dispatch crypto settings randomBytes responses = some after) :
    after.Disciplined := by
  obtain ⟨single, listening⟩ := disciplined
  obtain ⟨message, ⟨waiting, rfl⟩ | ⟨waiting, rfl⟩⟩ :=
    dispatch_some crypto settings randomBytes responses conn after dispatched
  · rw [starters_answering conn message waiting] at single
    apply Disciplined.of_idle rfl
    exact ServerConnection.dispatch_armed crypto settings randomBytes conn.connection message
      (by omega) listening
  · rw [starters_reading conn message waiting] at single
    exact dispatchAuthenticated_disciplined { conn with processing := none } message responses
      (Disciplined.of_idle rfl ⟨single, listening⟩)

/-- A write that is over starts no read, whether it closes the connection or
not. -/
theorem closeUnless_disciplined (conn : ConnectionIn) (connection : ServerConnection)
    (well : Bool) (idle : conn.processing = none) (single : connection.armed ≤ 1)
    (listening : connection.Listening) (closed : conn.connection = connection.closeUnless well) :
    conn.Disciplined := by
  apply Disciplined.of_idle idle
  rw [closed, ServerConnection.armed_closeUnless]
  exact ⟨single, listening.closeUnless well⟩

/-- Every step keeps the discipline: what starts a read gives up its own
place. -/
theorem step_disciplined (crypto : Crypto) (settings : AuthSettings) (conn : ConnectionIn)
    (event : IncomingEvent) (after : ConnectionIn) (disciplined : conn.Disciplined)
    (moved : conn.step crypto settings event = some after) : after.Disciplined := by
  cases event with
  | readCompleted result =>
    obtain ⟨idle, completed⟩ := whenIdle_some _ _ _ moved
    exact readCompleted_disciplined conn after result idle disciplined completed
  | dispatch randomBytes responses =>
    exact dispatch_disciplined crypto settings randomBytes responses conn after disciplined moved
  | respond =>
    obtain ⟨_, responded⟩ := whenIdle_some _ _ _ moved
    obtain rfl := Option.some.inj responded
    exact ⟨disciplined.single, disciplined.listening⟩
  | writeCompleted success =>
    obtain ⟨idle, completed⟩ := whenIdle_some _ _ _ moved
    obtain ⟨writes, well, rfl⟩ := writeCompleted_some conn after success completed
    have single := (starters_idle conn idle).ge.trans disciplined.single
    exact closeUnless_disciplined _ { conn.connection with writes := writes } well idle single
      disciplined.listening rfl
  | responseWritten success =>
    obtain ⟨idle, completed⟩ := whenIdle_some _ _ _ moved
    obtain ⟨responses, rfl⟩ := responseWritten_some conn after success completed
    have single := (starters_idle conn idle).ge.trans disciplined.single
    exact closeUnless_disciplined _ conn.connection success idle single disciplined.listening rfl
  | lookupFinished storage =>
    obtain ⟨connection, finished, rfl⟩ := Option.map_eq_some_iff.mp moved
    obtain ⟨fewer, closed, state, reads⟩ :=
      ServerConnection.lookupFinished_armed crypto storage conn.connection connection finished
    refine ⟨(Nat.add_le_add_right fewer _).trans disciplined.single, ?_⟩
    intro opened authenticated
    exact reads.trans (disciplined.listening (closed ▸ opened) (state ▸ authenticated))
  | runPosted =>
    obtain ⟨idle, posted⟩ := whenIdle_some _ _ _ moved
    obtain ⟨⟨connection, sent⟩, ran, rfl⟩ := Option.map_eq_some_iff.mp posted
    have single := (starters_idle conn idle).ge.trans disciplined.single
    exact Disciplined.of_idle idle
      (ServerConnection.runPosted_armed conn.connection connection sent disciplined.listening
        single ran)

/-- A connection that has just started reads once, and has nothing else that
could start a read. -/
theorem start_disciplined : start.Disciplined :=
  ⟨by decide, fun _ authenticated => absurd authenticated (by decide)⟩

/-- The read discipline, over every run: whatever the peer sends, however
operations complete and whatever the lookups answer, there is never more
than one read in progress, and there is exactly one in an open authenticated
connection that processes no message. -/
theorem reads_once (crypto : Crypto) (settings : AuthSettings) (conn : ConnectionIn)
    (reached : Machine.Reaches (step crypto settings) start conn) :
    conn.connection.reads.length ≤ 1 ∧
      (conn.connection.closed = false → conn.connection.state = .csauthenticated →
        conn.processing = none → conn.connection.reads.length = 1) := by
  have disciplined : conn.Disciplined :=
    reached.invariant Disciplined (step_disciplined crypto settings) start_disciplined
  constructor
  · calc conn.connection.reads.length
        ≤ conn.connection.armed :=
          (Nat.le_add_right _ _).trans (Nat.le_add_right _ _)
      _ ≤ conn.starters := Nat.le_add_right _ _
      _ ≤ 1 := disciplined.single
  · intro opened authenticated _
    rw [disciplined.listening opened authenticated]
    rfl

/-- No event opens a closed connection again. Events go on until nothing is
in progress. -/
theorem step_closed (crypto : Crypto) (settings : AuthSettings) (conn : ConnectionIn)
    (event : IncomingEvent) (after : ConnectionIn) (closed : conn.connection.closed = true)
    (moved : conn.step crypto settings event = some after) : after.connection.closed = true := by
  cases event with
  | readCompleted result =>
    obtain ⟨_, completed⟩ := whenIdle_some _ _ _ moved
    obtain ⟨owner, reads, _, rfl⟩ := readCompleted_some conn after result completed
    cases owner <;> cases result <;> first | exact closed | rfl
  | dispatch randomBytes responses =>
    obtain ⟨message, ⟨_, rfl⟩ | ⟨_, rfl⟩⟩ :=
      dispatch_some crypto settings randomBytes responses conn after moved
    · exact ServerConnection.dispatch_closed crypto settings randomBytes _ message closed
    · unfold dispatchAuthenticated
      split <;> first | exact closed | rfl
  | respond =>
    obtain ⟨_, responded⟩ := whenIdle_some _ _ _ moved
    obtain rfl := Option.some.inj responded
    exact closed
  | writeCompleted success =>
    obtain ⟨_, completed⟩ := whenIdle_some _ _ _ moved
    obtain ⟨writes, well, rfl⟩ := writeCompleted_some conn after success completed
    exact ServerConnection.closeUnless_closed _ well closed
  | responseWritten success =>
    obtain ⟨_, completed⟩ := whenIdle_some _ _ _ moved
    obtain ⟨responses, rfl⟩ := responseWritten_some conn after success completed
    exact ServerConnection.closeUnless_closed _ success closed
  | lookupFinished storage =>
    obtain ⟨connection, finished, rfl⟩ := Option.map_eq_some_iff.mp moved
    exact (ServerConnection.lookupFinished_armed crypto storage _ _ finished).2.1.trans closed
  | runPosted =>
    obtain ⟨_, posted⟩ := whenIdle_some _ _ _ moved
    obtain ⟨⟨connection, sent⟩, ran, rfl⟩ := Option.map_eq_some_iff.mp posted
    exact (ServerConnection.runPosted_closed _ connection sent ran).trans closed

/-- The unit test user is the one byte `1`, and there is no ring key. -/
def loginSettings : AuthSettings := ⟨[1], []⟩

/-- The unit test user asks for the challenge and answers it, and is let in
without a lookup. -/
def loginEvents : List IncomingEvent :=
  [.readCompleted (some (.auth (.getChallenge ⟨1, 0⟩ .client))), .dispatch [] 0,
    .readCompleted (some (.auth (.answerChallenge ⟨⟨2, 1⟩, [1], []⟩))), .dispatch [] 0]

/-- After the login the connection reads once, for `csauthenticated`, and
waits for publishes. -/
theorem reads_once_login :
    ∃ conn, Machine.run (step Crypto.plain loginSettings) start loginEvents = some conn ∧
      conn.connection.closed = false ∧ conn.connection.state = .csauthenticated ∧
      conn.processing = none ∧ conn.connection.reads.length = 1 := by
  refine ⟨_, rfl, rfl, rfl, rfl, ?_⟩
  exact (reads_once Crypto.plain loginSettings _
    (Machine.reaches_of_run _ start _ loginEvents rfl)).2 rfl rfl rfl

end ConnectionIn

end Sopmq
