import Sopmq.Authentication
import Sopmq.Machine

/-!
# Runs of a client that authenticates

The client's end of the authentication, against a server and a network that may do
anything. Its sends complete or fail in any order, and so do its reads; the server sends
any messages, challenges again and again among them. A message of a type that the
authentication does not know has no handler, like a `GetChallenge`.

Three functions call the callback that was given to `session::authenticate`:
`on_message_sent` and `on_message_received` for a failure, and `on_auth_ack`. No more than
one read of the unauthenticated state is in progress at a time, and a read that ends in a
failure or in an AuthAck starts no other; so the reads account for at most one call. Every
failed send accounts for one more.
-/

namespace Sopmq

/-- A message of the type of AuthAcks is one. -/
theorem AuthMessage.exists_of_type_authAck (message : AuthMessage)
    (typed : message.type = .authAck) :
    ∃ identity authorized, message = .authAck identity authorized := by
  cases message with
  | authAck identity authorized => exact ⟨identity, authorized, rfl⟩
  | getChallenge | challengeResponse | answerChallenge => cases typed

namespace ClientSession

/-- `unauthenticated_state::on_message_sent` for a send that failed, which
calls the callback. -/
def sendFailed (session : ClientSession) : Option ClientSession :=
  session.onMessageSent.map fun written => written.authCallback false

/-- The message is read by the unauthenticated state and goes to
`on_auth_ack`, because a handler for its identifier is there. -/
def CallsOnAuthAck (session : ClientSession) (message : AuthMessage) : Prop :=
  session.reads.head? = some .unauthenticated ∧ message.type = .authAck ∧
    session.dispatcher.dispatch message.type message.identity.inReplyTo = .handler .onAuthAck

instance (session : ClientSession) (message : AuthMessage) :
    Decidable (session.CallsOnAuthAck message) :=
  inferInstanceAs (Decidable (_ ∧ _))

/-- The reads of the unauthenticated state that are in progress. Those of
the authenticated state do not call the callback. -/
def loginReads (session : ClientSession) : Nat := session.reads.count .unauthenticated

/-- A failed read of the unauthenticated state calls the callback and is
over. One of the authenticated state calls nothing. -/
theorem readFailed_cases (session after : ClientSession)
    (failed : session.readFailed = some after) :
    (session.reads.head? = some .unauthenticated ∧
      after.loginReads + 1 = session.loginReads ∧
      after.authCallbacks.length = session.authCallbacks.length + 1) ∨
    (session.reads.head? ≠ some .unauthenticated ∧ after.loginReads = session.loginReads ∧
      after.authCallbacks = session.authCallbacks) := by
  unfold readFailed at failed
  split at failed
  · exact absurd failed (by simp)
  · next reads waiting =>
    obtain rfl := Option.some.inj failed
    exact Or.inr ⟨by simp [waiting], by simp [loginReads, waiting], rfl⟩
  · next reads waiting =>
    obtain rfl := Option.some.inj failed
    exact Or.inl ⟨by simp [waiting], by simp [loginReads, authCallback, waiting],
      by simp [authCallback]⟩

/-- A message calls the callback exactly if it goes to `on_auth_ack`, and
its read is then over without another. Any other message starts at most one
read in place of its own. -/
theorem receive_cases (crypto : Crypto) (session : ClientSession) (message : AuthMessage)
    (after : ClientSession) (sent : List AuthMessage)
    (received : session.receive crypto message = some (after, sent)) :
    (session.CallsOnAuthAck message ∧ after.loginReads + 1 = session.loginReads ∧
      after.authCallbacks.length = session.authCallbacks.length + 1) ∨
    (¬ session.CallsOnAuthAck message ∧ after.loginReads ≤ session.loginReads ∧
      after.authCallbacks = session.authCallbacks) := by
  unfold receive at received
  split at received
  · exact absurd received (by simp)
  · next reads waiting =>
    cases received
    exact Or.inr ⟨by simp [CallsOnAuthAck, waiting],
      by simp [loginReads, protocolViolation, waiting], rfl⟩
  · next reads waiting =>
    split at received
    · cases received
      exact Or.inr ⟨by simp [CallsOnAuthAck, AuthMessage.type],
        by simp [loginReads, waiting], rfl⟩
    · next identity authorized handled =>
      cases received
      refine Or.inl ⟨⟨by simp [waiting], rfl, handled⟩, ?_, ?_⟩
      · cases authorized <;> simp [loginReads, onAuthAck, authCallback, waiting]
      · cases authorized <;> simp [onAuthAck, authCallback]
    · next unhandled =>
      cases received
      refine Or.inr ⟨?_, by simp [loginReads, protocolViolation, waiting], rfl⟩
      rintro ⟨-, typed, handled⟩
      obtain ⟨identity, authorized, same⟩ := AuthMessage.exists_of_type_authAck _ typed
      exact unhandled identity authorized handled same

end ClientSession

/-- A client that authenticates, with the number of its sends that failed,
of the reads that failed while it was unauthenticated, and of the AuthAcks
that it handled, and with the messages that it has sent and read. -/
structure LoginRun where
  session : ClientSession
  failedSends : Nat
  failedReads : Nat
  acks : Nat
  sent : List AuthMessage
  received : List AuthMessage

/-- A send completes, or a read does, each with success or not. -/
inductive LoginEvent where
  | sent
  | sendFailed
  | received (message : AuthMessage)
  | readFailed
deriving DecidableEq, Repr

namespace LoginRun

/-- `session::authenticate`: the request is being sent, and the first read
is in progress. -/
def start (nextId : UInt32) (username password : Bytes) : LoginRun where
  session := (ClientSession.create nextId username password).stateEntry.1
  failedSends := 0
  failedReads := 0
  acks := 0
  sent := (ClientSession.create nextId username password).stateEntry.2
  received := []

/-- What an event does to the session, to the counts and to the record of
messages. The last two are read by nothing. -/
def step (crypto : Crypto) (run : LoginRun) : LoginEvent → Option LoginRun
  | .sent => run.session.onMessageSent.map fun session => { run with session := session }
  | .sendFailed =>
      run.session.sendFailed.map fun session =>
        { run with session := session, failedSends := run.failedSends + 1 }
  | .received message =>
      (run.session.receive crypto message).map fun received =>
        { run with
          session := received.1
          acks := if run.session.CallsOnAuthAck message then run.acks + 1 else run.acks
          sent := run.sent ++ received.2
          received := run.received ++ [message] }
  | .readFailed =>
      run.session.readFailed.map fun session =>
        { run with
          session := session
          failedReads :=
            if run.session.reads.head? = some .unauthenticated then run.failedReads + 1
            else run.failedReads }

/-- The account of a run: every call of the callback has its cause, and the
reads have caused at most one, and none while one of them is in progress. -/
structure Accounted (run : LoginRun) : Prop where
  calls : run.session.authCallbacks.length = run.failedSends + run.failedReads + run.acks
  reads : run.failedReads + run.acks + run.session.loginReads ≤ 1

/-- Every event keeps the account: a failed send adds its own call, and a
read that calls is not replaced. -/
theorem step_accounted (crypto : Crypto) (run : LoginRun) (event : LoginEvent) (after : LoginRun)
    (accounted : run.Accounted) (moved : run.step crypto event = some after) :
    after.Accounted := by
  obtain ⟨calls, reads⟩ := accounted
  cases event with
  | sent =>
    obtain ⟨session, completed, rfl⟩ := Option.map_eq_some_iff.mp moved
    obtain ⟨writes, -, rfl⟩ := run.session.onMessageSent_some session completed
    exact ⟨calls, reads⟩
  | sendFailed =>
    obtain ⟨session, failed, rfl⟩ := Option.map_eq_some_iff.mp moved
    obtain ⟨written, completed, rfl⟩ := Option.map_eq_some_iff.mp failed
    obtain ⟨writes, -, rfl⟩ := run.session.onMessageSent_some written completed
    refine ⟨?_, reads⟩
    simp only [ClientSession.authCallback, List.length_append, List.length_singleton]
    omega
  | received message =>
    obtain ⟨⟨session, sent⟩, received, rfl⟩ := Option.map_eq_some_iff.mp moved
    rcases run.session.receive_cases crypto message session sent received with
      ⟨acked, fewer, called⟩ | ⟨other, fewer, kept⟩
    · simp only [if_pos acked]
      constructor <;> simp only <;> omega
    · simp only [if_neg other]
      constructor <;> simp only [kept] <;> omega
  | readFailed =>
    obtain ⟨session, failed, rfl⟩ := Option.map_eq_some_iff.mp moved
    rcases run.session.readFailed_cases session failed with
      ⟨waiting, fewer, called⟩ | ⟨other, fewer, kept⟩
    · simp only [if_pos waiting]
      constructor <;> simp only <;> omega
    · simp only [if_neg other]
      constructor <;> simp only [kept] <;> omega

/-- In every state of every run, the callback has been called once for each
failed send, and once more if a read failed or an AuthAck was handled. It
has been called at most once exactly when no send failed, or one did and the
reads have reported nothing. -/
theorem auth_callback_once_iff (crypto : Crypto) (nextId : UInt32) (username password : Bytes)
    (run : LoginRun)
    (reached : Machine.Reaches (step crypto) (start nextId username password) run) :
    run.failedReads + run.acks ≤ 1 ∧
    run.session.authCallbacks.length = run.failedSends + run.failedReads + run.acks ∧
    (run.session.authCallbacks.length ≤ 1 ↔
      run.failedSends = 0 ∨
        run.failedSends = 1 ∧ run.failedReads = 0 ∧ run.acks = 0) := by
  obtain ⟨calls, reads⟩ : run.Accounted :=
    reached.invariant Accounted (step_accounted crypto) ⟨rfl, le_refl 1⟩
  refine ⟨?_, calls, ?_⟩ <;> omega

/-- A login without failures, up to the positive AuthAck. -/
def smoothLogin : List LoginEvent :=
  [.sent, .received (.challengeResponse ⟨9, 3⟩ [5]), .sent, .received (.authAck ⟨10, 4⟩ true)]

/-- The statement at this run, in which the callback is called once. -/
theorem auth_callback_once_smooth :
    ∃ run, Machine.run (step Crypto.plain) (start 2 [1] [2]) smoothLogin = some run ∧
      run.session.authCallbacks = [true] ∧
      run.failedReads + run.acks ≤ 1 ∧
      run.session.authCallbacks.length = run.failedSends + run.failedReads + run.acks ∧
      (run.session.authCallbacks.length ≤ 1 ↔
        run.failedSends = 0 ∨
          run.failedSends = 1 ∧ run.failedReads = 0 ∧ run.acks = 0) :=
  ⟨_, rfl, rfl, auth_callback_once_iff Crypto.plain 2 [1] [2] _
    (Machine.reaches_of_run _ (start 2 [1] [2]) _ smoothLogin rfl)⟩

/-- The connection breaks before the request for a challenge is sent: the
send fails and the read fails, and each of them calls the callback. -/
theorem broken_connection_calls_twice :
    ∃ run, Machine.run (step Crypto.plain) (start 2 [1] [2]) [.sendFailed, .readFailed] = some run ∧
      run.session.authCallbacks = [false, false] :=
  ⟨_, rfl, rfl⟩

end LoginRun

end Sopmq
