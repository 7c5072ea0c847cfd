import Sopmq.LoginRuns

/-!
# What a client discloses

A client that authenticates against a server that may send anything. Of its password it sends
answers to challenges and nothing else, and each answer is for a challenge that was sent in reply
to its request. It takes itself to be let in only for an AuthAck in reply to an answer that it has
given.

The number of answers is not bounded. The handler of challenges stays in its place, since it is
cleared under identifier zero and stands under that of the request. So a server may ask for as many
answers as it likes, to challenges of its own choice.
-/

namespace Sopmq

namespace MessageDispatcher

variable {H : Type} {dispatcher : MessageDispatcher H} {type other : MessageType} {id : UInt32}
  {handler : H}

/-- A handler that is left after one was cleared was there before, under the
same type and identifier. -/
theorem handler_of_cleared
    (found : (dispatcher.setHandler type none).dispatch other id = .handler handler) :
    dispatcher.dispatch other id = .handler handler := by
  rw [dispatch, doDispatch, find_setHandler] at found
  by_cases cleared : other = type ∧ id = 0
  · rw [if_pos cleared] at found
    cases found
  · rw [if_neg cleared] at found
    exact found

/-- A handler that is there after one was registered is that one, or was
there before. -/
theorem handler_of_registered {registered : H} {inReplyTo : UInt32}
    (found : (dispatcher.setHandlerFor type (some registered) inReplyTo).dispatch other id =
      .handler handler) :
    (other = type ∧ id = inReplyTo) ∨ dispatcher.dispatch other id = .handler handler := by
  by_cases same : other = type ∧ id = inReplyTo
  · exact Or.inl same
  · rw [dispatch, doDispatch, find_setHandlerFor, if_neg same] at found
    exact Or.inr found

end MessageDispatcher

namespace LoginRun

/-- The request for a challenge, which carries nothing of the name or the
password. -/
def request (nextId : UInt32) : AuthMessage := .getChallenge ⟨nextId + 1, 0⟩ .client

/-- The message is the answer to a challenge that was received in reply to
the request, under whatever identifier it is sent. -/
def Answers (crypto : Crypto) (nextId : UInt32) (username password : Bytes)
    (received : List AuthMessage) (message : AuthMessage) : Prop :=
  ∃ response challenge id, .challengeResponse response challenge ∈ received ∧
    response.inReplyTo = nextId + 1 ∧
    message = .answerChallenge
      { identity := ⟨id, response.id⟩
        unameHash := crypto.sha256HexString username
        challengeResponse := ClientSession.answer crypto password challenge }

/-- The identifier is that of an answer that was sent, so that an AuthAck
may reply to it. -/
def AnswerSent (sent : List AuthMessage) (id : UInt32) : Prop :=
  ∃ answer : AnswerChallengeMessage, .answerChallenge answer ∈ sent ∧ answer.identity.id = id

/-- What holds of a client in every run. Its handlers are kept track of,
since they decide what it will answer and accept. -/
structure Discreet (crypto : Crypto) (nextId : UInt32) (username password : Bytes)
    (run : LoginRun) : Prop where
  own : run.session.username = username ∧ run.session.password = password
  disclosed : ∀ message ∈ run.sent, message = request nextId ∨
    Answers crypto nextId username password run.received message
  challenges : ∀ id handler,
    run.session.dispatcher.dispatch .challengeResponse id = .handler handler → id = nextId + 1
  acks : ∀ id handler,
    run.session.dispatcher.dispatch .authAck id = .handler handler → AnswerSent run.sent id
  letIn : run.session.state = .authenticated →
    ∃ identity, .authAck identity true ∈ run.received ∧ AnswerSent run.sent identity.inReplyTo

section Steps

variable {crypto : Crypto} {nextId : UInt32} {username password : Bytes} {run : LoginRun}

/-- An answer that was sent has been sent at every later time. -/
theorem AnswerSent.mono {sent more : List AuthMessage} {id : UInt32} (answered : AnswerSent sent id)
    (longer : sent ⊆ more) : AnswerSent more id := by
  obtain ⟨answer, member, same⟩ := answered
  exact ⟨answer, longer member, same⟩

/-- A challenge that was received has been received at every later time. -/
theorem Answers.mono {received more : List AuthMessage} {message : AuthMessage}
    (answers : Answers crypto nextId username password received message)
    (longer : received ⊆ more) : Answers crypto nextId username password more message := by
  obtain ⟨response, challenge, id, member, rest⟩ := answers
  exact ⟨response, challenge, id, longer member, rest⟩

/-- A change that has nothing to do with what the client sends, and does not
let it in, keeps it discreet. More messages may have been read, and the
counts do not matter. -/
theorem Discreet.frame {after : LoginRun} (discreet : Discreet crypto nextId username password run)
    (username' : after.session.username = run.session.username)
    (password' : after.session.password = run.session.password)
    (dispatcher : after.session.dispatcher = run.session.dispatcher)
    (state : after.session.state = run.session.state) (sent : after.sent = run.sent)
    (received : run.received ⊆ after.received) :
    Discreet crypto nextId username password after where
  own := ⟨username'.trans discreet.own.1, password'.trans discreet.own.2⟩
  disclosed message member := (discreet.disclosed message (sent ▸ member)).imp id fun answers =>
    answers.mono received
  challenges id handler found := discreet.challenges id handler (dispatcher ▸ found)
  acks id handler found := sent ▸ discreet.acks id handler (dispatcher ▸ found)
  letIn granted := by
    obtain ⟨identity, read, answered⟩ := discreet.letIn (state ▸ granted)
    exact ⟨identity, received read, sent ▸ answered⟩

/-- A challenge is answered: the answer is one for a challenge that was read
in reply to the request, and its identifier is the one that an AuthAck is
then taken for. -/
theorem Discreet.onChallengeResponse {after : LoginRun}
    (discreet : Discreet crypto nextId username password run) (response : Identifier)
    (challenge : Bytes) (reads : List SessionState) (asked : response.inReplyTo = nextId + 1)
    (session : after.session = ({ run.session with reads := reads }.onChallengeResponse crypto
      response challenge).1)
    (sent : after.sent = run.sent ++ ({ run.session with reads := reads }.onChallengeResponse
      crypto response challenge).2)
    (received : after.received = run.received ++ [.challengeResponse response challenge]) :
    Discreet crypto nextId username password after := by
  obtain ⟨own, disclosed, challenges, acks, letIn⟩ := discreet
  refine ⟨?_, ?_, ?_, ?_, ?_⟩
  · rw [session]
    exact own
  · rw [sent, received]
    intro message member
    rcases List.mem_append.mp member with earlier | last
    · exact (disclosed message earlier).imp id fun answers =>
        answers.mono (List.subset_append_left _ _)
    · refine Or.inr ⟨response, challenge, run.session.nextId + 1,
        List.mem_append_right _ List.mem_cons_self, asked, ?_⟩
      rw [← own.1, ← own.2]
      exact List.mem_singleton.mp last
  · rw [session]
    intro id handler found
    rcases MessageDispatcher.handler_of_registered found with ⟨impossible, -⟩ | earlier
    · cases impossible
    · exact challenges id handler (MessageDispatcher.handler_of_cleared earlier)
  · rw [session, sent]
    intro id handler found
    rcases MessageDispatcher.handler_of_registered found with ⟨-, rfl⟩ | earlier
    · exact ⟨_, List.mem_append_right _ List.mem_cons_self, rfl⟩
    · exact (acks id handler (MessageDispatcher.handler_of_cleared earlier)).mono
        (List.subset_append_left _ _)
  · rw [session, sent, received]
    intro granted
    obtain ⟨identity, read, answered⟩ := letIn granted
    exact ⟨identity, List.mem_append_left _ read, answered.mono (List.subset_append_left _ _)⟩

/-- An AuthAck in reply to an answer is taken. If it is positive the client
is let in, and this AuthAck is the one that allows it. -/
theorem Discreet.onAuthAck {after : LoginRun}
    (discreet : Discreet crypto nextId username password run) (identity : Identifier)
    (authorized : Bool) (reads : List SessionState)
    (answered : AnswerSent run.sent identity.inReplyTo)
    (session : after.session = { run.session with reads := reads }.onAuthAck authorized)
    (sent : after.sent = run.sent)
    (received : after.received = run.received ++ [.authAck identity authorized]) :
    Discreet crypto nextId username password after := by
  have longer : run.received ⊆ after.received := received ▸ List.subset_append_left _ _
  cases authorized with
  | false =>
    refine discreet.frame ?_ ?_ ?_ ?_ sent longer <;> rw [session] <;> rfl
  | true =>
    obtain ⟨own, disclosed, challenges, acks, -⟩ := discreet
    refine ⟨?_, ?_, ?_, ?_, ?_⟩
    · rw [session]
      exact own
    · rw [sent]
      intro message member
      exact (disclosed message member).imp id fun answers => answers.mono longer
    · rw [session]
      exact challenges
    · rw [session, sent]
      exact acks
    · rw [sent, received]
      exact fun _ => ⟨identity, List.mem_append_right _ List.mem_cons_self, answered⟩

/-- A message is read: the challenge and the AuthAck have handlers that keep
the client discreet, and every other message is a violation of the protocol
that sends nothing. -/
theorem Discreet.receive {after : LoginRun}
    (discreet : Discreet crypto nextId username password run) (message : AuthMessage)
    (sent : List AuthMessage)
    (read : run.session.receive crypto message = some (after.session, sent))
    (recorded : after.sent = run.sent ++ sent)
    (received : after.received = run.received ++ [message]) :
    Discreet crypto nextId username password after := by
  have longer : run.received ⊆ after.received := received ▸ List.subset_append_left _ _
  have violated : ∀ session : ClientSession, some (session, []) = some (after.session, sent) →
      session.username = run.session.username → session.password = run.session.password →
      session.dispatcher = run.session.dispatcher → session.state = run.session.state →
      Discreet crypto nextId username password after := by
    intro session same username' password' dispatcher state
    obtain ⟨rfl, rfl⟩ := Prod.mk.inj (Option.some.inj same)
    exact discreet.frame username' password' dispatcher state
      (recorded.trans (List.append_nil _)) longer
  unfold ClientSession.receive at read
  split at read
  · cases read
  · exact violated _ read rfl rfl rfl rfl
  · next reads waiting =>
    split at read
    · next response challenge found =>
      obtain ⟨session, rfl⟩ := Prod.mk.inj (Option.some.inj read)
      exact discreet.onChallengeResponse response challenge reads
        (discreet.challenges _ _ found) session.symm recorded received
    · next identity authorized found =>
      obtain ⟨session, rfl⟩ := Prod.mk.inj (Option.some.inj read)
      exact discreet.onAuthAck identity authorized reads (discreet.acks _ _ found) session.symm
        (recorded.trans (List.append_nil _)) received
    · exact violated _ read rfl rfl rfl rfl

/-- Every event of a run keeps a client discreet. Only a message that is
read changes what it has sent, and only a positive AuthAck its state. -/
theorem Discreet.step (discreet : Discreet crypto nextId username password run)
    (event : LoginEvent) (after : LoginRun) (moved : run.step crypto event = some after) :
    Discreet crypto nextId username password after := by
  cases event with
  | sent =>
    obtain ⟨session, reported, rfl⟩ := Option.map_eq_some_iff.mp moved
    obtain ⟨writes, -, rfl⟩ := run.session.onMessageSent_some session reported
    exact discreet.frame rfl rfl rfl rfl rfl (List.Subset.refl _)
  | sendFailed =>
    obtain ⟨session, failed, rfl⟩ := Option.map_eq_some_iff.mp moved
    obtain ⟨written, reported, rfl⟩ := Option.map_eq_some_iff.mp failed
    obtain ⟨writes, -, rfl⟩ := run.session.onMessageSent_some written reported
    exact discreet.frame rfl rfl rfl rfl rfl (List.Subset.refl _)
  | received message =>
    obtain ⟨⟨session, sent⟩, received, rfl⟩ := Option.map_eq_some_iff.mp moved
    exact discreet.receive message sent received rfl rfl
  | readFailed =>
    obtain ⟨session, failed, rfl⟩ := Option.map_eq_some_iff.mp moved
    unfold ClientSession.readFailed at failed
    split at failed
    · cases failed
    · cases failed
      exact discreet.frame rfl rfl rfl rfl rfl (List.Subset.refl _)
    · cases failed
      exact discreet.frame rfl rfl rfl rfl rfl (List.Subset.refl _)

end Steps

/-- At the start only the request has been sent, and the one handler is that
of the challenge in reply to it. -/
theorem start_discreet (crypto : Crypto) (nextId : UInt32) (username password : Bytes) :
    Discreet crypto nextId username password (start nextId username password) where
  own := ⟨rfl, rfl⟩
  disclosed message member := Or.inl (List.mem_singleton.mp member)
  challenges id handler found := by
    rcases MessageDispatcher.handler_of_registered found with ⟨-, same⟩ | none
    · exact same
    · cases none
  acks id handler found := by
    rcases MessageDispatcher.handler_of_registered found with ⟨impossible, -⟩ | none
    · cases impossible
    · cases none
  letIn granted := by cases granted

/-- Over every run against any server: what a client sends is its request
for a challenge and answers to challenges that were sent in reply to the
request, each with the hash of the name and that of the password with the
challenge. It is authenticated only when it has read a positive AuthAck in
reply to one of these answers. -/
theorem client_discloses_answers (crypto : Crypto) (nextId : UInt32) (username password : Bytes)
    (run : LoginRun)
    (reached : Machine.Reaches (step crypto) (start nextId username password) run) :
    (∀ message ∈ run.sent, message = request nextId ∨
      Answers crypto nextId username password run.received message) ∧
    (run.session.state = .authenticated →
      ∃ identity, .authAck identity true ∈ run.received ∧
        AnswerSent run.sent identity.inReplyTo) := by
  have discreet : Discreet crypto nextId username password run :=
    reached.invariant (Discreet crypto nextId username password)
      (fun _ event after before moved => before.step event after moved)
      (start_discreet crypto nextId username password)
  exact ⟨discreet.disclosed, discreet.letIn⟩

/-- A server asks for two answers in reply to one request, and acknowledges
the second one. -/
def twoChallenges : List LoginEvent :=
  [.received (.challengeResponse ⟨1, 1⟩ [7]), .received (.challengeResponse ⟨2, 1⟩ [8]),
    .received (.authAck ⟨3, 3⟩ true)]

/-- The client gives both answers, and is let in by the AuthAck to the
second. -/
theorem client_discloses_answers_twice :
    ∃ run, Machine.run (step Crypto.plain) (start 0 [1] [9]) twoChallenges =
        some run ∧
      run.sent.length = 3 ∧ run.session.state = .authenticated ∧
      ∃ identity, .authAck identity true ∈ run.received ∧
        AnswerSent run.sent identity.inReplyTo :=
  ⟨_, rfl, rfl, rfl, (client_discloses_answers Crypto.plain 0 [1] [9] _
    (Machine.reaches_of_run _ _ _ twoChallenges rfl)).2 rfl⟩

end LoginRun

end Sopmq
