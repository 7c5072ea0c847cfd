import Sopmq.ConnectionIn

/-!
# What lets a peer in

An incoming connection against a peer that sends what it likes. The peer is let in only for an
answer to the challenge that this connection drew for it, and the answer shows that the peer knows
the secret it is asked for: the password hash of the account, or the key of the ring. A user for
unit tests is let in by name. For a name that is not stored, the account is the default one and its
password hash is empty.

The handler of the request for a challenge is removed when it has run, and nothing reads on after
an answer but a success. So a connection that is not let in reads two messages at most: each
connection gives one challenge and takes one answer.
-/

namespace Sopmq

open ConnectionIn

namespace IncomingEvent

/-- A read that brings a message, as opposed to one that fails. -/
def brings : IncomingEvent → Bool
  | .readCompleted (some _) => true
  | _ => false

end IncomingEvent

/-- The number of messages that were read in a run. -/
def messagesRead (events : List IncomingEvent) : Nat := events.countP IncomingEvent.brings

/-- The peer asks for a challenge, and the challenge is drawn. The given
events come later, in their order. -/
def Challenged (events : List IncomingEvent) (type : AuthType) (challenge : Bytes)
    (later : List IncomingEvent) : Prop :=
  ∃ identity responses,
    (.readCompleted (some (.auth (.getChallenge identity type))) ::
      .dispatch challenge responses :: later).Sublist events

/-- What an answer to a challenge shows: the name for unit tests, the
password hash of an account, or the key of the ring. -/
inductive Shown (crypto : Crypto) (settings : AuthSettings) (events : List IncomingEvent)
    (challenge : Bytes) (answer : AnswerChallengeMessage) : AuthType → Prop
  /-- The name of the user for unit tests, when there is one. -/
  | unitTest (named : settings.unitTestUsername ≠ [])
      (same : answer.unameHash = crypto.sha256HexString settings.unitTestUsername) :
      Shown crypto settings events challenge answer .client
  /-- The password hash of the account that the lookup gives for the name,
  empty if there is none. -/
  | password (storage : Bytes → AsyncQueryState) (asked : .lookupFinished storage ∈ events)
      (response : answer.challengeResponse =
        UserAccount.goodResponse crypto (findUser (storage answer.unameHash)).account challenge) :
      Shown crypto settings events challenge answer .client
  /-- The key of the ring. -/
  | ringKey (response : answer.challengeResponse =
      crypto.sha256HexString (settings.ringKeyHash ++ challenge)) :
      Shown crypto settings events challenge answer .server

/-- What has happened in a run has happened in every longer one. -/
theorem Challenged.mono {events more : List IncomingEvent} {type : AuthType} {challenge : Bytes}
    {later : List IncomingEvent} (challenged : Challenged events type challenge later)
    (longer : events.Sublist more) : Challenged more type challenge later := by
  obtain ⟨identity, responses, within⟩ := challenged
  exact ⟨identity, responses, within.trans longer⟩

/-- An event that follows the challenge comes later than it. -/
theorem Challenged.append {events : List IncomingEvent} {type : AuthType} {challenge : Bytes}
    (challenged : Challenged events type challenge []) (event : IncomingEvent) :
    Challenged (events ++ [event]) type challenge [event] := by
  obtain ⟨identity, responses, within⟩ := challenged
  exact ⟨identity, responses, within.append (List.Sublist.refl [event])⟩

/-- An answer shows no less when more has happened. -/
theorem Shown.mono {crypto : Crypto} {settings : AuthSettings} {events more : List IncomingEvent}
    {challenge : Bytes} {answer : AnswerChallengeMessage} {type : AuthType}
    (shown : Shown crypto settings events challenge answer type) (longer : events ⊆ more) :
    Shown crypto settings more challenge answer type := by
  cases shown with
  | unitTest named same => exact .unitTest named same
  | password storage asked response => exact .password storage (longer asked) response
  | ringKey response => exact .ringKey response

/-- A positive verdict is for the good response. The rejection of a missing
user does not take it back. -/
theorem response_of_authorized (crypto : Crypto) (qstate : AsyncQueryState)
    (challenge response : Bytes)
    (authorized : true ∈ UserAccount.isAuthorized crypto qstate challenge response) :
    response = UserAccount.goodResponse crypto (findUser qstate).account challenge := by
  unfold UserAccount.isAuthorized UserAccount.userLookupCb at authorized
  dsimp only at authorized
  by_cases good : UserAccount.goodResponse crypto (findUser qstate).account challenge = response
  · exact good.symm
  · rw [if_neg (by simpa using good)] at authorized
    split at authorized <;> simp at authorized

namespace ServerConnection

/-- A connection that waits for a message of the authentication: nothing is
looked up or posted, and every read is one of `csunauthenticated`. -/
structure Waiting (connection : ServerConnection) : Prop where
  state : connection.state = .csunauthenticated
  lookups : connection.lookups = []
  posted : connection.posted = []
  owners : ∀ owner ∈ connection.reads, owner = .csunauthenticated

/-- No handler takes messages of the type, whatever they reply to. -/
def Deaf (connection : ServerConnection) (type : MessageType) : Prop :=
  ∀ id, connection.dispatcher.dispatch type id = .unhandled

/-- As long as there was no request for a challenge, there is no handler for
answers. -/
theorem deaf_of_fresh {connection : ServerConnection}
    (fresh : connection.dispatcher = (start 0).dispatcher) : connection.Deaf .answerChallenge := by
  intro id
  rw [fresh]
  simp [start, MessageDispatcher.dispatch, MessageDispatcher.doDispatch,
    MessageDispatcher.find_setHandler, MessageDispatcher.create, KeyedMap.find_empty]

/-- The handler of the first request for a challenge takes itself away, as
it stands under identifier zero. A second request has no handler. -/
theorem deaf_of_challenged (randomBytes : Bytes) {connection : ServerConnection}
    (message : Identifier) (type : AuthType)
    (fresh : connection.dispatcher = (start 0).dispatcher) :
    (connection.handleGetChallengeMessage randomBytes message type).1.Deaf .getChallenge := by
  intro id
  simp only [handleGetChallengeMessage, fresh, start, MessageDispatcher.dispatch,
    MessageDispatcher.doDispatch, MessageDispatcher.find_setHandlerFor,
    MessageDispatcher.find_setHandler, MessageDispatcher.create, KeyedMap.find_empty]
  by_cases zero : id = 0 <;> simp [zero]

/-- The dispatch of a message ends in one of three ways: a request is taken,
an answer is taken, or nothing but the socket changes. -/
theorem dispatch_cases (crypto : Crypto) (settings : AuthSettings) (randomBytes : Bytes)
    (connection : ServerConnection) (message : PeerMessage) :
    (∃ identity type, message = .auth (.getChallenge identity type) ∧
        ¬ connection.Deaf .getChallenge ∧
        (connection.dispatch crypto settings randomBytes message).1 =
          (connection.handleGetChallengeMessage randomBytes identity type).1) ∨
      (∃ answer, message = .auth (.answerChallenge answer) ∧
        ¬ connection.Deaf .answerChallenge ∧
        (connection.dispatch crypto settings randomBytes message).1 =
          (connection.handleAnswerChallengeMessage crypto settings answer).1) ∨
      ∃ closed, (connection.dispatch crypto settings randomBytes message).1 =
        { connection with closed := closed } := by
  unfold dispatch
  split
  · next identity type found =>
    refine Or.inl ⟨identity, type, rfl, ?_, rfl⟩
    intro deaf
    rw [PeerMessage.type, AuthMessage.type, deaf] at found
    cases found
  · next answer found =>
    refine Or.inr (Or.inl ⟨answer, rfl, ?_, rfl⟩)
    intro deaf
    rw [PeerMessage.type, AuthMessage.type, deaf] at found
    cases found
  · exact Or.inr (Or.inr ⟨true, rfl⟩)
  · exact Or.inr (Or.inr ⟨connection.closed, rfl⟩)

end ServerConnection

namespace ConnectionIn

/-- A message that waits for its dispatch was read by the given state, and
is known to have been read in the given way. -/
def Pending (conn : ConnectionIn) (owner : ConnectionState) (Read : PeerMessage → Prop) : Prop :=
  ∀ state message, conn.processing = some (state, message) → state = owner ∧ Read message

/-- A connection that waits for a message of the authentication, and has
read as many messages as it may have. -/
structure Quiet (limit : Nat) (events : List IncomingEvent) (Read : PeerMessage → Prop)
    (conn : ConnectionIn) : Prop where
  waiting : conn.connection.Waiting
  pending : conn.Pending .csunauthenticated Read
  counted : messagesRead events + conn.connection.reads.length ≤ limit

/-- A connection that has taken an answer: whatever can still let the peer
in, or has done so, rests on what the answer shows. -/
structure Decided (crypto : Crypto) (settings : AuthSettings) (events : List IncomingEvent)
    (type : AuthType) (challenge : Bytes) (answer : AnswerChallengeMessage)
    (conn : ConnectionIn) : Prop where
  lookups : ∀ message ∈ conn.connection.lookups, message = answer ∧ type = .client
  posted : ∀ message, (true, message) ∈ conn.connection.posted →
    Shown crypto settings events challenge answer type
  granted : conn.connection.state = .csauthenticated →
    Shown crypto settings events challenge answer type
  owners : ∀ owner ∈ conn.connection.reads, owner = .csauthenticated
  pending : conn.Pending .csauthenticated fun _ => True
  refused : conn.connection.state = .csunauthenticated →
    conn.connection.reads = [] ∧ messagesRead events ≤ 2

/-- How far the authentication of a connection has come: it waits for the
request, it waits for the answer, or it has taken one. -/
inductive Stage (crypto : Crypto) (settings : AuthSettings) (events : List IncomingEvent)
    (conn : ConnectionIn) : Prop
  | opening
      (quiet : Quiet 1 events (fun message => .readCompleted (some message) ∈ events) conn)
      (fresh : conn.connection.dispatcher = (ServerConnection.start 0).dispatcher)
  | asked (type : AuthType) (challenge : Bytes)
      (quiet : Quiet 2 events
        (fun message => Challenged events type challenge [.readCompleted (some message)]) conn)
      (authType : conn.connection.authType = some type)
      (drawn : conn.connection.challenge = challenge)
      (deaf : conn.connection.Deaf .getChallenge)
      (challenged : Challenged events type challenge [])
  | answered (type : AuthType) (challenge : Bytes) (answer : AnswerChallengeMessage)
      (drawn : conn.connection.challenge = challenge)
      (challenged : Challenged events type challenge
        [.readCompleted (some (.auth (.answerChallenge answer)))])
      (decided : Decided crypto settings events type challenge answer conn)

/-- The parts of a connection that its authentication depends on. The
counter, the writes and the socket are not among them. -/
def standing (conn : ConnectionIn) :=
  (conn.connection.state, conn.connection.reads, conn.connection.lookups, conn.connection.posted,
    conn.connection.dispatcher, conn.connection.authType, conn.connection.challenge,
    conn.processing)

/-- One event more is one message more if it brings one. -/
theorem messagesRead_append (events : List IncomingEvent) (event : IncomingEvent) :
    messagesRead (events ++ [event]) = messagesRead events + if event.brings then 1 else 0 := by
  rw [messagesRead, List.countP_append, List.countP_singleton, messagesRead]

/-- Nothing is asked of a connection with no message in processing. -/
theorem Pending.of_none {conn : ConnectionIn} (owner : ConnectionState)
    (Read : PeerMessage → Prop) (idle : conn.processing = none) : conn.Pending owner Read := by
  intro state message waiting
  rw [idle] at waiting
  cases waiting

/-- The message in processing is the one that was read. -/
theorem Pending.of_some {conn : ConnectionIn} {owner : ConnectionState} {message : PeerMessage}
    {Read : PeerMessage → Prop} (waiting : conn.processing = some (owner, message))
    (read : Read message) : conn.Pending owner Read := by
  intro state other found
  cases waiting.symm.trans found
  exact ⟨rfl, read⟩

/-- Less may be known of a message that goes on waiting. -/
theorem Pending.mono {conn after : ConnectionIn} {owner : ConnectionState}
    {Read Read' : PeerMessage → Prop} (pending : conn.Pending owner Read)
    (same : after.processing = conn.processing) (weaker : ∀ message, Read message → Read' message) :
    after.Pending owner Read' := by
  intro state message waiting
  obtain ⟨sameOwner, read⟩ := pending state message (same.symm.trans waiting)
  exact ⟨sameOwner, weaker message read⟩

section Steps

variable {crypto : Crypto} {settings : AuthSettings} {events : List IncomingEvent}
  {conn after : ConnectionIn}

/-- An event that brings no message and changes no part of the
authentication leaves the stage as it is. -/
theorem Stage.frame (stage : Stage crypto settings events conn) (event : IncomingEvent)
    (silent : event.brings = false) (same : after.standing = conn.standing) :
    Stage crypto settings (events ++ [event]) after := by
  have longer : events.Sublist (events ++ [event]) := List.sublist_append_left events [event]
  have read : messagesRead (events ++ [event]) = messagesRead events := by
    rw [messagesRead_append, silent]
    rfl
  simp only [standing, Prod.mk.injEq] at same
  obtain ⟨state, reads, lookups, posted, dispatcher, authType, challenge, processing⟩ := same
  have quiet : ∀ limit Read Read', Quiet limit events Read conn →
      (∀ message, Read message → Read' message) → Quiet limit (events ++ [event]) Read' after := by
    rintro limit Read Read' ⟨⟨state', lookups', posted', owners⟩, pending, counted⟩ weaker
    exact ⟨⟨state.trans state', lookups.trans lookups', posted.trans posted', reads ▸ owners⟩,
      pending.mono processing weaker,
      (congrArg₂ (· + ·) read (congrArg List.length reads)).trans_le counted⟩
  cases stage with
  | opening waits fresh =>
    exact .opening (quiet _ _ _ waits fun message member => longer.subset member)
      (dispatcher.trans fresh)
  | asked type drawn waits asking same deaf challenged =>
    refine .asked type drawn (quiet _ _ _ waits fun message earlier => earlier.mono longer)
      (authType.trans asking) (challenge.trans same) ?_ (challenged.mono longer)
    intro id
    exact (congrArg (fun table => table.dispatch .getChallenge id) dispatcher).trans (deaf id)
  | answered type drawn answer same challenged decided =>
    refine .answered type drawn answer (challenge.trans same) (challenged.mono longer) ?_
    exact
      { lookups := lookups ▸ decided.lookups
        posted := fun message member =>
          (decided.posted message (posted ▸ member)).mono longer.subset
        granted := fun granted => (decided.granted (state ▸ granted)).mono longer.subset
        owners := reads ▸ decided.owners
        pending := decided.pending.mono processing fun _ read => read
        refused := fun refused =>
          have before := decided.refused (state ▸ refused)
          ⟨reads.trans before.1, read.trans_le before.2⟩ }

/-- A message that waits for its dispatch may be forgotten, which a dispatch
does first. -/
theorem Stage.forget (stage : Stage crypto settings events conn) :
    Stage crypto settings events { conn with processing := none } := by
  cases stage with
  | opening waits fresh => exact .opening ⟨waits.waiting, .of_none _ _ rfl, waits.counted⟩ fresh
  | asked type drawn waits asking same deaf challenged =>
    exact .asked type drawn ⟨waits.waiting, .of_none _ _ rfl, waits.counted⟩ asking same deaf
      challenged
  | answered type drawn answer same challenged decided =>
    exact .answered type drawn answer same challenged
      { decided with pending := .of_none _ _ rfl }

/-- A read of a connection that waits completes. It is counted where it was
in progress, and no other is started. -/
theorem Quiet.readCompleted {limit : Nat} {Read : PeerMessage → Prop}
    (quiet : Quiet limit events Read conn) (result : Option PeerMessage)
    (completed : conn.readCompleted result = some after) (Next : PeerMessage → Prop)
    (brought : ∀ message, result = some message → Next message) :
    Quiet limit (events ++ [.readCompleted result]) Next after ∧
      ∃ closed reads, after.connection =
        { conn.connection with closed := closed, reads := reads } := by
  obtain ⟨owner, reads, reading, rfl⟩ := readCompleted_some conn after result completed
  obtain ⟨⟨state, lookups, posted, owners⟩, _, counted⟩ := quiet
  obtain rfl := owners owner (reading ▸ List.mem_cons_self)
  have others : ∀ owner ∈ reads, owner = ConnectionState.csunauthenticated :=
    fun owner member => owners owner (reading ▸ List.mem_cons_of_mem _ member)
  rw [reading, List.length_cons] at counted
  cases result with
  | none =>
    refine ⟨⟨⟨state, lookups, posted, others⟩, .of_none _ _ rfl, ?_⟩, true, reads, rfl⟩
    rw [messagesRead_append]
    exact (Nat.add_le_add_left (Nat.le_succ reads.length) _).trans counted
  | some message =>
    refine ⟨⟨⟨state, lookups, posted, others⟩, .of_some rfl (brought message rfl), ?_⟩,
      conn.connection.closed, reads, rfl⟩
    rw [messagesRead_append, Nat.add_right_comm]
    exact counted

/-- A read of a connection that has taken an answer completes: the peer has
been let in, so the count of messages does not matter. -/
theorem Decided.readCompleted {type : AuthType} {challenge : Bytes}
    {answer : AnswerChallengeMessage}
    (decided : Decided crypto settings events type challenge answer conn)
    (result : Option PeerMessage) (completed : conn.readCompleted result = some after) :
    Decided crypto settings (events ++ [.readCompleted result]) type challenge answer after ∧
      after.connection.challenge = conn.connection.challenge := by
  obtain ⟨owner, reads, reading, rfl⟩ := readCompleted_some conn after result completed
  obtain rfl := decided.owners owner (reading ▸ List.mem_cons_self)
  have others : ∀ owner ∈ reads, owner = ConnectionState.csauthenticated :=
    fun owner member => decided.owners owner (reading ▸ List.mem_cons_of_mem _ member)
  have unrefused : conn.connection.state ≠ .csunauthenticated := by
    intro refused
    cases (decided.refused refused).1.symm.trans reading
  have granted : conn.connection.state = .csauthenticated := by
    cases state : conn.connection.state with
    | csunauthenticated => exact absurd state unrefused
    | csauthenticated => rfl
  have shown := (decided.granted granted).mono
    (List.subset_append_left events [IncomingEvent.readCompleted result])
  cases result with
  | none =>
    exact ⟨{ lookups := decided.lookups
             posted := fun _ _ => shown
             granted := fun _ => shown
             owners := others
             pending := .of_none _ _ rfl
             refused := fun refused => absurd refused unrefused }, rfl⟩
  | some message =>
    refine ⟨{ lookups := decided.lookups
              posted := fun _ _ => shown
              granted := fun _ => shown
              owners := ?_
              pending := .of_some rfl trivial
              refused := fun refused => absurd refused unrefused }, rfl⟩
    intro owner member
    rcases List.mem_append.mp member with earlier | next
    · exact others owner earlier
    · exact List.mem_singleton.mp next

/-- A completed read leaves the stage as it is, and its message waits for
its dispatch. -/
theorem Stage.readCompleted (stage : Stage crypto settings events conn)
    (result : Option PeerMessage) (completed : conn.readCompleted result = some after) :
    Stage crypto settings (events ++ [.readCompleted result]) after := by
  have longer : events.Sublist (events ++ [IncomingEvent.readCompleted result]) :=
    List.sublist_append_left events _
  cases stage with
  | opening waits fresh =>
    obtain ⟨quiet, closed, reads, same⟩ := waits.readCompleted result completed
      (fun message => .readCompleted (some message) ∈ events ++ [.readCompleted result])
      fun message brought => brought ▸ List.mem_append_right _ (List.mem_singleton_self _)
    refine .opening quiet ?_
    rw [same]
    exact fresh
  | asked type drawn waits asking known deaf challenged =>
    obtain ⟨quiet, closed, reads, same⟩ := waits.readCompleted result completed
      (fun message => Challenged (events ++ [.readCompleted result]) type drawn
        [.readCompleted (some message)])
      fun message brought => brought ▸ challenged.append _
    refine .asked type drawn quiet ?_ ?_ ?_ (challenged.mono longer)
    · rw [same]
      exact asking
    · rw [same]
      exact known
    · rw [same]
      exact deaf
  | answered type drawn answer known challenged decided =>
    obtain ⟨still, same⟩ := decided.readCompleted result completed
    exact .answered type drawn answer (same.trans known) (challenged.mono longer) still

/-- The answer to a challenge is taken: a user for unit tests is let in by
name, a client is looked up, and a server is compared with the key. -/
theorem Decided.of_answer {type : AuthType} {challenge : Bytes} (answer : AnswerChallengeMessage)
    (waiting : conn.connection.Waiting) (silent : conn.connection.reads = [])
    (few : messagesRead events ≤ 2) (authType : conn.connection.authType = some type)
    (drawn : conn.connection.challenge = challenge) :
    Decided crypto settings events type challenge answer
        { conn with
          processing := none
          connection :=
            (conn.connection.handleAnswerChallengeMessage crypto settings answer).1 } ∧
      (conn.connection.handleAnswerChallengeMessage crypto settings answer).1.challenge =
        challenge := by
  obtain ⟨state, lookups, posted, -⟩ := waiting
  have success : Shown crypto settings events challenge answer type →
      Decided crypto settings events type challenge answer
        { conn with
          processing := none, connection := (conn.connection.successfulAuth answer).1 } := by
    intro shown
    refine
      { lookups := ?_
        posted := fun _ _ => shown
        granted := fun _ => shown
        owners := ?_
        pending := .of_none _ _ rfl
        refused := fun refused => by cases refused }
    · simp [ServerConnection.successfulAuth, lookups]
    · simp [ServerConnection.successfulAuth, silent]
  unfold ServerConnection.handleAnswerChallengeMessage
  split
  · next unitTest =>
    obtain ⟨client, named, same⟩ := unitTest
    cases Option.some.inj (authType.symm.trans client)
    exact ⟨success (.unitTest named same), drawn⟩
  · split
    · next client =>
      cases Option.some.inj (authType.symm.trans client)
      refine ⟨?_, drawn⟩
      exact
        { lookups := by simp [lookups]
          posted := by simp [posted]
          granted := fun granted => by cases state.symm.trans granted
          owners := by simp [silent]
          pending := .of_none _ _ rfl
          refused := fun _ => ⟨silent, few⟩ }
    · next notClient =>
      have server : type = .server := by
        cases type with
        | client => exact absurd authType notClient
        | server => rfl
      split
      · next response =>
        refine ⟨success ?_, drawn⟩
        rw [server]
        exact .ringKey (drawn ▸ response)
      · refine ⟨?_, drawn⟩
        exact
          { lookups := by simp [ServerConnection.failedAuth, lookups]
            posted := by simp [ServerConnection.failedAuth, posted]
            granted := fun granted => by cases state.symm.trans granted
            owners := by simp [ServerConnection.failedAuth, silent]
            pending := .of_none _ _ rfl
            refused := fun _ => ⟨silent, few⟩ }

/-- The challenge for a peer is drawn, and the connection waits for the
answer. -/
theorem Stage.of_challenge (quiet : Quiet 1 events
      (fun message => IncomingEvent.readCompleted (some message) ∈ events) conn)
    (fresh : conn.connection.dispatcher = (ServerConnection.start 0).dispatcher)
    (identity : Identifier) (type : AuthType) (randomBytes : Bytes) (responses : Nat)
    (requested :
      IncomingEvent.readCompleted (some (.auth (.getChallenge identity type))) ∈ events) :
    Stage crypto settings (events ++ [.dispatch randomBytes responses])
      { conn with
        processing := none
        connection :=
          (conn.connection.handleGetChallengeMessage randomBytes identity type).1 } := by
  obtain ⟨⟨state, lookups, posted, owners⟩, _, counted⟩ := quiet
  refine .asked type randomBytes ⟨⟨state, lookups, posted, ?_⟩, .of_none _ _ rfl, ?_⟩ rfl rfl
    (ServerConnection.deaf_of_challenged randomBytes identity type fresh)
    ⟨identity, responses, (List.singleton_sublist.mpr requested).append (List.Sublist.refl _)⟩
  · intro owner member
    rcases List.mem_append.mp member with earlier | next
    · exact owners owner earlier
    · exact List.mem_singleton.mp next
  · simp only [messagesRead_append, IncomingEvent.brings,
      ServerConnection.handleGetChallengeMessage, List.length_append, List.length_singleton]
    simp only [Bool.false_eq_true, if_false]
    omega

/-- The message that waits is dispatched. A request or an answer leads to
the next stage, where there is a handler for it. -/
theorem Stage.dispatch (stage : Stage crypto settings events conn)
    (disciplined : conn.Disciplined) (randomBytes : Bytes) (responses : Nat)
    (dispatched : conn.dispatch crypto settings randomBytes responses = some after) :
    Stage crypto settings (events ++ [.dispatch randomBytes responses]) after := by
  obtain ⟨message, ⟨waiting, rfl⟩ | ⟨waiting, rfl⟩⟩ :=
    dispatch_some crypto settings randomBytes responses conn after dispatched
  · have silent : conn.connection.armed = 0 := by
      have single := disciplined.single
      rw [starters_answering conn message waiting] at single
      omega
    have longer : events.Sublist (events ++ [IncomingEvent.dispatch randomBytes responses]) :=
      List.sublist_append_left events _
    obtain ⟨identity, type, rfl, heard, taken⟩ | ⟨answer, rfl, heard, taken⟩ | ⟨closed, taken⟩ :=
      conn.connection.dispatch_cases crypto settings randomBytes message
    · rw [taken]
      cases stage with
      | opening waits fresh =>
        exact Stage.of_challenge waits fresh identity type randomBytes responses
          (waits.pending _ _ waiting).2
      | asked _ _ _ _ _ deaf _ => exact absurd deaf heard
      | answered _ _ _ _ _ decided => cases (decided.pending _ _ waiting).1
    · rw [taken]
      cases stage with
      | opening _ fresh => exact absurd (ServerConnection.deaf_of_fresh fresh) heard
      | asked type drawn waits asking known _ _ =>
        have few : messagesRead (events ++ [.dispatch randomBytes responses]) ≤ 2 := by
          rw [messagesRead_append]
          exact (Nat.le_add_right _ _).trans waits.counted
        obtain ⟨decided, same⟩ := Decided.of_answer answer waits.waiting
          (ServerConnection.reads_of_silent silent) few asking known
        exact .answered type drawn answer same ((waits.pending _ _ waiting).2.mono longer) decided
      | answered _ _ _ _ _ decided => cases (decided.pending _ _ waiting).1
    · rw [taken]
      exact stage.forget.frame _ rfl rfl
  · refine stage.forget.frame _ rfl ?_
    unfold dispatchAuthenticated
    split <;> rfl

/-- The oldest lookup finishes, which is one for the answer. It posts a
success only for the good response. -/
theorem Stage.lookupFinished (stage : Stage crypto settings events conn)
    (storage : Bytes → AsyncQueryState) (connection : ServerConnection)
    (finished : conn.connection.lookupFinished crypto storage = some connection) :
    Stage crypto settings (events ++ [.lookupFinished storage])
      { conn with connection := connection } := by
  have longer : events.Sublist (events ++ [IncomingEvent.lookupFinished storage]) :=
    List.sublist_append_left events _
  unfold ServerConnection.lookupFinished at finished
  split at finished
  · cases finished
  · next message lookups looking =>
    obtain rfl := Option.some.inj finished
    cases stage with
    | opening waits _ => cases waits.waiting.lookups.symm.trans looking
    | asked _ _ waits _ _ _ _ => cases waits.waiting.lookups.symm.trans looking
    | answered type drawn answer known challenged decided =>
      obtain ⟨rfl, rfl⟩ := decided.lookups message (looking ▸ List.mem_cons_self)
      refine .answered _ drawn message known (challenged.mono longer) ?_
      refine
        { lookups := fun other member =>
            decided.lookups other (looking ▸ List.mem_cons_of_mem _ member)
          posted := ?_
          granted := fun granted => (decided.granted granted).mono longer.subset
          owners := decided.owners
          pending := decided.pending
          refused := ?_ }
      · intro other member
        rcases List.mem_append.mp member with earlier | verdict
        · exact (decided.posted other earlier).mono longer.subset
        · obtain ⟨authd, authorized, same⟩ := List.mem_map.mp verdict
          obtain ⟨rfl, -⟩ := Prod.mk.inj same
          refine .password storage (List.mem_append_right _ (List.mem_singleton_self _)) ?_
          rw [← known]
          exact response_of_authorized _ _ _ _ authorized
      · intro refused
        obtain ⟨silent, few⟩ := decided.refused refused
        refine ⟨silent, ?_⟩
        rw [messagesRead_append]
        exact few

/-- The oldest posted work runs. A success lets the peer in, and rests on
what the answer shows. -/
theorem Stage.runPosted (stage : Stage crypto settings events conn) (connection : ServerConnection)
    (sent : List AuthMessage) (ran : conn.connection.runPosted = some (connection, sent)) :
    Stage crypto settings (events ++ [.runPosted]) { conn with connection := connection } := by
  have longer : events.Sublist (events ++ [IncomingEvent.runPosted]) :=
    List.sublist_append_left events _
  obtain ⟨authd, message, posted, waiting, verdict⟩ :=
    ServerConnection.runPosted_cases conn.connection connection sent ran
  cases stage with
  | opening waits _ => cases waits.waiting.posted.symm.trans waiting
  | asked _ _ waits _ _ _ _ => cases waits.waiting.posted.symm.trans waiting
  | answered type drawn answer known challenged decided =>
    have others : ∀ other, (true, other) ∈ posted →
        Shown crypto settings (events ++ [.runPosted]) drawn answer type := fun other member =>
      (decided.posted other (waiting ▸ List.mem_cons_of_mem _ member)).mono longer.subset
    rcases verdict with ⟨rfl, rfl⟩ | ⟨rfl, rfl⟩
    · have shown : Shown crypto settings (events ++ [.runPosted]) drawn answer type :=
        (decided.posted message (waiting ▸ List.mem_cons_self)).mono longer.subset
      refine .answered type drawn answer known (challenged.mono longer)
        { lookups := decided.lookups
          posted := others
          granted := fun _ => shown
          owners := ?_
          pending := decided.pending
          refused := fun refused => by cases refused }
      intro owner member
      rcases List.mem_append.mp member with earlier | next
      · exact decided.owners owner earlier
      · exact List.mem_singleton.mp next
    · refine .answered type drawn answer known (challenged.mono longer)
        { lookups := decided.lookups
          posted := others
          granted := fun granted => (decided.granted granted).mono longer.subset
          owners := decided.owners
          pending := decided.pending
          refused := ?_ }
      intro refused
      obtain ⟨silent, few⟩ := decided.refused refused
      refine ⟨silent, ?_⟩
      rw [messagesRead_append]
      exact few

/-- Whether a write closes the socket has no part in the authentication. -/
theorem standing_closeUnless (connection : ServerConnection) (responses : Nat)
    (processing : Option (ConnectionState × PeerMessage)) (well : Bool) :
    standing ⟨connection.closeUnless well, responses, processing⟩ =
      standing ⟨connection, responses, processing⟩ := by
  unfold ServerConnection.closeUnless
  split <;> rfl

/-- Every event keeps the stage or brings the connection to the next one. -/
theorem Stage.step (stage : Stage crypto settings events conn) (disciplined : conn.Disciplined)
    (event : IncomingEvent) (moved : conn.step crypto settings event = some after) :
    Stage crypto settings (events ++ [event]) after := by
  cases event with
  | readCompleted result =>
    obtain ⟨_, completed⟩ := whenIdle_some _ _ _ moved
    exact stage.readCompleted result completed
  | dispatch randomBytes responses => exact stage.dispatch disciplined randomBytes responses moved
  | respond =>
    obtain ⟨_, responded⟩ := whenIdle_some _ _ _ moved
    obtain rfl := Option.some.inj responded
    exact stage.frame _ rfl rfl
  | writeCompleted success =>
    obtain ⟨_, completed⟩ := whenIdle_some _ _ _ moved
    obtain ⟨writes, well, rfl⟩ := writeCompleted_some conn after success completed
    exact stage.frame _ rfl (standing_closeUnless _ _ _ well)
  | responseWritten success =>
    obtain ⟨_, completed⟩ := whenIdle_some _ _ _ moved
    obtain ⟨responses, rfl⟩ := responseWritten_some conn after success completed
    exact stage.frame _ rfl (standing_closeUnless _ _ _ success)
  | lookupFinished storage =>
    obtain ⟨connection, finished, rfl⟩ := Option.map_eq_some_iff.mp moved
    exact stage.lookupFinished storage connection finished
  | runPosted =>
    obtain ⟨_, posted⟩ := whenIdle_some _ _ _ moved
    obtain ⟨⟨connection, sent⟩, ran, rfl⟩ := Option.map_eq_some_iff.mp posted
    exact stage.runPosted connection sent ran

end Steps

/-- A connection that has just started waits for the request. -/
theorem start_stage (crypto : Crypto) (settings : AuthSettings) :
    Stage crypto settings [] start := by
  refine .opening ⟨⟨rfl, rfl, rfl, ?_⟩, .of_none _ _ rfl, by decide⟩ rfl
  intro owner member
  exact List.mem_singleton.mp member

/-- Every run of a connection is in some stage. By induction on its events,
with the discipline of reads. -/
theorem stage_of_run {crypto : Crypto} {settings : AuthSettings} {events : List IncomingEvent}
    {conn : ConnectionIn} (ran : Machine.run (step crypto settings) start events = some conn) :
    Stage crypto settings events conn := by
  have kept : conn.Disciplined ∧ Stage crypto settings events conn := by
    refine Machine.run_invariant (fun past state => state.Disciplined ∧
      Stage crypto settings past state) ?_ ran ⟨start_disciplined, start_stage crypto settings⟩
    rintro past before event after ⟨disciplined, stage⟩ moved
    exact ⟨step_disciplined crypto settings before event after disciplined moved,
      stage.step disciplined event moved⟩
  exact kept.2

/-- A peer that has been let in has shown the secret, in answer to the
challenge that was drawn for it. -/
theorem Stage.shown {crypto : Crypto} {settings : AuthSettings} {events : List IncomingEvent}
    {conn : ConnectionIn} (stage : Stage crypto settings events conn)
    (granted : conn.connection.state = .csauthenticated) :
    ∃ type challenge answer,
      Challenged events type challenge [.readCompleted (some (.auth (.answerChallenge answer)))] ∧
      Shown crypto settings events challenge answer type := by
  cases stage with
  | opening quiet fresh => cases quiet.waiting.state.symm.trans granted
  | asked _ _ quiet _ _ _ _ => cases quiet.waiting.state.symm.trans granted
  | answered type challenge answer _ challenged decided =>
    exact ⟨type, challenge, answer, challenged, decided.granted granted⟩

/-- A peer that has not been let in has sent two messages at most that were
read: the request and the answer. -/
theorem Stage.few {crypto : Crypto} {settings : AuthSettings} {events : List IncomingEvent}
    {conn : ConnectionIn} (stage : Stage crypto settings events conn)
    (refused : conn.connection.state = .csunauthenticated) : messagesRead events ≤ 2 := by
  cases stage with
  | opening quiet fresh =>
    exact ((Nat.le_add_right _ _).trans quiet.counted).trans one_le_two
  | asked _ _ quiet _ _ _ _ => exact (Nat.le_add_right _ _).trans quiet.counted
  | answered _ _ _ _ _ decided => exact (decided.refused refused).2

/-- Whatever the peer sends and however operations complete: a connection
that has not let its peer in has read two messages at most, and one that has
done so had drawn a challenge on the request of the peer, and then read an
answer that shows the secret for this challenge.

Proof: the connection goes through three stages. A message is read in place
of the one read that a stage may start, and each stage can only be left by a
message of its own kind. -/
theorem peer_shows_secret (crypto : Crypto) (settings : AuthSettings)
    (events : List IncomingEvent) (conn : ConnectionIn)
    (ran : Machine.run (step crypto settings) start events = some conn) :
    (conn.connection.state = .csunauthenticated → messagesRead events ≤ 2) ∧
      (conn.connection.state = .csauthenticated → ∃ type challenge answer,
        Challenged events type challenge
          [.readCompleted (some (.auth (.answerChallenge answer)))] ∧
        Shown crypto settings events challenge answer type) := by
  have stage := stage_of_run ran
  exact ⟨stage.few, stage.shown⟩

/-- A storage with one account, whose name hash is the byte `1` and whose
password hash is the byte `9`. -/
def oneAccount (unameHash : Bytes) : AsyncQueryState where
  error := none
  rows := if unameHash = [1] then [⟨some [1], some [1], some [9], some 1⟩] else []

/-- The peer logs in to the account, against the challenge of the byte `7`.
The lookup finds it. -/
def passwordEvents : List IncomingEvent :=
  [.readCompleted (some (.auth (.getChallenge ⟨1, 0⟩ .client))), .dispatch [7] 0,
    .readCompleted (some (.auth (.answerChallenge ⟨⟨2, 1⟩, [1], [9, 7]⟩))), .dispatch [] 0,
    .lookupFinished oneAccount, .runPosted]

/-- The peer is let in, and has shown the password hash of the account. -/
theorem peer_shows_secret_password :
    ∃ conn, Machine.run (step Crypto.plain ⟨[], []⟩) start passwordEvents = some conn ∧
      conn.connection.state = .csauthenticated ∧
      ∃ type challenge answer,
        Challenged passwordEvents type challenge
          [.readCompleted (some (.auth (.answerChallenge answer)))] ∧
        Shown Crypto.plain ⟨[], []⟩ passwordEvents challenge answer type :=
  ⟨_, rfl, rfl, (peer_shows_secret Crypto.plain ⟨[], []⟩ passwordEvents _ rfl).2 rfl⟩

end ConnectionIn

end Sopmq
