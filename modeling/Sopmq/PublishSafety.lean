import Sopmq.PublishAttempts

/-!
# The publish handler does what its attempts come to

Every call that the handler makes is followed through the callbacks that it runs inside of,
and the handler is shown to do what the walk over its attempts says. From that: when the
handler returns, and when every node is handed the content that the client sent. Late answers
make no further calls.
-/

namespace Sopmq

/-- The local operation on a ring with nodes raises on an identifier of the
wrong size, before it has changed anything; else it takes the content and
answers, and the status of its answer is not QUEUED. -/
theorem LocalNode.sendProxyPublish_cases (murmurHash3 : String → UInt128) (node : LocalNode)
    (now : Time) (clientMessage : PublishMessage) (replicas : Fin 3 → Node)
    (found : node.ring.findNodesForKey (murmurHash3 clientMessage.queueId) = .ok replicas) :
    (clientMessage.messageId.length ≠ 16 ∧
      node.sendProxyPublish murmurHash3 now clientMessage =
        (node, clientMessage, .error wrongSize)) ∨
    (clientMessage.messageId.length = 16 ∧ ∃ response : ProxyPublishResponseMessage,
      (node.sendProxyPublish murmurHash3 now clientMessage).2 =
        ({ clientMessage with content := [] }, .ok response) ∧ response.status ≠ .queued) := by
  by_cases size : clientMessage.messageId.length = 16
  · refine Or.inr ⟨size, ?_⟩
    simp only [sendProxyPublish, uuidFromBytes, size, dif_pos, tick, found]
    exact ⟨_, rfl, by simp [ProxyPublishResponseMessage.status]⟩
  · refine Or.inl ⟨size, ?_⟩
    simp only [sendProxyPublish, uuidFromBytes, size, dif_neg, not_false_eq_true]
    rfl

namespace PublishHandler

open Attempt (Made)

/-- The handler has made the given calls, and left the given content in the
message. The local node and its ring are the same. -/
structure Tracks (origin : LocalNode) (message : PublishMessage) (calls : List (Node × Bytes))
    (content : Bytes) (handler : PublishHandler) : Prop where
  self : handler.localNode.self = origin.self
  ring : handler.localNode.ring = origin.ring
  message : handler.run.message = { message with content := content }
  handed : handler.handed.map (fun call => (call.1, call.2.content)) = calls

/-- The handler has done what attempts come to, after the given calls: it
has ended alike and handed over alike. -/
structure Does (origin : LocalNode) (message : PublishMessage) (calls : List (Node × Bytes))
    (made : Made) (ended : PublishHandler × Outcome) : Prop where
  outcome : ended.2 = made.outcome
  tracks : Tracks origin message (calls ++ made.calls) made.content ended.1

/-- A call that was made before may be counted among those of the
attempts. -/
theorem Does.cons {origin : LocalNode} {message : PublishMessage} {calls : List (Node × Bytes)}
    {call : Node × Bytes} {made : Made} {ended : PublishHandler × Outcome}
    (does : Does origin message (calls ++ [call]) made ended) :
    Does origin message calls ⟨call :: made.calls, made.content, made.outcome⟩ ended := by
  refine ⟨does.outcome, ?_⟩
  have tracks := does.tracks
  rwa [List.append_assoc, List.singleton_append] at tracks

/-- Attempts that return, followed by further ones, from what the first have
left. -/
theorem Does.andThen {origin : LocalNode} {message : PublishMessage}
    {calls : List (Node × Bytes)} {made : Made} {next : Bytes → Made}
    {ended : PublishHandler × Outcome} (returned : made.outcome = .returned)
    (does : Does origin message (calls ++ made.calls) (next made.content) ended) :
    Does origin message calls (made.andThen next) ended := by
  unfold Made.andThen
  rw [returned]
  refine ⟨does.outcome, ?_⟩
  have tracks := does.tracks
  rwa [List.append_assoc] at tracks

section Calls

variable {setting : PublishSetting} {origin : LocalNode} {message : PublishMessage}
  {calls : List (Node × Bytes)} {content : Bytes} {handler : PublishHandler} {node : Node}

/-- What is tracked depends on the message of the run, and on nothing else
of it. -/
theorem Tracks.rerun (tracks : Tracks origin message calls content handler) (run : PublishRun)
    (same : run.message = handler.run.message) :
    Tracks origin message calls content { handler with run := run } :=
  ⟨tracks.self, tracks.ring, same.trans tracks.message, tracks.handed⟩

/-- A call adds the node and the content as it is at that time. -/
theorem Tracks.handTo (tracks : Tracks origin message calls content handler) (node : Node) :
    Tracks origin message (calls ++ [(node, content)]) content (handler.handTo node) := by
  refine ⟨tracks.self, tracks.ring, tracks.message, ?_⟩
  simp [PublishHandler.handTo, tracks.handed, tracks.message]

/-- The local operation by the size of the message's identifier: it raises
and changes nothing, or it takes the content and refuses. -/
theorem Tracks.serve (tracks : Tracks origin message calls content handler)
    (replicas : Fin 3 → Node)
    (found : origin.ring.findNodesForKey (setting.murmurHash3 message.queueId) = .ok replicas) :
    (message.messageId.length ≠ 16 ∧ handler.serve setting = (handler, .error wrongSize)) ∨
    (message.messageId.length = 16 ∧ ∃ after response,
      handler.serve setting = (after, .ok response) ∧ response.status ≠ .queued ∧
      after.run = { handler.run with message := after.run.message } ∧
      Tracks origin message calls [] after) := by
  have found' : handler.localNode.ring.findNodesForKey
      (setting.murmurHash3 handler.run.message.queueId) = .ok replicas := by
    rw [tracks.ring, tracks.message]
    exact found
  have kept := handler.localNode.sendProxyPublish_kept setting.murmurHash3 setting.now
    handler.run.message
  have same : handler.run.message.messageId = message.messageId := by rw [tracks.message]
  rcases handler.localNode.sendProxyPublish_cases setting.murmurHash3 setting.now
    handler.run.message replicas found' with ⟨size, raised⟩ | ⟨size, response, answered, status⟩
  · exact Or.inl ⟨same ▸ size, by simp [PublishHandler.serve, raised]⟩
  · refine Or.inr ⟨same ▸ size, (handler.serve setting).1, response,
      Prod.ext rfl (by simp only [PublishHandler.serve, answered]), status, rfl, ?_⟩
    refine ⟨kept.1.trans tracks.self, kept.2.1.trans tracks.ring, ?_, tracks.handed⟩
    exact (congrArg Prod.fst answered).trans (by rw [tracks.message])

/-- Without a call in progress nothing is done. -/
theorem proceed_idle (fuel : Nat) (idle : handler.run.calling = none) :
    proceed setting fuel handler = (handler, .returned) := by
  unfold proceed
  rw [idle]

section Callback

variable (call : PublishHandler → PublishHandler × Outcome) (answers : Answers)

/-- A callback whose call does not raise ends as its call does. -/
theorem callback_unraised (unraised : ∀ error,
      (call { handler with run := handler.run.answer answers node }).2 ≠ .raised error) :
    callback call answers handler node =
      call { handler with run := handler.run.answer answers node } := by
  unfold callback
  dsimp only
  split
  · next error raised => exact absurd raised (unraised error)
  · rfl

/-- A callback whose call raises catches the error if its own answer was a
refusal, and then fails its node once more. -/
theorem callback_raised (error : LocalError) (raised :
      (call { handler with run := handler.run.answer answers node }).2 = .raised error) :
    callback call answers handler node =
      if answers.refuses node ∧ error.isRuntimeError then
        call { (call { handler with run := handler.run.answer answers node }).1 with
          run := (call { handler with run := handler.run.answer answers node }).1.run.nodeFailed
            node }
      else
        call { handler with run := handler.run.answer answers node } := by
  simp only [callback, raised]

end Callback

/-- What a call beyond the first slot leaves alone: the index, the slots,
and that no call is left in progress. -/
structure Steady (handler : PublishHandler) (ended : PublishHandler × Outcome) : Prop where
  lastNode : ended.1.run.logic.lastNode = handler.run.logic.lastNode
  allNodes : ended.1.run.logic.allNodes = handler.run.logic.allNodes
  idle : ended.2 ≠ .nullDereferenced → ended.1.run.calling = none

/-- Beyond the second slot the callback makes no call, and so returns. -/
theorem callback_passed (setting : PublishSetting) (answers : Answers) (fuel : Nat)
    (handler : PublishHandler) (node : Node) (idle : handler.run.calling = none)
    (passed : 2 ≤ handler.run.logic.lastNode) :
    callback (proceed setting fuel) answers handler node =
        ({ handler with run := handler.run.answer answers node }, .returned) ∧
      Steady handler ({ handler with run := handler.run.answer answers node }, .returned) := by
  have handled := PublishRun.answer_handled answers handler.run node
  have calling : (handler.run.answer answers node).calling = none := by
    rcases handled.index idle with ⟨_, calling⟩ | ⟨early, _⟩
    · exact calling
    · omega
  have ended : proceed setting fuel { handler with run := handler.run.answer answers node } = _ :=
    proceed_idle fuel calling
  refine ⟨?_, (handled.steady idle passed).1, handled.kept.1, fun _ => calling⟩
  rw [callback_unraised _ _ (by simp [ended]), ended]

/-- Handling an answer leaves what is tracked. -/
theorem Tracks.answer (tracks : Tracks origin message calls content handler)
    (answers : Answers) (node : Node) :
    Tracks origin message calls content { handler with run := handler.run.answer answers node } :=
  tracks.rerun _ (PublishRun.answer_handled answers handler.run node).message

/-- The ways in which a call of a tracked handler proceeds: through a null
pointer, on the local node, which raises or takes the content and answers,
or on another node, which answers inside its call or late. -/
inductive Proceeds (setting : PublishSetting) (origin : LocalNode) (message : PublishMessage)
    (calls : List (Node × Bytes)) (content : Bytes) (fuel : Nat) (handler : PublishHandler) :
    Option Node → PublishHandler × Outcome → Prop where
  | null : Proceeds setting origin message calls content fuel handler none
      (handler, .nullDereferenced)
  | raised (size : message.messageId.length ≠ 16)
      (handed : Tracks origin message (calls ++ [(origin.self, content)]) content
        (handler.handTo origin.self)) :
      Proceeds setting origin message calls content fuel handler (some origin.self)
        (handler.handTo origin.self, .raised wrongSize)
  | served (after : PublishHandler) (response : ProxyPublishResponseMessage)
      (size : message.messageId.length = 16) (status : response.status ≠ .queued)
      (kept : after.run = { handler.run with calling := none, message := after.run.message })
      (taken : Tracks origin message (calls ++ [(origin.self, content)]) [] after) :
      Proceeds setting origin message calls content fuel handler (some origin.self)
        (callback (proceed setting fuel) (setting.answers.replying response) after origin.self)
  | inside (node : Node) (other : node ≠ origin.self)
      (within : setting.answers.inside node = true)
      (handed : Tracks origin message (calls ++ [(node, content)]) content (handler.handTo node)) :
      Proceeds setting origin message calls content fuel handler (some node)
        (callback (proceed setting fuel) setting.answers (handler.handTo node) node)
  | late (node : Node) (other : node ≠ origin.self) (late : setting.answers.inside node = false)
      (after : PublishHandler) (logic : after.run.logic = handler.run.logic)
      (idle : after.run.calling = none)
      (handed : Tracks origin message (calls ++ [(node, content)]) content after) :
      Proceeds setting origin message calls content fuel handler (some node) (after, .returned)

/-- Every call proceeds in one of these ways, by its slot. -/
theorem proceed_proceeds (replicas : Fin 3 → Node)
    (found : origin.ring.findNodesForKey (setting.murmurHash3 message.queueId) = .ok replicas)
    (fuel : Nat) (tracks : Tracks origin message calls content handler) (slot : Option Node)
    (made : handler.run.calling = some slot) :
    Proceeds setting origin message calls content fuel handler slot
      (proceed setting (fuel + 1) handler) := by
  unfold proceed
  rw [made]
  cases slot with
  | none => exact Proceeds.null
  | some node =>
    dsimp only
    have handed := tracks.handTo node
    by_cases same : node = origin.self
    · rw [if_pos (same.trans handed.self.symm)]
      subst same
      rcases handed.serve replicas found with
        ⟨size, raised⟩ | ⟨size, after, response, answered, status, kept, taken⟩
      · rw [raised]
        exact Proceeds.raised size handed
      · rw [answered]
        exact Proceeds.served after response size status kept taken
    · rw [if_neg (fun equal => same (equal.trans handed.self))]
      cases within : setting.answers.inside node with
      | true => exact Proceeds.inside node same within handed
      | false =>
        exact Proceeds.late node same within _ rfl rfl
          (handed.rerun { (handler.handTo node).run with
            pending := (handler.handTo node).run.pending ++ [node] } rfl)

/-- A call beyond the first slot does what an unguarded attempt comes to, as
its callback makes no further call. -/
theorem proceed_passed (replicas : Fin 3 → Node)
    (found : origin.ring.findNodesForKey (setting.murmurHash3 message.queueId) = .ok replicas)
    (fuel : Nat) (tracks : Tracks origin message calls content handler) (slot : Option Node)
    (made : handler.run.calling = some slot) (passed : 2 ≤ handler.run.logic.lastNode) :
    Does origin message calls
        (Attempt.make origin.self (message.messageId.length = 16) content ⟨slot, false⟩)
        (proceed setting (fuel + 1) handler) ∧
      Steady handler (proceed setting (fuel + 1) handler) := by
  have proceeds := proceed_proceeds replicas found fuel tracks slot made
  generalize proceed setting (fuel + 1) handler = ended at proceeds ⊢
  cases proceeds with
  | null =>
    exact ⟨⟨rfl, by simpa [Attempt.make] using tracks⟩, rfl, rfl, fun defined => (defined rfl).elim⟩
  | raised size handed =>
    exact ⟨⟨by simp [Attempt.make, size], by simpa [Attempt.make, size] using handed⟩, rfl, rfl,
      fun _ => rfl⟩
  | served after response size status kept taken =>
    have logic : after.run.logic = handler.run.logic := by rw [kept]
    obtain ⟨ended, steady⟩ := callback_passed setting (setting.answers.replying response) fuel
      after origin.self (by rw [kept]) (logic ▸ passed)
    have answered := taken.answer (setting.answers.replying response) origin.self
    rw [ended]
    exact ⟨⟨by simp [Attempt.make, size], by simpa [Attempt.make, size] using answered⟩,
      steady.lastNode.trans (congrArg _ logic), steady.allNodes.trans (congrArg _ logic),
      steady.idle⟩
  | inside node other within handed =>
    obtain ⟨ended, steady⟩ := callback_passed setting setting.answers fuel (handler.handTo node)
      node rfl passed
    have answered := handed.answer setting.answers node
    rw [ended]
    exact ⟨⟨by simp [Attempt.make, other], by simpa [Attempt.make, other] using answered⟩,
      steady.lastNode, steady.allNodes, steady.idle⟩
  | late node other late after logic idle handed =>
    exact ⟨⟨by simp [Attempt.make, other], by simpa [Attempt.make, other] using handed⟩,
      congrArg _ logic, congrArg _ logic, fun _ => idle⟩

/-- An answer inside the first call that is no success tries the second
slot, and catches its error if the answer was a refusal. -/
theorem callback_first (replicas : Fin 3 → Node)
    (found : origin.ring.findNodesForKey (setting.murmurHash3 message.queueId) = .ok replicas)
    (answers : Answers) (fuel : Nat) (tracks : Tracks origin message calls content handler)
    (node : Node)
    (fresh : handler.run.logic.successNodes = [] ∧ handler.run.logic.failedNodes = [])
    (index : handler.run.logic.lastNode = 1) (failing : answers.succeeds node = false) :
    Does origin message calls
        (Attempt.make origin.self (message.messageId.length = 16) content
          ⟨handler.run.logic.allNodes 1, answers.refuses node⟩)
        (callback (proceed setting (fuel + 1)) answers handler node) ∧
      (callback (proceed setting (fuel + 1)) answers handler node).1.run.logic.lastNode = 2 ∧
      (callback (proceed setting (fuel + 1)) answers handler node).1.run.logic.allNodes =
        handler.run.logic.allNodes := by
  have handled := PublishRun.answer_handled answers handler.run node
  have retried := handled.first fresh index
  rw [failing] at retried
  obtain ⟨does, steady⟩ := proceed_passed replicas found fuel (tracks.answer answers node)
    (handler.run.logic.allNodes 1) retried.2 (Nat.le_of_eq retried.1.symm)
  have second := steady.lastNode.trans retried.1
  have slots := steady.allNodes.trans handled.kept.1
  rcases Attempt.make_guarded origin.self (message.messageId.length = 16) content
    (answers.refuses node) (handler.run.logic.allNodes 1) with ⟨raises, guarded⟩ | ⟨plain, same⟩
  · have raised := does.outcome.trans raises
    rw [callback_raised _ _ wrongSize raised, guarded]
    by_cases refuses : answers.refuses node = true
    · have failed := PublishRun.nodeFailed_passed _ node (Nat.le_of_eq second.symm)
      have caught : answers.refuses node = true ∧ wrongSize.isRuntimeError = true := ⟨refuses, rfl⟩
      rw [if_pos caught,
        proceed_idle (fuel + 1) (failed.1.trans (steady.idle (by simp [raised])))]
      refine ⟨⟨by simp [refuses], ?_⟩, failed.2.trans second, ?_⟩
      · exact does.tracks.rerun _ (PublishRun.nodeFailed_message _ node)
      · exact (PublishRun.nodeFailed_kept _ node).1.trans slots
    · have uncaught : ¬ (answers.refuses node = true ∧ wrongSize.isRuntimeError = true) :=
        fun caught => refuses caught.1
      rw [if_neg uncaught]
      exact ⟨⟨by simp [refuses, raised], does.tracks⟩, second, slots⟩
  · rw [callback_unraised _ _ (fun error => does.outcome ▸ plain error), same]
    exact ⟨does, second, slots⟩

/-- What the first call of the loop ends with: it has done what its attempts
come to. If it returned, the index has moved over them; else no further
answer is outstanding or the second slot has been passed. -/
structure Begun (setting : PublishSetting) (origin : LocalNode) (message : PublishMessage)
    (calls : List (Node × Bytes)) (content : Bytes) (nodes : Fin 3 → Option Node)
    (pending : List Node) (ended : PublishHandler × Outcome) : Prop where
  does : Does origin message calls
    (Attempt.walk origin.self (message.messageId.length = 16) content
      (Attempt.first origin.self setting.answers nodes)) ended
  slots : ended.1.run.logic.allNodes = nodes
  moved : ended.2 = .returned →
    ended.1.run.logic.lastNode = (Attempt.first origin.self setting.answers nodes).length
  stopped : ended.2 ≠ .returned →
    ended.1.run.pending = pending ∨ ended.1.run.logic.lastNode = 2

/-- The local node is the first one called, and answers. It refuses, so the
second slot is tried under its guard. -/
theorem Begun.served (replicas : Fin 3 → Node)
    (found : origin.ring.findNodesForKey (setting.murmurHash3 message.queueId) = .ok replicas)
    (fuel : Nat) (pending : List Node) (response : ProxyPublishResponseMessage)
    (size : message.messageId.length = 16) (status : response.status ≠ .queued)
    (slot : handler.run.logic.allNodes 0 = some origin.self)
    (taken : Tracks origin message (calls ++ [(origin.self, content)]) [] handler)
    (fresh : handler.run.logic.successNodes = [] ∧ handler.run.logic.failedNodes = [])
    (index : handler.run.logic.lastNode = 1) :
    Begun setting origin message calls content handler.run.logic.allNodes pending
      (callback (proceed setting (fuel + 1)) (setting.answers.replying response) handler
        origin.self) := by
  have refused : (setting.answers.replying response).refuses origin.self = true := by
    simp [Answers.refuses, Answers.replying, status]
  have failing : (setting.answers.replying response).succeeds origin.self = false := by
    simp [Answers.succeeds, Answers.clockOf, Answers.replying, status]
  obtain ⟨does, second, same⟩ := callback_first replicas found
    (setting.answers.replying response) fuel taken origin.self fresh index failing
  rw [refused, ← Attempt.walk_singleton] at does
  have attempts := Attempt.first_local setting.answers slot
  refine ⟨?_, same, fun _ => by rw [attempts]; exact second, fun _ => Or.inr second⟩
  rw [attempts]
  simp only [size, decide_true, Attempt.walk_taken] at does ⊢
  exact does.cons

/-- Another node is the first one called, and answers inside its call. If it
fails, the second slot is tried. -/
theorem Begun.inside (replicas : Fin 3 → Node)
    (found : origin.ring.findNodesForKey (setting.murmurHash3 message.queueId) = .ok replicas)
    (fuel : Nat) (pending : List Node) (node : Node) (other : node ≠ origin.self)
    (within : setting.answers.inside node = true)
    (slot : handler.run.logic.allNodes 0 = some node) (idle : handler.run.calling = none)
    (handed : Tracks origin message (calls ++ [(node, content)]) content handler)
    (fresh : handler.run.logic.successNodes = [] ∧ handler.run.logic.failedNodes = [])
    (index : handler.run.logic.lastNode = 1) :
    Begun setting origin message calls content handler.run.logic.allNodes pending
      (callback (proceed setting (fuel + 1)) setting.answers handler node) := by
  cases success : setting.answers.succeeds node with
  | true =>
    have handled := PublishRun.answer_handled setting.answers handler.run node
    have stored := handled.first fresh index
    rw [success] at stored
    have ended : proceed setting (fuel + 1) { handler with
        run := handler.run.answer setting.answers node } = _ :=
      proceed_idle (fuel + 1) (stored.2.trans idle)
    have attempts := Attempt.first_plain setting.answers slot other
      (by simp [Answers.rejectsInside, success])
    rw [callback_unraised _ _ (by simp [ended]), ended]
    refine ⟨?_, handled.kept.1, fun _ => by rw [attempts]; exact stored.1,
      fun unreturned => absurd rfl unreturned⟩
    rw [attempts, Attempt.walk_other _ _ _ _ _ _ other]
    exact ⟨rfl, handed.answer setting.answers node⟩
  | false =>
    obtain ⟨does, second, same⟩ := callback_first replicas found setting.answers fuel handed node
      fresh index success
    have attempts := Attempt.first_rejected setting.answers slot other
      (by simp [Answers.rejectsInside, success, within])
    rw [← Attempt.walk_singleton] at does
    refine ⟨?_, same, fun _ => by rw [attempts]; exact second, fun _ => Or.inr second⟩
    rw [attempts, Attempt.walk_other _ _ _ _ _ _ other]
    exact does.cons

/-- The first call of the loop does what its attempts come to, by the ways
in which it proceeds. -/
theorem proceed_first (replicas : Fin 3 → Node)
    (found : origin.ring.findNodesForKey (setting.murmurHash3 message.queueId) = .ok replicas)
    (fuel : Nat) (tracks : Tracks origin message calls content handler)
    (made : handler.run.calling = some (handler.run.logic.allNodes 0))
    (fresh : handler.run.logic.successNodes = [] ∧ handler.run.logic.failedNodes = [])
    (index : handler.run.logic.lastNode = 1) :
    Begun setting origin message calls content handler.run.logic.allNodes handler.run.pending
      (proceed setting (fuel + 2) handler) := by
  have proceeds := proceed_proceeds replicas found (fuel + 1) tracks _ made
  generalize proceed setting (fuel + 2) handler = ended at proceeds ⊢
  generalize slot : handler.run.logic.allNodes 0 = pointer at proceeds
  cases proceeds with
  | null =>
    refine ⟨?_, rfl, by simp, fun _ => Or.inl rfl⟩
    rw [Attempt.first_null setting.answers slot]
    exact ⟨rfl, by simpa [Attempt.walk_null] using tracks⟩
  | raised size handed =>
    refine ⟨?_, rfl, by simp, fun _ => Or.inl rfl⟩
    rw [Attempt.first_local setting.answers slot]
    simp only [size, decide_false, Attempt.walk_raised]
    exact ⟨rfl, handed⟩
  | served after response size status kept taken =>
    have logic : after.run.logic = handler.run.logic := by rw [kept]
    rw [← logic] at slot fresh index ⊢
    exact Begun.served replicas found fuel _ response size status slot taken fresh index
  | inside node other within handed =>
    have slot' : (handler.handTo node).run.logic.allNodes 0 = some node := slot
    exact Begun.inside replicas found fuel handler.run.pending node other within slot' rfl handed
      fresh index
  | late node other late after logic idle handed =>
    have attempts := Attempt.first_plain setting.answers slot other
      (by simp [Answers.rejectsInside, late])
    refine ⟨?_, by rw [logic], fun _ => by rw [attempts, logic]; exact index,
      fun unreturned => absurd rfl unreturned⟩
    rw [attempts, Attempt.walk_other _ _ _ _ _ _ other]
    exact ⟨rfl, handed⟩

/-- An iteration of the loop is its call, followed by the rest if the call
returns. -/
theorem loop_succ (iterations : Nat) :
    loop setting (iterations + 1) handler =
      if (proceed setting 3 (handler.iterate iterations)).2 = .returned then
        loop setting iterations (proceed setting 3 (handler.iterate iterations)).1
      else
        proceed setting 3 (handler.iterate iterations) := by
  rw [loop]
  split
  · next returned => rw [if_pos returned]
  · next unreturned => rw [if_neg unreturned]

/-- The slot that the second iteration of the loop calls, which is the next
one after the first attempts. -/
theorem nextNode_second (self : Node) (answers : Answers) (nodes : Fin 3 → Option Node)
    (logic : QuorumLogic 3 (List (VectorClock 3))) (slots : logic.allNodes = nodes)
    (index : logic.lastNode = (Attempt.first self answers nodes).length) :
    logic.nextNode = (if Attempt.retries self answers nodes then nodes 2 else nodes 1) ∧
      1 ≤ logic.lastNode := by
  unfold Attempt.first at index
  cases retried : Attempt.retries self answers nodes <;>
    simp [retried] at index <;> simp [QuorumLogic.nextNode, index, slots]

/-- The loop does what the attempts of the publish come to. Answers are
outstanding only when the index has passed the second slot. -/
theorem loop_does (replicas : Fin 3 → Node)
    (found : origin.ring.findNodesForKey (setting.murmurHash3 message.queueId) = .ok replicas)
    (nextId : UInt32) (nodes : Fin 3 → Option Node) :
    Does origin message []
        (Attempt.walk origin.self (message.messageId.length = 16) message.content
          (Attempt.all origin.self setting.answers nodes))
        (loop setting 2 (start origin message nextId nodes)) ∧
      ((loop setting 2 (start origin message nextId nodes)).1.run.pending = [] ∨
        2 ≤ (loop setting 2 (start origin message nextId nodes)).1.run.logic.lastNode) := by
  have tracks : Tracks origin message [] message.content
      ((start origin message nextId nodes).iterate 1) := ⟨rfl, rfl, rfl, rfl⟩
  obtain ⟨does, slots, moved, stopped⟩ := proceed_first replicas found 1 tracks rfl ⟨rfl, rfl⟩ rfl
  rw [loop_succ, Attempt.all, Attempt.walk_append]
  generalize proceed setting 3 ((start origin message nextId nodes).iterate 1) = ended at *
  by_cases returned : ended.2 = .returned
  · rw [if_pos returned, loop_succ]
    obtain ⟨slot, positive⟩ := nextNode_second origin.self setting.answers nodes _ slots
      (moved returned)
    have continued : Tracks origin message _ _ (ended.1.iterate 0) := does.tracks.rerun _ rfl
    obtain ⟨does', steady⟩ := proceed_passed replicas found 2 continued _ (congrArg some slot)
      (Nat.succ_le_succ positive)
    rw [← Attempt.walk_singleton] at does'
    have passed : 2 ≤ (proceed setting 3 (ended.1.iterate 0)).1.run.logic.lastNode :=
      steady.lastNode ▸ Nat.succ_le_succ positive
    have stays : (if (proceed setting 3 (ended.1.iterate 0)).2 = .returned then
        loop setting 0 (proceed setting 3 (ended.1.iterate 0)).1
        else proceed setting 3 (ended.1.iterate 0)) = proceed setting 3 (ended.1.iterate 0) := by
      split
      · next last => rw [loop, ← last]
      · rfl
    rw [stays]
    exact ⟨does'.andThen (does.outcome ▸ returned), Or.inr passed⟩
  · rw [if_neg returned, Made.andThen_unreturned _ _ (does.outcome ▸ returned)]
    exact ⟨does, (stopped returned).imp_right fun second => Nat.le_of_eq second.symm⟩

end Calls

section Handler

variable (setting : PublishSetting) (isAlive : Node → Bool) (shuffle : Equiv.Perm (Fin 3))
  (localNode : LocalNode) (message : PublishMessage) (nextId : UInt32)
  (nodes : Fin 3 → Option Node)

/-- The handler of a message whose quorum is found runs the loop, and
catches nothing that it raises. -/
theorem handlePostMessage_loop
    (found : localNode.ring.findQuorumForOperation isAlive shuffle
      (setting.murmurHash3 message.queueId) = .ok nodes) :
    handlePostMessage setting isAlive shuffle true localNode message nextId =
      loop setting 2 (start localNode message nextId nodes) := by
  obtain ⟨replicas, located⟩ := localNode.ring.exists_replicas _ isAlive shuffle nodes found
  have outcome := (loop_does replicas located nextId nodes).1.outcome
  simp only [handlePostMessage, if_true, found]
  rw [show QuorumLogic.runIterations 3 = 2 from rfl]
  generalize loop setting 2 (start localNode message nextId nodes) = ended at outcome ⊢
  split
  · have impossible := Attempt.walk_raises _ _ _ _ _ outcome.symm
    cases impossible
  · rfl

/-- The handler of a message whose quorum is found does what the attempts
come to, as it runs the loop and catches nothing. -/
theorem handlePostMessage_does
    (found : localNode.ring.findQuorumForOperation isAlive shuffle
      (setting.murmurHash3 message.queueId) = .ok nodes) :
    Does localNode message []
        (Attempt.walk localNode.self (message.messageId.length = 16) message.content
          (Attempt.all localNode.self setting.answers nodes))
        (handlePostMessage setting isAlive shuffle true localNode message nextId) ∧
      ((handlePostMessage setting isAlive shuffle true localNode message nextId).1.run.pending =
          [] ∨
        2 ≤ (handlePostMessage setting isAlive shuffle true localNode message
          nextId).1.run.logic.lastNode) := by
  obtain ⟨replicas, located⟩ := localNode.ring.exists_replicas _ isAlive shuffle nodes found
  rw [handlePostMessage_loop setting isAlive shuffle localNode message nextId nodes found]
  exact loop_does replicas located nextId nodes

/-- The other nodes answer late, and with an error. The key of every queue
is 15. -/
def lateSetting : PublishSetting where
  murmurHash3 _ := 15
  answers :=
    { reply := fun _ => .error "connection refused"
      inside := fun _ => false
      storage := fun _ => VectorClock.zero
      stray := VectorClock.zero }
  now := 0

/-- A node without queues in a ring, with clocks in their first
generation. -/
def freshNode (self : Node) (ring : Ring) : LocalNode where
  self := self
  ring := ring
  clock node := ⟨node.nodeId, 0, 0⟩
  queueManager := QueueManager.empty

/-- A late answer makes no call: it is handled, and that is all. -/
theorem deliver_eq (handler after : PublishHandler) (node : Node)
    (passed : handler.run.pending = [] ∨ 2 ≤ handler.run.logic.lastNode)
    (delivered : handler.deliver setting node = some after) :
    (handler.run.calling = none ∧ node ∈ handler.run.pending) ∧
      after = { handler with
        run := { handler.run with pending := handler.run.pending.erase node }.answer
          setting.answers node } ∧
      2 ≤ after.run.logic.lastNode := by
  unfold deliver at delivered
  split at delivered
  · next ready =>
    have second := passed.resolve_left (List.ne_nil_of_mem ready.2)
    obtain ⟨ended, steady⟩ := callback_passed setting setting.answers 3
      { handler with run := { handler.run with pending := handler.run.pending.erase node } } node
      ready.1 second
    rw [ended] at delivered
    cases delivered
    exact ⟨ready, rfl, steady.lastNode ▸ second⟩
  · cases delivered

/-- Every call of `send_proxy_publish` made for a message, by its handler
and by late answers, is handed the content of the client exactly if that is
empty, if the identifier of the message is not of 16 bytes, or if no node is
called after the local one. -/
theorem payload_kept_iff
    (found : localNode.ring.findQuorumForOperation isAlive shuffle
      (setting.murmurHash3 message.queueId) = .ok nodes) :
    (∀ last, Machine.Reaches (deliver setting)
        (handlePostMessage setting isAlive shuffle true localNode message nextId).1 last →
      ∀ call ∈ last.handed, call.2.content = message.content) ↔
    message.content = [] ∨ message.messageId.length ≠ 16 ∨
      localNode.self ∉ (Attempt.called (Attempt.all localNode.self setting.answers nodes)).dropLast
    := by
  obtain ⟨does, passed⟩ := handlePostMessage_does setting isAlive shuffle localNode message nextId
    nodes found
  generalize handlePostMessage setting isAlive shuffle true localNode message nextId = ended at *
  have walked := Attempt.walk_content_iff localNode.self (message.messageId.length = 16)
    message.content (Attempt.all localNode.self setting.answers nodes)
  have handed := does.tracks.handed
  rw [List.nil_append] at handed
  rw [← handed, List.forall_mem_map, decide_eq_false_iff_not] at walked
  have kept : ∀ last, Machine.Reaches (deliver setting) ended.1 last →
      (last.run.pending = [] ∨ 2 ≤ last.run.logic.lastNode) ∧ last.handed = ended.1.handed := by
    intro last reached
    refine reached.invariant (fun last => (last.run.pending = [] ∨ 2 ≤ last.run.logic.lastNode) ∧
      last.handed = ended.1.handed) ?_ ⟨passed, rfl⟩
    rintro before node after ⟨ready, same⟩ moved
    obtain ⟨_, rfl, ready'⟩ := deliver_eq setting before after node ready moved
    exact ⟨Or.inr ready', same⟩
  rw [← walked]
  constructor
  · intro sound
    exact sound ended.1 Relation.ReflTransGen.refl
  · intro sound last reached
    rw [(kept last reached).2]
    exact sound

/-- The local node is the last one called: both nodes are handed the
content, since it is taken after the first has it. -/
theorem payload_kept_local_last :
    ∃ ring, Ring.build [⟨1, 10⟩, ⟨2, 20⟩, ⟨3, 30⟩] = .ok ring ∧
      ∀ last, Machine.Reaches (deliver lateSetting)
          (handlePostMessage lateSetting (fun _ => true) 1 true (freshNode ⟨2, 20⟩ ring)
            PublishMessage.sample 0).1 last →
        ∀ call ∈ last.handed, call.2.content = [1] := by
  obtain ⟨ring, nodes, built, found, last⟩ : ∃ ring nodes,
      Ring.build [⟨1, 10⟩, ⟨2, 20⟩, ⟨3, 30⟩] = .ok ring ∧
      ring.findQuorumForOperation (fun _ => true) 1 15 = .ok nodes ∧
      ⟨2, 20⟩ ∉ (Attempt.called (Attempt.all ⟨2, 20⟩ lateSetting.answers nodes)).dropLast :=
    ⟨_, _, rfl, rfl, by decide⟩
  refine ⟨ring, built, ?_⟩
  exact (payload_kept_iff lateSetting (fun _ => true) 1 (freshNode ⟨2, 20⟩ ring)
    PublishMessage.sample 0 nodes found).mpr (Or.inr (Or.inr last))

/-- The local node is tried first and takes the content: the other two nodes
are handed an empty message. -/
theorem payload_lost_after_local :
    ∃ ring, Ring.build [⟨1, 10⟩, ⟨2, 20⟩, ⟨3, 30⟩] = .ok ring ∧
      (handlePostMessage lateSetting (fun _ => true) 1 true (freshNode ⟨1, 10⟩ ring)
          PublishMessage.sample 0).1.handed.map
        (fun call => (call.1.nodeId, call.2.content)) = [(1, [1]), (2, []), (3, [])] :=
  ⟨_, rfl, rfl⟩

end Handler

section Remote

variable (setting : PublishSetting)

/-- No slot holds the local node, and it is not being called. -/
structure Remote (handler : PublishHandler) : Prop where
  slots : ∀ k, handler.run.logic.allNodes k ≠ some handler.localNode.self
  calling : handler.run.calling ≠ some (some handler.localNode.self)

/-- What a handler without the local node ends with: it has made a run of
the publish, it has not raised, and it has returned exactly if it makes no
call. -/
structure Simulates (setting : PublishSetting) (handler : PublishHandler)
    (ended : PublishHandler × Outcome) : Prop where
  reaches : Machine.Reaches (PublishRun.step setting.answers) handler.run ended.1.run
  unraised : ∀ error, ended.2 ≠ .raised error
  idle : ended.2 = .returned ↔ ended.1.run.calling = none
  iterations : ended.1.run.iterations = handler.run.iterations
  slots : ∀ k, ended.1.run.logic.allNodes k ≠ some ended.1.localNode.self

/-- The next slot does not hold the local node either. -/
theorem Remote.nextNode {handler : PublishHandler} (remote : Remote handler) :
    handler.run.logic.nextNode ≠ some handler.localNode.self := by
  unfold QuorumLogic.nextNode
  split
  · exact remote.slots _
  · simp

/-- A handler that stops where it is has made the empty run. -/
theorem Remote.stays {handler : PublishHandler} (remote : Remote handler) (outcome : Outcome)
    (unraised : ∀ error, outcome ≠ .raised error)
    (idle : outcome = .returned ↔ handler.run.calling = none) :
    Simulates setting handler (handler, outcome) :=
  ⟨Relation.ReflTransGen.refl, unraised, idle, rfl, remote.slots⟩

/-- The answer of a node leaves the local node out: a further call is that
of the next slot. -/
theorem Remote.answer {handler : PublishHandler} (remote : Remote handler) (node : Node) :
    Remote { handler.handTo node with
      run := (handler.handTo node).run.answer setting.answers node } := by
  have handled := PublishRun.answer_handled setting.answers (handler.handTo node).run node
  constructor
  · exact handled.kept.1 ▸ remote.slots
  · rcases handled.index rfl with ⟨_, idle⟩ | ⟨_, _, called⟩
    · simp [idle]
    · exact fun same => remote.nextNode (Option.some.inj (called.symm.trans same))

/-- A call that does not reach the local node is a run of the publish. By
induction on the bound of nested calls. -/
theorem Remote.proceed {handler : PublishHandler} (remote : Remote handler) (fuel : Nat) :
    Simulates setting handler (proceed setting fuel handler) := by
  induction fuel generalizing handler with
  | zero =>
    unfold PublishHandler.proceed
    split
    · next idle => exact remote.stays setting .returned (by simp) (by simp [idle])
    · next null => exact remote.stays setting .nullDereferenced (by simp) (by simp [null])
    · next node made => exact remote.stays setting .unfinished (by simp) (by simp [made])
  | succ fuel inductionHypothesis =>
    unfold PublishHandler.proceed
    split
    · next idle => exact remote.stays setting .returned (by simp) (by simp [idle])
    · next null => exact remote.stays setting .nullDereferenced (by simp) (by simp [null])
    · next node made =>
      have other : node ≠ (handler.handTo node).localNode.self := by
        rintro same
        exact remote.calling (made.trans (congrArg (fun node => some (some node)) same))
      dsimp only
      rw [if_neg other]
      cases within : setting.answers.inside node with
      | true =>
        have simulated := inductionHypothesis (remote.answer setting node)
        have moved : handler.run.step setting.answers .advance =
            some ((handler.handTo node).run.answer setting.answers node) := by
          simp [PublishRun.step, made, within, handTo]
        have kept := (PublishRun.answer_handled setting.answers (handler.handTo node).run node).kept
        rw [if_pos rfl, callback_unraised _ _ simulated.unraised]
        exact ⟨Relation.ReflTransGen.head ⟨.advance, moved⟩ simulated.reaches, simulated.unraised,
          simulated.idle, simulated.iterations.trans kept.2.1, simulated.slots⟩
      | false =>
        have moved : handler.run.step setting.answers .advance =
            some { (handler.handTo node).run with
              pending := (handler.handTo node).run.pending ++ [node] } := by
          simp [PublishRun.step, made, within, handTo]
        exact ⟨Relation.ReflTransGen.single ⟨.advance, moved⟩, by simp, by simp [handTo], rfl,
          remote.slots⟩

/-- The loop is a run of the publish too. If no call is in progress at its
end, no iteration is left. -/
theorem Remote.loop {handler : PublishHandler} (remote : Remote handler) (iterations : Nat)
    (idle : handler.run.calling = none) (left : handler.run.iterations = iterations) :
    Machine.Reaches (PublishRun.step setting.answers) handler.run
        (loop setting iterations handler).1.run ∧
      ((loop setting iterations handler).1.run.calling = none →
        (loop setting iterations handler).1.run.iterations = 0) := by
  induction iterations generalizing handler with
  | zero => exact ⟨Relation.ReflTransGen.refl, fun _ => left⟩
  | succ iterations inductionHypothesis =>
    have moved : handler.run.step setting.answers .advance =
        some (handler.iterate iterations).run := by
      simp [PublishRun.step, idle, left, iterate]
    have further : Remote (handler.iterate iterations) :=
      ⟨remote.slots, fun called => remote.nextNode (Option.some.inj called)⟩
    have simulated := further.proceed setting 3
    have reached := Relation.ReflTransGen.head ⟨.advance, moved⟩ simulated.reaches
    rw [loop_succ]
    by_cases returned :
        (PublishHandler.proceed setting 3 (handler.iterate iterations)).2 = .returned
    · have calling := simulated.idle.mp returned
      rw [if_pos returned]
      obtain ⟨later, spent⟩ := inductionHypothesis ⟨simulated.slots, by simp [calling]⟩ calling
        simulated.iterations
      exact ⟨reached.trans later, spent⟩
    · rw [if_neg returned]
      exact ⟨reached, fun calling => absurd (simulated.idle.mpr calling) returned⟩

/-- Where no slot holds the local node, the handler and the late answers to
it lead to states of the publish as `PublishRun` has it. -/
theorem remote_reachable (isAlive : Node → Bool) (shuffle : Equiv.Perm (Fin 3))
    (localNode : LocalNode) (message : PublishMessage) (nextId : UInt32)
    (nodes : Fin 3 → Option Node)
    (found : localNode.ring.findQuorumForOperation isAlive shuffle
      (setting.murmurHash3 message.queueId) = .ok nodes)
    (remote : ∀ k, nodes k ≠ some localNode.self) (last : PublishHandler)
    (reached : Machine.Reaches (deliver setting)
      (handlePostMessage setting isAlive shuffle true localNode message nextId).1 last) :
    PublishRun.Reachable setting.answers message nextId nodes last.run := by
  obtain ⟨_, passed⟩ := handlePostMessage_does setting isAlive shuffle localNode message nextId
    nodes found
  rw [handlePostMessage_loop setting isAlive shuffle localNode message nextId nodes found]
    at reached passed
  have first : Remote (start localNode message nextId nodes) :=
    ⟨remote, by simp [start, PublishRun.start]⟩
  obtain ⟨ran, spent⟩ := first.loop setting 2 rfl rfl
  have kept := reached.invariant (fun last : PublishHandler =>
    PublishRun.Reachable setting.answers message nextId nodes last.run ∧
      (last.run.calling = none → last.run.iterations = 0) ∧
      (last.run.pending = [] ∨ 2 ≤ last.run.logic.lastNode)) ?_ ⟨ran, spent, passed⟩
  · exact kept.1
  · rintro before node after ⟨reachable, returned, ready⟩ delivered
    obtain ⟨⟨idle, outstanding⟩, rfl, ready'⟩ :=
      deliver_eq setting before after node ready delivered
    have moved : before.run.step setting.answers (.deliver node) =
        some ({ before.run with pending := before.run.pending.erase node }.answer
          setting.answers node) := by
      simp only [PublishRun.step]
      rw [if_pos ⟨idle, returned idle, outstanding⟩]
    have handled := PublishRun.answer_handled setting.answers
      { before.run with pending := before.run.pending.erase node } node
    exact ⟨reachable.tail ⟨_, moved⟩, fun _ => handled.kept.2.1.trans (returned idle),
      Or.inr ready'⟩

end Remote

end PublishHandler

end Sopmq
