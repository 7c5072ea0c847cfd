import Sopmq.PublishSafety
import Sopmq.RingQuorum

/-!
# Publishes to a server as it starts

The constructor of `server` adds the local node to its ring, and nothing else in the program adds a
node. So the ring of a running server has one node, which is live because it is the local one. All
three replicas of a key are that node, and the quorum for an operation is an array with the node in
its first slot and null in the others.

A publish to such a server is never answered. The node stores the message, but the status of its
reply is not set, which the handler takes for a failure; the next node that it calls is null.
-/

namespace Sopmq

namespace Ring

variable {ring : Ring} {self : Node}

/-- The ring that the constructor of `server` makes: the local node is added
to an empty ring. -/
def ofServer (self : Node) : Except RingError Ring := build [self]

/-- This ring has one entry, the local node under its range start. -/
theorem ofServer_eq (built : ofServer self = .ok ring) :
    ring.ringByRange.entries = [(self.rangeStart, self)] := by
  cases built
  rfl

/-- The node of the server is every replica of every key, since the
iterators wrap around to it. -/
theorem findNodesForKey_ofServer (built : ofServer self = .ok ring) (key : UInt128) :
    ring.findNodesForKey key = .ok fun _ => self := by
  have entries := ofServer_eq built
  obtain ⟨replicas, found, located⟩ := ring.findNodesForKey_eq key
    (by rw [SortedMap.size, entries]; exact Nat.one_pos)
  rw [found]
  congr 1
  funext p
  have only := located p
  rw [entries] at only
  cases place : ring.position key p with
  | zero =>
    rw [place] at only
    exact (Option.some.inj only).symm
  | succ place' =>
    rw [place] at only
    cases only

/-- The quorum of every key is the node of the server, whatever the shuffle.
The repetitions are blanked. -/
theorem findQuorumForOperation_ofServer (built : ofServer self = .ok ring)
    (isAlive : Node → Bool) (alive : isAlive self = true) (shuffle : Equiv.Perm (Fin 3))
    (key : UInt128) :
    ring.findQuorumForOperation isAlive shuffle key = .ok ![some self, none, none] := by
  have shuffled : List.ofFn ((fun _ : Fin 3 => self) ∘ shuffle) = [self, self, self] := by
    simp [List.ofFn_succ]
  have selected : selectLive isAlive [self, self, self] (fun _ => none) 0 =
      (![some self, some self, some self], 3) := by
    simp only [selectLive, alive, if_true]
    congr 1
    funext slot
    fin_cases slot <;> rfl
  rw [findQuorumForOperation, findNodesForKey_ofServer built]
  simp only [bind, Except.bind, shuffled, selected, compress_eq]
  simp [slots]

end Ring

/-- A refusal by the first node leads to the second slot. No response is
sent before that. -/
theorem PublishRun.answer_refused (answers : Answers) (run : PublishRun) (node : Node)
    (response : ProxyPublishResponseMessage) (replied : answers.reply node = .message response)
    (refused : response.status ≠ .queued) (unfailed : run.logic.failedNodes = [])
    (first : run.logic.lastNode = 1) (null : run.logic.allNodes 1 = none) :
    (run.answer answers node).calling = some none ∧
      (run.answer answers node).responses = run.responses := by
  simp [answer, replied, refused, nodeFailed, QuorumLogic.nodeFailed, QuorumLogic.canContinue,
    unfailed, first, perform, QuorumLogic.callFunction, QuorumLogic.nextNode, null, log, responses]

namespace PublishHandler

variable (setting : PublishSetting) {localNode : LocalNode}

/-- A call of the local node is served at once, and its reply goes to the
callback before the call returns. -/
theorem proceed_self (fuel : Nat) (handler : PublishHandler)
    (called : handler.run.calling = some (some handler.localNode.self)) :
    proceed setting (fuel + 1) handler =
      match (handler.handTo handler.localNode.self).serve setting with
      | (after, .error error) => (after, .raised error)
      | (after, .ok response) =>
          after.callback (proceed setting fuel) (setting.answers.replying response)
            handler.localNode.self := by
  rw [proceed, called]
  exact if_pos rfl

/-- A call through a null pointer ends the handler there. -/
theorem proceed_null (fuel : Nat) (handler : PublishHandler)
    (called : handler.run.calling = some none) :
    proceed setting fuel handler = (handler, .nullDereferenced) := by
  unfold proceed
  rw [called]

/-- The callback of a reply that is not QUEUED calls the second slot, which
is null, and has sent nothing. -/
theorem callback_refused (fuel : Nat) (handler : PublishHandler) (node : Node)
    (response : ProxyPublishResponseMessage) (refused : response.status ≠ .queued)
    (unfailed : handler.run.logic.failedNodes = []) (first : handler.run.logic.lastNode = 1)
    (null : handler.run.logic.allNodes 1 = none) :
    (handler.callback (proceed setting fuel) (setting.answers.replying response) node).2 =
        .nullDereferenced ∧
      (handler.callback (proceed setting fuel) (setting.answers.replying response)
        node).1.localNode = handler.localNode ∧
      (handler.callback (proceed setting fuel) (setting.answers.replying response)
        node).1.run.responses = handler.run.responses := by
  obtain ⟨calling, responses⟩ := handler.run.answer_refused (setting.answers.replying response) node
    response rfl refused unfailed first null
  have ended := proceed_null setting fuel
    { handler with run := handler.run.answer (setting.answers.replying response) node } calling
  rw [callback_unraised _ _ (by simp [ended]), ended]
  exact ⟨rfl, rfl, responses⟩

/-- The first call of a publish to the node of the server, with the quorum
that its ring gives. -/
def firstCall (localNode : LocalNode) (message : PublishMessage) (nextId : UInt32) :
    PublishHandler :=
  (start localNode message nextId ![some localNode.self, none, none]).iterate 1

/-- What becomes of the first call: the local node raises before it has
changed anything, or it takes the message, and its reply leads to the null
in the second slot. -/
theorem proceed_firstCall (message : PublishMessage) (nextId : UInt32) (replicas : Fin 3 → Node)
    (located : localNode.ring.findNodesForKey (setting.murmurHash3 message.queueId) =
      .ok replicas) :
    (proceed setting 3 (firstCall localNode message nextId)).2 =
      (if message.messageId.length = 16 then .nullDereferenced else .raised wrongSize) ∧
    (proceed setting 3 (firstCall localNode message nextId)).1.localNode =
      (localNode.sendProxyPublish setting.murmurHash3 setting.now message).1 ∧
    (proceed setting 3 (firstCall localNode message nextId)).1.run.responses = [] := by
  have served : ((firstCall localNode message nextId).handTo localNode.self).serve setting =
      ({ (firstCall localNode message nextId).handTo localNode.self with
          localNode := (localNode.sendProxyPublish setting.murmurHash3 setting.now message).1
          run := { ((firstCall localNode message nextId).handTo localNode.self).run with
            message :=
              (localNode.sendProxyPublish setting.murmurHash3 setting.now message).2.1 } },
        (localNode.sendProxyPublish setting.murmurHash3 setting.now message).2.2) := rfl
  have called := proceed_self setting 2 (firstCall localNode message nextId) rfl
  rw [show (firstCall localNode message nextId).localNode.self = localNode.self from rfl,
    served] at called
  rcases localNode.sendProxyPublish_cases setting.murmurHash3 setting.now message replicas
    located with ⟨size, unchanged⟩ | ⟨size, response, answered, refused⟩
  · rw [if_neg size, called, unchanged]
    exact ⟨rfl, rfl, rfl⟩
  · rw [if_pos size, called, answered]
    exact callback_refused setting 2 _ localNode.self response refused rfl rfl rfl

/-- No publish to a server with the ring that it starts with is answered,
and none of them returns. With an identifier of the right size the node
stores the message, and the handler then calls null. With another one the
error of `uuid_from_bytes` leaves the handler, and the node is unchanged. -/
theorem server_publish_unanswered (isAlive : Node → Bool) (shuffle : Equiv.Perm (Fin 3))
    (localNode : LocalNode) (message : PublishMessage) (nextId : UInt32)
    (built : Ring.ofServer localNode.self = .ok localNode.ring)
    (alive : isAlive localNode.self = true) :
    let ended := handlePostMessage setting isAlive shuffle true localNode message nextId
    ended.1.run.responses = [] ∧
      (message.messageId.length = 16 → ended.2 = .nullDereferenced ∧
        ended.1.localNode =
          (localNode.sendProxyPublish setting.murmurHash3 setting.now message).1) ∧
      (message.messageId.length ≠ 16 → ended.2 = .raised wrongSize ∧
        ended.1.localNode = localNode) := by
  have quorum := Ring.findQuorumForOperation_ofServer built isAlive alive shuffle
    (setting.murmurHash3 message.queueId)
  have located := Ring.findNodesForKey_ofServer built (setting.murmurHash3 message.queueId)
  obtain ⟨outcome, node, responses⟩ := proceed_firstCall setting message nextId _ located
  rw [handlePostMessage_loop setting isAlive shuffle localNode message nextId _ quorum]
  have unreturned : (proceed setting 3 (firstCall localNode message nextId)).2 ≠ .returned := by
    rw [outcome]
    split <;> simp
  have only : loop setting 2 (start localNode message nextId ![some localNode.self, none, none]) =
      proceed setting 3 (firstCall localNode message nextId) := by
    rw [loop_succ]
    exact if_neg unreturned
  rw [only]
  refine ⟨responses, fun size => ⟨outcome.trans (if_pos size), node⟩, fun size =>
    ⟨outcome.trans (if_neg size), node.trans ?_⟩⟩
  rcases localNode.sendProxyPublish_cases setting.murmurHash3 setting.now message _ located with
    ⟨-, unchanged⟩ | ⟨sized, -⟩
  · rw [unchanged]
  · exact absurd sized size

/-- A server with the node `1` is sent a message with an identifier of 16
bytes, and its handler calls null. -/
theorem server_publish_unanswered_first :
    ∃ ring, Ring.ofServer ⟨1, 10⟩ = .ok ring ∧
      (handlePostMessage lateSetting (fun _ => true) 1 true (freshNode ⟨1, 10⟩ ring)
        PublishMessage.sample 0).2 = .nullDereferenced := by
  obtain ⟨ring, built⟩ : ∃ ring, Ring.ofServer ⟨1, 10⟩ = .ok ring := ⟨_, rfl⟩
  exact ⟨ring, built, ((server_publish_unanswered lateSetting (fun _ => true) 1
    (freshNode ⟨1, 10⟩ ring) PublishMessage.sample 0 built rfl).2.1 rfl).1⟩

end PublishHandler

end Sopmq
