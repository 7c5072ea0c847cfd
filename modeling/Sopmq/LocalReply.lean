import Sopmq.LocalNode
import Sopmq.QueueProjection
import Sopmq.RingAdditions

/-!
# The reply of the local node to a publish

`local_node_operations::send_proxy_publish` stores the message, moves its own clock
and answers with the clocks on record for the replicas of the queue. It never sets the
status of the answer, which therefore reads as the first value of the enumeration. The
identifiers in the answer are those of the clock records, which no constructor
initialises.

An answer is as it is meant to be, with whatever status it is meant to have, exactly
when that status is the first value, the records of the replicas carry the identifiers
of their nodes, and the local counter does not wrap.
-/

namespace Sopmq

/-- The bytes of an identifier are taken for that identifier. -/
theorem uuidFromBytes_of_uuid (messageId : Uuid) : uuidFromBytes messageId.val = .ok messageId := by
  rw [uuidFromBytes, dif_pos messageId.property]

namespace LocalNode

variable (murmurHash3 : String → UInt128) (node : LocalNode) (now : Time)
  (clientMessage : PublishMessage) (messageId : Uuid) (nodes : Fin 3 → Node)

/-- The identifier is not unstamped in the queue that the message is for.
The queue need not exist yet. -/
def Unqueued : Prop :=
  ∀ queue, node.queueManager.queues.find (murmurHash3 clientMessage.queueId) = some queue →
    queue.unstampedMessages.find messageId = none

/-- The message is unstamped in the queue that it is for, with its
identifier and its content. -/
def Queued (after : LocalNode) : Prop :=
  ∃ queue message,
    after.queueManager.queues.find (murmurHash3 clientMessage.queueId) = some queue ∧
    queue.unstampedMessages.find messageId = some message ∧
    message.id = messageId ∧ message.data = clientMessage.content

/-- The reply was given, for a queue with these replicas, in an earlier
state of the node, whose own clock has not moved since. -/
def PreviousReply (earlierNodes : Fin 3 → Node) (reply : ProxyPublishResponseMessage) : Prop :=
  ∃ (earlier : LocalNode) (time : Time) (message : PublishMessage), earlier.self = node.self ∧
    earlier.ring.findNodesForKey (murmurHash3 message.queueId) = .ok earlierNodes ∧
    (earlier.sendProxyPublish murmurHash3 time message).2.2 = .ok reply ∧
    (earlier.sendProxyPublish murmurHash3 time message).1.clock node.self = node.clock node.self

/-- A publish stores its message and is answered as it is meant to be: with
the given status, in reply to the message, with the clocks of the replicas
in their order, that of the local node being one greater than in the
previous reply. -/
def Replies (status : ProxyPublishStatus) : Prop :=
  Queued murmurHash3 clientMessage messageId
      (node.sendProxyPublish murmurHash3 now clientMessage).1 ∧
    ∃ response, (node.sendProxyPublish murmurHash3 now clientMessage).2.2 = .ok response ∧
      response.status = status ∧ response.identity.inReplyTo = clientMessage.identity.id ∧
      response.clock.clocks.map NodeClockMessage.nodeId = List.ofFn (fun p => (nodes p).nodeId) ∧
      ∀ earlierNodes reply, PreviousReply murmurHash3 node earlierNodes reply →
        ∀ p q : Fin 3, nodes p = node.self → earlierNodes q = node.self →
          ∀ entry entry', response.clock.clocks[p.val]? = some entry →
            reply.clock.clocks[q.val]? = some entry' →
              entry.clock.toNat = entry'.clock.toNat + 1

/-- What a publish with an identifier of the right size does on a ring with
nodes: it enqueues, ticks and answers. -/
theorem sendProxyPublish_eq (sized : clientMessage.messageId = messageId.val)
    (found : node.ring.findNodesForKey (murmurHash3 clientMessage.queueId) = .ok nodes) :
    node.sendProxyPublish murmurHash3 now clientMessage =
      ({ node.tick with
          queueManager := node.queueManager.enqueueMessage now
            (murmurHash3 clientMessage.queueId) messageId clientMessage.content
            clientMessage.ttl },
        { clientMessage with content := [] },
        .ok
          { identity := ⟨0, clientMessage.identity.id⟩
            statusField := none
            clock := node.tick.report nodes }) := by
  simp only [sendProxyPublish, sized, uuidFromBytes_of_uuid, tick, found]
  rfl

/-- It stores the message in its queue, unless the identifier was unstamped
there. -/
theorem sendProxyPublish_queued (sized : clientMessage.messageId = messageId.val)
    (found : node.ring.findNodesForKey (murmurHash3 clientMessage.queueId) = .ok nodes)
    (unqueued : Unqueued murmurHash3 node clientMessage messageId) :
    Queued murmurHash3 clientMessage messageId
      (node.sendProxyPublish murmurHash3 now clientMessage).1 := by
  rw [sendProxyPublish_eq murmurHash3 node now clientMessage messageId nodes sized found]
  have stored := node.queueManager.find_perform (now, .enqueueMessage
    (murmurHash3 clientMessage.queueId) messageId clientMessage.content clientMessage.ttl)
    (murmurHash3 clientMessage.queueId)
  simp only [ManagerCall.queueId, if_true] at stored
  refine ⟨_, QueuedMessage.create now messageId clientMessage.content, stored, ?_, rfl, rfl⟩
  rw [MessageQueue.receive, MessageQueue.find_enqueue, if_pos rfl]
  cases held : node.queueManager.queues.find (murmurHash3 clientMessage.queueId) with
  | none => rfl
  | some queue => rw [Option.getD_some, unqueued queue held, Option.getD_none]

/-- The entries of a report are the clocks on record, in the order of the
replicas. -/
theorem report_entry (p : Fin 3) :
    (node.report nodes).clocks[p.val]? = some (node.clock (nodes p)).toProtobuf := by
  rw [report, List.getElem?_ofFn, dif_pos p.isLt]

/-- The identifiers in a reply are those on record, which a tick does not
change. -/
theorem report_nodeIds :
    (node.tick.report nodes).clocks.map NodeClockMessage.nodeId =
      List.ofFn (fun p => (node.clock (nodes p)).nodeId) := by
  simp [report, NodeClock.toProtobuf, nodeId_tick]

/-- What the local node has on record is what its previous reply reported
for it, as its clock has not moved since. -/
theorem PreviousReply.recorded {earlierNodes : Fin 3 → Node}
    {reply : ProxyPublishResponseMessage}
    (previous : PreviousReply murmurHash3 node earlierNodes reply) (q : Fin 3)
    (own : earlierNodes q = node.self) :
    reply.clock.clocks[q.val]? = some (node.clock node.self).toProtobuf := by
  obtain ⟨earlier, time, message, same, found, answered, kept⟩ := previous
  obtain ⟨reported, ticked⟩ := sendProxyPublish_answered murmurHash3 earlier time message
    earlierNodes reply found answered
  rw [reported, report_entry, own, ← ticked, kept]

/-- The state before the last move of the own clock. The counter may have
wrapped there. -/
def untick : LocalNode :=
  { node with
    clock := Function.update node.clock node.self
      { node.clock node.self with clock := (node.clock node.self).clock - 1 } }

/-- A tick brings the own clock back to where it was. -/
theorem tick_untick : node.untick.tick.clock node.self = node.clock node.self := by
  simp [untick, tick]

/-- Every publish is the second of two: the first was made in the state
before, and had the same replicas. -/
theorem previousReply_untick (sized : clientMessage.messageId = messageId.val)
    (found : node.ring.findNodesForKey (murmurHash3 clientMessage.queueId) = .ok nodes) :
    PreviousReply murmurHash3 node nodes
      { identity := ⟨0, clientMessage.identity.id⟩
        statusField := none
        clock := node.untick.tick.report nodes } := by
  have published := sendProxyPublish_eq murmurHash3 node.untick 0 clientMessage messageId nodes
    sized found
  refine ⟨node.untick, 0, clientMessage, rfl, found, ?_, ?_⟩
  · rw [published]
  · rw [published]
    exact node.tick_untick

/-- On a ring that contains the local node, the publish of a message that is
not already unstamped is answered as meant, with the given status, exactly
when this is the first value of the enumeration, the clocks on record carry
the identifiers of their nodes, and the counter of the local node, if that
is a replica, does not wrap. -/
theorem local_reply_iff (contains : node.self ∈ node.ring.nodes)
    (sized : clientMessage.messageId = messageId.val)
    (unqueued : Unqueued murmurHash3 node clientMessage messageId)
    (status : ProxyPublishStatus) :
    ∃ nodes, node.ring.findNodesForKey (murmurHash3 clientMessage.queueId) = .ok nodes ∧
      (Replies murmurHash3 node now clientMessage messageId nodes status ↔
        status = .notAuth ∧ (∀ p, (node.clock (nodes p)).nodeId = (nodes p).nodeId) ∧
          ((∃ p, nodes p = node.self) → (node.clock node.self).clock.toNat + 1 < 2 ^ 64)) := by
  obtain ⟨nodes, found, _⟩ := node.ring.findNodesForKey_eq (murmurHash3 clientMessage.queueId)
    (node.ring.size_pos (List.ne_nil_of_mem contains))
  have published := sendProxyPublish_eq murmurHash3 node now clientMessage messageId nodes
    sized found
  have own (p : Fin 3) (here : nodes p = node.self) :
      (node.tick.report nodes).clocks[p.val]? =
        some { (node.clock node.self).toProtobuf with
          clock := (node.clock node.self).clock + 1 } := by
    rw [report_entry, here]
    simp [tick, NodeClock.toProtobuf]
  refine ⟨nodes, found, ?_, ?_⟩
  · rintro ⟨_, response, answered, state, _, ids, moved⟩
    rw [published] at answered
    obtain rfl := Except.ok.inj answered
    refine ⟨state.symm, fun p => ?_, ?_⟩
    · rw [report_nodeIds, List.ofFn_inj] at ids
      exact congrFun ids p
    · rintro ⟨p, here⟩
      have previous :=
        previousReply_untick murmurHash3 node clientMessage messageId nodes sized found
      have counted := moved _ _ previous p p here here _ _ (own p here)
        (previous.recorded murmurHash3 node p here)
      have bound := ((node.clock node.self).clock + 1).toNat_lt
      exact counted ▸ bound
  · rintro ⟨rfl, ids, fits⟩
    refine ⟨sendProxyPublish_queued murmurHash3 node now clientMessage messageId nodes sized found
      unqueued, _, by rw [published], rfl, rfl, ?_, ?_⟩
    · rw [report_nodeIds]
      exact congrArg List.ofFn (funext ids)
    · intro earlierNodes reply previous p q here here' entry entry' atEntry atEntry'
      rw [own p here] at atEntry
      rw [previous.recorded murmurHash3 node q here'] at atEntry'
      obtain rfl := Option.some.inj atEntry
      obtain rfl := Option.some.inj atEntry'
      exact toNat_succ _ (fits ⟨p, here⟩)

/-- A node that is alone in its ring, with its identifier in its clock and
no queues. -/
def loneNode : LocalNode where
  self := ⟨1, 10⟩
  ring := (Additions.after [⟨1, 10⟩]).ring
  clock node := ⟨node.nodeId, 0, 4⟩
  queueManager := QueueManager.empty

/-- The lone node has no queues, so nothing is unstamped there. -/
theorem sample_unqueued :
    Unqueued (fun _ => 15) loneNode .sample (Uuid.constant 1) := by
  intro queue held
  exact absurd held (by simp [loneNode, QueueManager.empty, KeyedMap.find_empty])

/-- Apart from its status, the reply of the lone node is as it is meant to
be: only the status that it reads as fits. -/
theorem local_reply_iff_lone :
    ∃ nodes, loneNode.ring.findNodesForKey 15 = .ok nodes ∧
      Replies (fun _ => 15) loneNode 0 .sample (Uuid.constant 1) nodes .notAuth := by
  obtain ⟨nodes, found, replies⟩ := local_reply_iff (fun _ => 15) loneNode 0 .sample
    (Uuid.constant 1) (by decide) rfl sample_unqueued .notAuth
  exact ⟨nodes, found, replies.mpr ⟨rfl, fun _ => rfl, fun _ => by decide⟩⟩

/-- The same message is stored and answered, and the answer does not say
that it is queued. -/
theorem stored_message_not_queued :
    ∃ nodes, loneNode.ring.findNodesForKey 15 = .ok nodes ∧
      Queued (fun _ => 15) .sample (Uuid.constant 1)
        (loneNode.sendProxyPublish (fun _ => 15) 0 .sample).1 ∧
      (∃ response, (loneNode.sendProxyPublish (fun _ => 15) 0 .sample).2.2 = .ok response ∧
        response.status = .notAuth) ∧
      ¬ Replies (fun _ => 15) loneNode 0 .sample (Uuid.constant 1) nodes .queued := by
  obtain ⟨nodes, found⟩ : ∃ nodes, loneNode.ring.findNodesForKey 15 = .ok nodes := ⟨_, rfl⟩
  have published := sendProxyPublish_eq (fun _ => 15) loneNode 0 .sample (Uuid.constant 1)
    nodes rfl found
  refine ⟨nodes, found, ?_, ⟨_, by rw [published], rfl⟩, ?_⟩
  · exact sendProxyPublish_queued (fun _ => 15) loneNode 0 .sample (Uuid.constant 1) nodes rfl
      found sample_unqueued
  · rintro ⟨_, response, answered, state, _⟩
    rw [published] at answered
    obtain rfl := Except.ok.inj answered
    cases state

end LocalNode

end Sopmq
