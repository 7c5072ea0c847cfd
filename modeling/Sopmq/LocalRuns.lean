import Sopmq.LocalReply
import Sopmq.MurmurHash3

/-!
# Publishes to one node over a run

A node serves publishes one after the other. Each of them is refused for the size of its
identifier, or it stores its message, moves the own clock of the node by one and is answered. What
the node holds afterwards is told by the publishes: its counter by their number, and the messages
of a queue by those that name the queue. The last is a matter of the hash, since the queues are
kept under the hashes of their names.
-/

namespace Sopmq

namespace LocalNode

/-- A node serves publishes one after the other: the node afterwards, and
the result of each in order. -/
def serve (murmurHash3 : String → UInt128) (node : LocalNode) :
    List (Time × PublishMessage) →
      LocalNode × List (Except LocalError ProxyPublishResponseMessage)
  | [] => (node, [])
  | (now, clientMessage) :: rest =>
      let published := node.sendProxyPublish murmurHash3 now clientMessage
      let served := serve murmurHash3 published.1 rest
      (served.1, published.2.2 :: served.2)

/-- The size of the identifier is right, so that `uuid_from_bytes` does not
raise. -/
def accepted (publish : Time × PublishMessage) : Bool := publish.2.messageId.length == 16

variable (murmurHash3 : String → UInt128) (node : LocalNode)

/-- What a publish does to a node, whatever becomes of the reply. A ring
without nodes raises too late to undo it. -/
theorem sendProxyPublish_state (now : Time) (clientMessage : PublishMessage) :
    (node.sendProxyPublish murmurHash3 now clientMessage).1 =
      match uuidFromBytes clientMessage.messageId with
      | .error _ => node
      | .ok messageId =>
          { node.tick with
            queueManager := node.queueManager.enqueueMessage now
              (murmurHash3 clientMessage.queueId) messageId clientMessage.content
              clientMessage.ttl } := by
  unfold sendProxyPublish
  cases uuidFromBytes clientMessage.messageId with
  | error what => rfl
  | ok messageId =>
    simp only [tick]
    cases node.ring.findNodesForKey (murmurHash3 clientMessage.queueId) with
    | error error => rfl
    | ok nodes => rfl

/-- An identifier of the right size is read, and any other raises. -/
theorem uuidFromBytes_accepted (publish : Time × PublishMessage) :
    (accepted publish = true ∧
        ∃ messageId : Uuid, publish.2.messageId = messageId.val ∧
          uuidFromBytes publish.2.messageId = .ok messageId) ∨
      (accepted publish = false ∧
        uuidFromBytes publish.2.messageId =
          .error "uuid_from_bytes(): input was not the correct size") := by
  by_cases size : publish.2.messageId.length = 16
  · exact Or.inl ⟨beq_iff_eq.mpr size, ⟨_, size⟩, rfl, dif_pos size⟩
  · exact Or.inr ⟨beq_eq_false_iff_ne.mpr size, dif_neg size⟩

/-- The clocks on record are those at the start, but for the own clock,
which has counted. The node and its ring are the same. -/
def Counted (before after : LocalNode) (count : Nat) : Prop :=
  after.self = before.self ∧ after.ring = before.ring ∧
    after.clock = Function.update before.clock before.self
      { before.clock before.self with
        clock := (before.clock before.self).clock + UInt64.ofNat count }

/-- A node that has served nothing has counted nothing. -/
theorem Counted.refl : Counted node node 0 := by
  refine ⟨rfl, rfl, ?_⟩
  simp

/-- Counts of successive runs add up, with the wrap-around of the
counter. -/
theorem Counted.trans {first second third : LocalNode} {count more : Nat}
    (counted : Counted first second count) (further : Counted second third more) :
    Counted first third (count + more) := by
  obtain ⟨self, ring, clock⟩ := counted
  obtain ⟨self', ring', clock'⟩ := further
  refine ⟨self'.trans self, ring'.trans ring, ?_⟩
  rw [clock', self, clock]
  simp [UInt64.ofNat_add, UInt64.add_assoc]

/-- One publish counts if it is accepted, and otherwise changes no clock. -/
theorem sendProxyPublish_counted (publish : Time × PublishMessage) :
    Counted node (node.sendProxyPublish murmurHash3 publish.1 publish.2).1
      (if accepted publish then 1 else 0) := by
  rw [sendProxyPublish_state]
  rcases uuidFromBytes_accepted publish with ⟨size, messageId, -, ok⟩ | ⟨size, error⟩
  · rw [ok, if_pos size]
    exact ⟨rfl, rfl, rfl⟩
  · rw [error, size, if_neg (by decide)]
    exact Counted.refl node

/-- Over a run the accepted publishes are counted. By induction on the
publishes. -/
theorem serve_counted (publishes : List (Time × PublishMessage)) :
    Counted node (node.serve murmurHash3 publishes).1 (publishes.countP accepted) := by
  induction publishes generalizing node with
  | nil => exact Counted.refl node
  | cons publish rest inductionHypothesis =>
    have counted := (sendProxyPublish_counted murmurHash3 node publish).trans
      (inductionHypothesis (node.sendProxyPublish murmurHash3 publish.1 publish.2).1)
    rw [add_comm, ← List.countP_cons] at counted
    exact counted

/-- The reply to a publish is given in the state that the earlier ones have
left. -/
theorem serve_reply (publishes : List (Time × PublishMessage)) (i : Nat) :
    (node.serve murmurHash3 publishes).2[i]? =
      publishes[i]?.map fun publish =>
        ((node.serve murmurHash3 (publishes.take i)).1.sendProxyPublish murmurHash3 publish.1
          publish.2).2.2 := by
  induction publishes generalizing node i with
  | nil => simp [serve]
  | cons publish rest inductionHypothesis =>
    cases i with
    | zero => rfl
    | succ i =>
      exact inductionHypothesis (node.sendProxyPublish murmurHash3 publish.1 publish.2).1 i

/-- On a ring that contains the local node, over any run of publishes: the
own counter of the node moves by the number of the accepted ones, and no
other record of a clock changes. A publish is refused exactly for the size
of its identifier. The reply to an accepted one is in reply to it and has
one entry for each replica of its queue, where that of the node counts the
publishes accepted up to it, this one included. -/
theorem serve_run (contains : node.self ∈ node.ring.nodes)
    (publishes : List (Time × PublishMessage)) :
    (∀ other, (node.serve murmurHash3 publishes).1.clock other =
      if other = node.self then
        { node.clock node.self with
          clock := (node.clock node.self).clock + UInt64.ofNat (publishes.countP accepted) }
      else node.clock other) ∧
    ∀ (i : Nat) (publish : Time × PublishMessage), publishes[i]? = some publish →
      (accepted publish = false → (node.serve murmurHash3 publishes).2[i]? =
        some (.error (.runtime "uuid_from_bytes(): input was not the correct size"))) ∧
      (accepted publish = true → ∃ nodes response,
        node.ring.findNodesForKey (murmurHash3 publish.2.queueId) = .ok nodes ∧
          (node.serve murmurHash3 publishes).2[i]? = some (.ok response) ∧
          response.identity.inReplyTo = publish.2.identity.id ∧
          response.clock.clocks.length = 3 ∧
          ∀ p : Fin 3, response.clock.clocks[p.val]? = some
            (if nodes p = node.self then
              { (node.clock node.self).toProtobuf with
                clock := (node.clock node.self).clock +
                  UInt64.ofNat ((publishes.take (i + 1)).countP accepted) }
            else (node.clock (nodes p)).toProtobuf)) := by
  constructor
  · intro other
    obtain ⟨-, -, clock⟩ := serve_counted murmurHash3 node publishes
    rw [clock]
    by_cases own : other = node.self
    · rw [if_pos own, own, Function.update_self]
    · rw [if_neg own, Function.update_of_ne own]
  · intro i publish place
    have reply := serve_reply murmurHash3 node publishes i
    rw [place, Option.map_some] at reply
    obtain ⟨self, ring, clock⟩ := serve_counted murmurHash3 node (publishes.take i)
    generalize (node.serve murmurHash3 (publishes.take i)).1 = before at reply self ring clock
    rcases uuidFromBytes_accepted publish with ⟨size, messageId, sized, -⟩ | ⟨size, error⟩
    · refine ⟨fun refused => absurd (size.symm.trans refused) (by decide), fun _ => ?_⟩
      obtain ⟨nodes, found, _⟩ := node.ring.findNodesForKey_eq (murmurHash3 publish.2.queueId)
        (node.ring.size_pos (List.ne_nil_of_mem contains))
      have published := sendProxyPublish_eq murmurHash3 before publish.1 publish.2 messageId nodes
        sized (ring ▸ found)
      rw [published] at reply
      refine ⟨nodes, _, found, reply, rfl, List.length_ofFn, fun p => ?_⟩
      rw [report_entry]
      have next : publishes.take (i + 1) = publishes.take i ++ [publish] := by
        rw [List.take_add_one, place, Option.toList_some]
      have counted : (publishes.take (i + 1)).countP accepted =
          (publishes.take i).countP accepted + 1 := by
        rw [next, List.countP_append, List.countP_singleton, if_pos size]
      by_cases own : nodes p = node.self
      · rw [if_pos own, own, ← self]
        simp [tick, clock, self, NodeClock.toProtobuf, counted, UInt64.ofNat_add, UInt64.add_assoc]
      · rw [if_neg own, before.tick_other _ (self ▸ own), clock, Function.update_of_ne own]
    · refine ⟨fun _ => ?_, fun took => absurd (size.symm.trans took) (by decide)⟩
      rw [reply]
      simp only [sendProxyPublish, error]

/-- Three publishes to a node that is alone in its ring, the second with an
identifier of no bytes. -/
def lonePublishes : List (Time × PublishMessage) :=
  [(0, .sample), (1, { PublishMessage.sample with messageId := [] }), (2, .sample)]

/-- The second of them raises and is not counted, so the counter moves from
four to six. -/
theorem serve_run_lone :
    ((loneNode.serve (fun _ => 15) lonePublishes).1.clock loneNode.self).clock = 6 ∧
      (loneNode.serve (fun _ => 15) lonePublishes).2[1]? =
        some (.error (.runtime "uuid_from_bytes(): input was not the correct size")) := by
  obtain ⟨clock, replies⟩ := serve_run (fun _ => 15) loneNode (by decide) lonePublishes
  refine ⟨?_, (replies 1 _ rfl).1 rfl⟩
  rw [clock, if_pos rfl]
  rfl

/-- The message that a node holds unstamped, for a queue and an identifier,
if it holds one. -/
def unstamped (queueId : UInt128) (messageId : Uuid) : Option (QueuedMessage 3) :=
  (node.queueManager.queues.find queueId).bind fun queue => queue.unstampedMessages.find messageId

/-- A message enters its own queue, unless its identifier is there already,
and no other. -/
theorem unstamped_sendProxyPublish (now : Time) (clientMessage : PublishMessage)
    (queueId : UInt128) (messageId : Uuid) :
    (node.sendProxyPublish murmurHash3 now clientMessage).1.unstamped queueId messageId =
      (node.unstamped queueId messageId).or
        (if murmurHash3 clientMessage.queueId = queueId ∧
            clientMessage.messageId = messageId.val then
          some (QueuedMessage.create now messageId clientMessage.content)
        else none) := by
  rw [sendProxyPublish_state]
  rcases uuidFromBytes_accepted (now, clientMessage) with ⟨-, id, sized, ok⟩ | ⟨size, error⟩
  · simp only at sized ok
    have stored := node.queueManager.find_perform (now, .enqueueMessage
      (murmurHash3 clientMessage.queueId) id clientMessage.content clientMessage.ttl) queueId
    simp only [QueueManager.perform, ManagerCall.queueId, MessageQueue.receive] at stored
    rw [ok]
    simp only [unstamped, stored, sized]
    by_cases here : murmurHash3 clientMessage.queueId = queueId
    · simp only [here, if_true, Option.bind_some, MessageQueue.find_enqueue, true_and]
      by_cases same : messageId = id
      · subst same
        cases node.queueManager.queues.find queueId with
        | none => simp [MessageQueue.create, KeyedMap.find_empty]
        | some queue => cases queue.unstampedMessages.find messageId <;> simp
      · have other : id.val ≠ messageId.val := fun equal => same (Subtype.ext equal.symm)
        cases node.queueManager.queues.find queueId with
        | none => simp [same, other, MessageQueue.create, KeyedMap.find_empty]
        | some queue => simp [same, other]
    · simp [here]
  · have other : clientMessage.messageId ≠ messageId.val := by
      intro equal
      have wrong := beq_eq_false_iff_ne.mp size
      exact wrong (equal ▸ messageId.property)
    simp only at error
    rw [error]
    simp [other]

/-- The first publish to a queue with an identifier, among those of a
run. -/
def firstPublish (publishes : List (Time × PublishMessage)) (name : String) (messageId : Uuid) :
    Option (Time × PublishMessage) :=
  publishes.find? fun publish =>
    decide (publish.2.queueId = name ∧ publish.2.messageId = messageId.val)

/-- Over a run a queue gets the publishes that name it, if no other name has
its hash. Of those with one identifier it keeps the first. -/
theorem unstamped_serve (publishes : List (Time × PublishMessage)) (name : String)
    (separate : ∀ publish ∈ publishes,
      murmurHash3 publish.2.queueId = murmurHash3 name → publish.2.queueId = name)
    (messageId : Uuid) :
    (node.serve murmurHash3 publishes).1.unstamped (murmurHash3 name) messageId =
      (node.unstamped (murmurHash3 name) messageId).or
        ((firstPublish publishes name messageId).map fun publish =>
          QueuedMessage.create publish.1 messageId publish.2.content) := by
  induction publishes generalizing node with
  | nil => simp [serve, firstPublish]
  | cons publish rest inductionHypothesis =>
    have continued := inductionHypothesis
      (node.sendProxyPublish murmurHash3 publish.1 publish.2).1
      fun other member => separate other (List.mem_cons_of_mem _ member)
    have named : murmurHash3 publish.2.queueId = murmurHash3 name ↔ publish.2.queueId = name :=
      ⟨separate publish List.mem_cons_self, congrArg murmurHash3⟩
    simp only [unstamped_sendProxyPublish, named] at continued
    refine continued.trans ?_
    rw [Option.or_assoc]
    simp only [firstPublish, List.find?_cons]
    by_cases chosen : publish.2.queueId = name ∧ publish.2.messageId = messageId.val
    · simp [chosen]
    · simp [chosen]

/-- Over any run of publishes to queues whose names differ from a given one
within one window of sixteen bytes, the node holds for the given name what
was published to it and nothing else: under each identifier the content of
the first publish of that name with that identifier, or what it has held
there before.

Proof: the queues are told apart by the hashes of their names. A message
enters the queue of its name unless its identifier is there, so the first
one stays. -/
theorem served_messages (host : ByteOrder.Host) (publishes : List (Time × PublishMessage))
    (name : String) (windows : ∀ publish ∈ publishes, OneWindow publish.2.queueId name)
    (messageId : Uuid) :
    (node.serve (murmurHash3OfName host) publishes).1.unstamped (murmurHash3OfName host name)
        messageId =
      (node.unstamped (murmurHash3OfName host name) messageId).or
        ((firstPublish publishes name messageId).map fun publish =>
          QueuedMessage.create publish.1 messageId publish.2.content) :=
  unstamped_serve (murmurHash3OfName host) node publishes name
    (fun publish member same => (windows publish member).eq_of_hash same) messageId

/-- Publishes with one identifier to queues of different names, with
different contents. -/
def twoPublishes : List (Time × PublishMessage) :=
  [(0, { PublishMessage.sample with queueId := "other" }),
    (1, { PublishMessage.sample with content := [2] })]

/-- Each of the queues has its own message, as the names differ within one
window. -/
theorem served_messages_two :
    (loneNode.serve (murmurHash3OfName .little) twoPublishes).1.unstamped
        (murmurHash3OfName .little "queue") (Uuid.constant 1) =
      some (QueuedMessage.create 1 (Uuid.constant 1) [2]) := by
  have windows : ∀ publish ∈ twoPublishes, OneWindow publish.2.queueId "queue" := by
    intro publish member
    rcases List.mem_pair.mp member with rfl | rfl
    · exact OneWindow.of_short "other" "queue" (by decide) (by decide)
    · exact OneWindow.of_short "queue" "queue" (by decide) (by decide)
  exact served_messages loneNode .little twoPublishes "queue" windows (Uuid.constant 1)

end LocalNode

end Sopmq
