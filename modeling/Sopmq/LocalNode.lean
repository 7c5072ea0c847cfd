import Sopmq.Messages
import Sopmq.QueueManager
import Sopmq.Ring

/-!
# Operations on the local node

`local_node_operations` executes the operations that a node asks of itself. Each node
object of the ring carries the clock that this process has on record for it; the clock
of the local node is one of them. The hash of queue names is a parameter.
-/

namespace Sopmq

/-- `util::uuid_from_bytes`, which takes sixteen bytes and raises on any
other number. -/
def uuidFromBytes (bytes : Bytes) : Except String Uuid :=
  if size : bytes.length = 16 then .ok ⟨bytes, size⟩
  else .error "uuid_from_bytes(): input was not the correct size"

/-- What a local operation may raise: an identifier of the wrong size, or an
error of the ring. -/
inductive LocalError where
  | runtime (what : String)
  | ring (error : RingError)
deriving DecidableEq, Repr

/-- The state that `local_node_operations` works on: the local node, its
ring with the clock on record for each node, and its queues. -/
structure LocalNode where
  self : Node
  ring : Ring
  clock : Node → NodeClock
  queueManager : QueueManager 3

namespace LocalNode

/-- `++_clock.clock`, with the wrap-around of the counter. Only the clock of
the local node moves. -/
def tick (node : LocalNode) : LocalNode :=
  { node with
    clock := Function.update node.clock node.self
      { node.clock node.self with clock := (node.clock node.self).clock + 1 } }

/-- The clocks on record for the given nodes, as they are put into a
response, in the order of the nodes. -/
def report (node : LocalNode) (nodes : Fin 3 → Node) : VectorClockMessage where
  clocks := List.ofFn fun p => (node.clock (nodes p)).toProtobuf

/-- `local_node_operations::send_proxy_publish`: the node afterwards, the
client message whose content has been moved out, and the result handed to
the response callback or raised before it. The status of the response is not
set. -/
def sendProxyPublish (murmurHash3 : String → UInt128) (node : LocalNode) (now : Time)
    (clientMessage : PublishMessage) :
    LocalNode × PublishMessage × Except LocalError ProxyPublishResponseMessage :=
  let queueIdHash := murmurHash3 clientMessage.queueId
  match uuidFromBytes clientMessage.messageId with
  | .error what => (node, clientMessage, .error (.runtime what))
  | .ok messageId =>
      let node := { node with
        queueManager := node.queueManager.enqueueMessage now queueIdHash messageId
          clientMessage.content clientMessage.ttl }
      let clientMessage := { clientMessage with content := [] }
      let node := node.tick
      match node.ring.findNodesForKey queueIdHash with
      | .error error => (node, clientMessage, .error (.ring error))
      | .ok nodes =>
          (node, clientMessage, .ok
            { identity := ⟨0, clientMessage.identity.id⟩
              statusField := none
              clock := node.report nodes })

/-- The counter moves by one as long as it does not wrap. -/
theorem toNat_succ (counter : UInt64) (fits : counter.toNat + 1 < 2 ^ 64) :
    (counter + 1).toNat = counter.toNat + 1 := by
  rw [UInt64.toNat_add, UInt64.toNat_one, Nat.mod_eq_of_lt fits]

/-- So does the rank of the local clock, whose generation stays. -/
theorem rank_tick (node : LocalNode)
    (fits : (node.clock node.self).clock.toNat + 1 < 2 ^ 64) :
    (node.tick.clock node.self).rank = (node.clock node.self).rank + 1 := by
  have moved := toNat_succ _ fits
  simp only [tick, Function.update_self, NodeClock.rank, moved]
  omega

/-- The clocks on record for other nodes do not move. -/
theorem tick_other (node : LocalNode) (other : Node) (different : other ≠ node.self) :
    node.tick.clock other = node.clock other := by
  simp [tick, Function.update_of_ne different]

/-- A tick leaves the identifiers in all clocks. -/
theorem nodeId_tick (node : LocalNode) (other : Node) :
    (node.tick.clock other).nodeId = (node.clock other).nodeId := by
  by_cases same : other = node.self
  · subst same
    simp [tick]
  · rw [node.tick_other other same]

variable (murmurHash3 : String → UInt128) (node : LocalNode) (now : Time)
  (clientMessage : PublishMessage)

/-- What a publish does to the clocks of the node: nothing if it raises on
the message, else one tick. -/
theorem sendProxyPublish_kept :
    (node.sendProxyPublish murmurHash3 now clientMessage).1.self = node.self ∧
      (node.sendProxyPublish murmurHash3 now clientMessage).1.ring = node.ring ∧
      ((node.sendProxyPublish murmurHash3 now clientMessage).1.clock = node.clock ∨
        (node.sendProxyPublish murmurHash3 now clientMessage).1.clock = node.tick.clock) := by
  unfold sendProxyPublish
  cases uuidFromBytes clientMessage.messageId with
  | error what => exact ⟨rfl, rfl, Or.inl rfl⟩
  | ok messageId =>
    cases found : node.ring.findNodesForKey (murmurHash3 clientMessage.queueId) with
    | error error => simp [tick, found]
    | ok nodes => simp [tick, found]

/-- A publish that is answered has ticked, and its response reports the
clocks on record after the tick. -/
theorem sendProxyPublish_answered (nodes : Fin 3 → Node) (response : ProxyPublishResponseMessage)
    (found : node.ring.findNodesForKey (murmurHash3 clientMessage.queueId) = .ok nodes)
    (answered : (node.sendProxyPublish murmurHash3 now clientMessage).2.2 = .ok response) :
    response.clock = node.tick.report nodes ∧
      (node.sendProxyPublish murmurHash3 now clientMessage).1.clock = node.tick.clock := by
  unfold sendProxyPublish at answered ⊢
  cases converted : uuidFromBytes clientMessage.messageId with
  | error what => simp [converted] at answered
  | ok messageId =>
    simp only [converted, tick, found, Except.ok.injEq] at answered ⊢
    exact ⟨by rw [← answered]; rfl, trivial⟩

end LocalNode

end Sopmq
