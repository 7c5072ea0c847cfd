import Sopmq.MessageQueue

/-!
# The queues of one node

`queue_manager<RF>` creates a queue when its identifier is first used. The heap of
queues by expiration is only ever pushed to, and is kept as the list of the
identifiers of its elements. The steady clock is read through an argument; the mutex is
left out.
-/

namespace Sopmq

/-- `queue_manager<RF>`: the queues by their identifiers, and the heap of
those that have been created. -/
structure QueueManager (RF : Nat) where
  queues : KeyedMap UInt128 (MessageQueue RF)
  queuesByExpiration : List UInt128

namespace QueueManager

variable {RF : Nat}

/-- A new queue manager, without any queue. -/
def empty : QueueManager RF where
  queues := KeyedMap.empty
  queuesByExpiration := []

/-- `queue_manager::get_queue`: the manager in which the queue exists. The
queue itself is returned by reference, so what a caller does to it is a
change of the manager. -/
def getQueue (manager : QueueManager RF) (now : Time) (queueId : UInt128) : QueueManager RF :=
  match manager.queues.find queueId with
  | none =>
      { queues := manager.queues.insert queueId (MessageQueue.create now queueId)
        queuesByExpiration := manager.queuesByExpiration ++ [queueId] }
  | some _ => manager

/-- `queue_manager::enqueue_message`: the queue is created if need be, and
takes the message. -/
def enqueueMessage (manager : QueueManager RF) (now : Time) (queueId : UInt128) (messageId : Uuid)
    (data : Bytes) (ttlSecs : UInt32) : QueueManager RF :=
  let manager := manager.getQueue now queueId
  { manager with
    queues := manager.queues.adjust queueId fun queue => queue.enqueue now messageId data ttlSecs }

/-- `queue_manager::stamp_message`, which drops the result of the queue's
`stamp`. A stamp may create a queue as well. -/
def stampMessage (manager : QueueManager RF) (now : Time) (queueId : UInt128) (messageId : Uuid)
    (clock : VectorClock RF) : QueueManager RF :=
  let manager := manager.getQueue now queueId
  { manager with
    queues := manager.queues.adjust queueId fun queue => (queue.stamp now messageId clock).1 }

end QueueManager

end Sopmq
