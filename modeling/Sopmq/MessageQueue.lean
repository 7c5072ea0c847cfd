import Sopmq.Arrival
import Sopmq.Basic
import Sopmq.KeyedMap
import Sopmq.VectorClock

/-!
# The message queue of one node

`message_queue<RF>` keeps arriving messages by identifier until their stamp is
known, and then files them in a `std::multimap` under the stamp. An index maps
the identifiers of filed messages to their entries.

The multimap is the list of its entries in iteration order. Insertion, with the
end hint or without, places an entry after all entries not greater than it, which
for a comparator that is no strict weak ordering is taken as the meaning of the
call. Entries carry the number of the insertion that made them, in the place of
the iterator that insertion returns. The steady clock is read through an argument,
one reading for a whole call. The mutex is left out: every operation holds it for
its whole duration.
-/

namespace Sopmq

/-- `queued_message<RF>`: a message with the time from which its age is
counted. The clock is a field of its own, next to the stamp that the message
is filed under. -/
structure QueuedMessage (RF : Nat) where
  id : Uuid
  data : Bytes
  localTime : Time
  vclock : VectorClock RF

namespace QueuedMessage

variable {RF : Nat}

/-- `queued_message(id, data)`, which takes the data and reads the clock.
The vector clock is default constructed. -/
def create (now : Time) (id : Uuid) (data : Bytes) : QueuedMessage RF where
  id := id
  data := data
  localTime := now
  vclock := VectorClock.zero

/-- `queued_message::update_local_timestamp`: the age is counted anew from
the stamp on. -/
def updateLocalTimestamp (message : QueuedMessage RF) (now : Time) : QueuedMessage RF :=
  { message with localTime := now }

/-- `queued_message::calc_size`: the sizes of the identifier, the time point
and the vector clock, and the length of the data, truncated to 32 bits. -/
def calcSize (RF dataSize : Nat) : UInt32 :=
  UInt32.ofNat (16 + 8 + 16 * RF + dataSize)

/-- `queued_message::age`, since the message was enqueued or stamped. -/
def age (message : QueuedMessage RF) (now : Time) : Int := now - message.localTime

/-- The test `age() > ttlSecs` of the expiry loops. The steady clock counts
nanoseconds. -/
def expired (ttlSecs : UInt32) (now : Time) (message : QueuedMessage RF) : Bool :=
  decide (message.age now > 1000000000 * ttlSecs.toNat)

end QueuedMessage

/-- An element of the multimap of filed messages, with its key and the
number of the insertion that made it. -/
structure QueueEntry (RF : Nat) where
  handle : Nat
  key : VectorClock RF
  message : QueuedMessage RF

/-- The key comparator of the multimap, which is `operator <` of the
stamps. -/
def QueueEntry.less {RF : Nat} (lhs rhs : QueueEntry RF) : Bool :=
  decide (VectorClock.Less lhs.key rhs.key)

/-- `message_queue<RF>`: the unstamped messages by identifier, the filed
ones in the order of the multimap, and the index of handles to these. -/
structure MessageQueue (RF : Nat) where
  queueId : UInt128
  createdOn : Time
  totalMessageSize : UInt32
  ttlSet : Bool
  ttl : UInt32
  unstampedMessages : KeyedMap Uuid (QueuedMessage RF)
  queuedMessages : List (QueueEntry RF)
  messageIndex : KeyedMap Uuid Nat
  nextHandle : Nat

namespace MessageQueue

variable {RF : Nat}

/-- `message_queue(queueId)`. The time to live is set by the first
message. -/
def create (now : Time) (queueId : UInt128) : MessageQueue RF where
  queueId := queueId
  createdOn := now
  totalMessageSize := 0
  ttlSet := false
  ttl := 0
  unstampedMessages := KeyedMap.empty
  queuedMessages := []
  messageIndex := KeyedMap.empty
  nextHandle := 0

/-- `message_queue::enqueue`. The first message sets the queue's time to
live. A message whose identifier is already unstamped is counted but not
inserted. -/
def enqueue (queue : MessageQueue RF) (now : Time) (id : Uuid) (data : Bytes) (ttlSecs : UInt32) :
    MessageQueue RF :=
  { queue with
    ttlSet := true
    ttl := if queue.ttlSet then queue.ttl else ttlSecs
    totalMessageSize := queue.totalMessageSize + QueuedMessage.calcSize RF data.length
    unstampedMessages := queue.unstampedMessages.insert id (QueuedMessage.create now id data) }

/-- `message_queue::stamp`: move the message from the unstamped ones to the
multimap, under its stamp. The message's own clock is not set. -/
def stamp (queue : MessageQueue RF) (now : Time) (id : Uuid) (vclock : VectorClock RF) :
    MessageQueue RF × Bool :=
  match queue.unstampedMessages.find id with
  | none => (queue, false)
  | some message =>
      let entry : QueueEntry RF :=
        { handle := queue.nextHandle
          key := vclock
          message := message.updateLocalTimestamp now }
      ({ queue with
        queuedMessages := Arrival.place QueueEntry.less entry queue.queuedMessages
        messageIndex := queue.messageIndex.insert id queue.nextHandle
        unstampedMessages := queue.unstampedMessages.erase id
        nextHandle := queue.nextHandle + 1 }, true)

/-- The first loop of `message_queue::expire_messages`, over the filed
messages in the order of the multimap. It stops at the first message that
has not expired. -/
def expireQueued (ttlSecs : UInt32) (now : Time) :
    List (QueueEntry RF) → UInt32 → List (QueueEntry RF) × UInt32
  | [], size => ([], size)
  | entry :: rest, size =>
      if entry.message.expired ttlSecs now then
        expireQueued ttlSecs now rest
          (size - QueuedMessage.calcSize RF entry.message.data.length)
      else
        (entry :: rest, size)

/-- The second loop of `message_queue::expire_messages`, over all unstamped
messages. -/
def expireUnstamped (ttlSecs : UInt32) (now : Time) :
    List (Uuid × QueuedMessage RF) → UInt32 → UInt32
  | [], size => size
  | (_, message) :: rest, size =>
      if message.expired ttlSecs now then
        expireUnstamped ttlSecs now rest
          (size - QueuedMessage.calcSize RF message.data.length)
      else
        expireUnstamped ttlSecs now rest size

/-- `message_queue::expire_messages`: the filed messages up to the first
that is not overdue, and all overdue unstamped ones. The index is not
touched. -/
def expireMessages (queue : MessageQueue RF) (now : Time) : MessageQueue RF :=
  let afterQueued := expireQueued queue.ttl now queue.queuedMessages queue.totalMessageSize
  { queue with
    queuedMessages := afterQueued.1
    unstampedMessages :=
      queue.unstampedMessages.filter (fun entry => !entry.2.expired queue.ttl now)
    totalMessageSize :=
      expireUnstamped queue.ttl now queue.unstampedMessages.entries afterQueued.2 }

/-- `message_queue::memory_size`, which is the running counter. -/
def memorySize (queue : MessageQueue RF) : UInt32 := queue.totalMessageSize

/-- `message_queue::total_count`: unstamped and filed messages together. -/
def totalCount (queue : MessageQueue RF) : Nat :=
  queue.unstampedMessages.entries.length + queue.queuedMessages.length

/-- The entry that a handle of the index points to, unless it has been
erased. -/
def dereference (queue : MessageQueue RF) (handle : Nat) : Option (QueueEntry RF) :=
  queue.queuedMessages.find? (fun entry => decide (entry.handle = handle))

/-- `message_queue::claim`, read as the removal of the entry that the index
gives together with the index record. There is no value when that entry has
been erased already: the handle dangles. -/
def claim (queue : MessageQueue RF) (messageId : Uuid) : Option (MessageQueue RF) :=
  match queue.messageIndex.find messageId with
  | none => some queue
  | some handle =>
      (queue.dereference handle).map fun entry =>
        { queue with
          totalMessageSize :=
            queue.totalMessageSize - QueuedMessage.calcSize RF entry.message.data.length
          queuedMessages :=
            queue.queuedMessages.filter (fun other => decide (other.handle ≠ handle))
          messageIndex := queue.messageIndex.erase messageId }

/-- `std::multimap::find` on the filed messages, as the elements from the
returned iterator on. The search stops at the first element that is not less
than the key; unless the key is not less than that one either, the result is
the end. -/
def findStamp (lastMessage : VectorClock RF) : List (QueueEntry RF) → List (QueueEntry RF)
  | [] => []
  | entry :: rest =>
      if VectorClock.Less entry.key lastMessage then findStamp lastMessage rest
      else if VectorClock.Less lastMessage entry.key then []
      else entry :: rest

/-- `message_queue::peek`: the messages from where the search for the stamp
ends, and none if it is not found. The message that was found is among
them. -/
def peek (queue : MessageQueue RF) (lastMessage : VectorClock RF) : List (QueuedMessage RF) :=
  (findStamp lastMessage queue.queuedMessages).map QueueEntry.message

/-- `message_queue::peekAll`: the filed messages in the order of the
multimap. -/
def peekAll (queue : MessageQueue RF) : List (QueuedMessage RF) :=
  queue.queuedMessages.map QueueEntry.message

/-- Every unstamped message is filed under its own identifier. -/
def FiledById (queue : MessageQueue RF) : Prop :=
  ∀ id message, queue.unstampedMessages.find id = some message → message.id = id

/-- Identifier and stamp of the filed messages, in the order of the
multimap. -/
def filed (queue : MessageQueue RF) : List (Uuid × VectorClock RF) :=
  queue.queuedMessages.map (fun entry => (entry.message.id, entry.key))

/-- The comparator on stamped identifiers, by which entries may be read
without their messages. -/
def stampLess (lhs rhs : Uuid × VectorClock RF) : Bool := decide (VectorClock.Less lhs.2 rhs.2)

/-- `peekAll` lists the filed identifiers in their order. -/
theorem peekAll_ids (queue : MessageQueue RF) :
    queue.peekAll.map QueuedMessage.id = queue.filed.map Prod.fst := by
  simp [peekAll, filed, Function.comp_def]

/-- A new queue has no unstamped messages, so none is misfiled. -/
theorem create_filedById (now : Time) (queueId : UInt128) :
    (create now queueId : MessageQueue RF).FiledById := by
  intro id message found
  rw [create, KeyedMap.find_empty] at found
  exact absurd found (Option.some_ne_none message).symm

/-- Enqueueing adds its own identifier to the unstamped ones, and leaves a
message that is there under it. -/
theorem find_enqueue (queue : MessageQueue RF) (now : Time) (id : Uuid) (data : Bytes)
    (ttlSecs : UInt32) (other : Uuid) :
    (queue.enqueue now id data ttlSecs).unstampedMessages.find other =
      if other = id then
        some ((queue.unstampedMessages.find id).getD (QueuedMessage.create now id data))
      else queue.unstampedMessages.find other :=
  KeyedMap.find_insert _ _ _ _

/-- Enqueueing keeps every unstamped message under its own identifier. -/
theorem enqueue_filedById (queue : MessageQueue RF) (now : Time) (id : Uuid) (data : Bytes)
    (ttlSecs : UInt32) (filed : queue.FiledById) :
    (queue.enqueue now id data ttlSecs).FiledById := by
  intro other message found
  rw [find_enqueue] at found
  split at found
  · next same =>
    rw [← Option.some.inj found, same]
    cases present : queue.unstampedMessages.find id with
    | none => rfl
    | some old => exact filed id old present
  · exact filed other message found

/-- Stamping an unstamped message files it and takes it from the unstamped
ones. The place is that of an arrival under the comparator. -/
theorem stamp_found (queue : MessageQueue RF) (now : Time) (id : Uuid) (vclock : VectorClock RF)
    (message : QueuedMessage RF) (found : queue.unstampedMessages.find id = some message)
    (named : message.id = id) :
    (queue.stamp now id vclock).1.filed =
        Arrival.place stampLess (id, vclock) queue.filed ∧
      (queue.stamp now id vclock).1.unstampedMessages = queue.unstampedMessages.erase id := by
  simp only [stamp, found, and_true, filed]
  rw [Arrival.place_map QueueEntry.less (fun entry => (entry.message.id, entry.key)) stampLess
    (fun _ _ => rfl)]
  simp [QueuedMessage.updateLocalTimestamp, named]

end MessageQueue

end Sopmq
