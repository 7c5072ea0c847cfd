import Sopmq.MessageQueue

/-!
# What a queue holds

The contents of a queue are the identifiers and payloads of its unstamped and its
filed messages, as one list whose order carries no meaning. Each operation is
described by what it does to the contents and to the size counter: enqueueing adds
a message unless its identifier is unstamped already, stamping moves a message,
and expiry and claims take messages away and give back their size.
-/

namespace Sopmq

namespace QueuedMessage

variable {RF : Nat}

/-- Identifier and payload, which is what a message is to those who enqueue
it and receive it. -/
def content (message : QueuedMessage RF) : Uuid × Bytes := (message.id, message.data)

end QueuedMessage

/-- The sum of `queued_message::calc_size` over messages given by their
contents, as a number without bound. -/
def weight (RF : Nat) (contents : List (Uuid × Bytes)) : Nat :=
  (contents.map fun content => (QueuedMessage.calcSize RF content.2.length).toNat).sum

/-- The weight of two lists of messages is the sum of their weights. -/
theorem weight_append (RF : Nat) (front back : List (Uuid × Bytes)) :
    weight RF (front ++ back) = weight RF front + weight RF back := by
  simp [weight]

/-- The weight does not depend on the order of the messages. -/
theorem weight_perm (RF : Nat) {front back : List (Uuid × Bytes)} (perm : front.Perm back) :
    weight RF front = weight RF back :=
  (perm.map _).sum_nat

/-- The weight of one message is its size, as the size counter counts it. -/
theorem ofNat_weight_singleton (RF : Nat) (id : Uuid) (data : Bytes) :
    UInt32.ofNat (weight RF [(id, data)]) = QueuedMessage.calcSize RF data.length := by
  simp [weight]

/-- The weight of one message more, as the size counter counts it. Both
sides wrap alike. -/
theorem ofNat_weight_cons {RF : Nat} (message : QueuedMessage RF) (rest : List (Uuid × Bytes)) :
    UInt32.ofNat (weight RF (message.content :: rest)) =
      QueuedMessage.calcSize RF message.data.length + UInt32.ofNat (weight RF rest) := by
  simp [weight, UInt32.ofNat_add, QueuedMessage.content]

namespace MessageQueue

variable {RF : Nat}

/-- Identifier and payload of every unstamped message, in the order of the
map. -/
def unstampedContents (queue : MessageQueue RF) : List (Uuid × Bytes) :=
  queue.unstampedMessages.entries.map (fun entry => entry.2.content)

/-- Identifier and payload of every filed message, in the order of the
multimap. -/
def filedContents (queue : MessageQueue RF) : List (Uuid × Bytes) :=
  queue.queuedMessages.map (fun entry => entry.message.content)

/-- Identifier and payload of every message held, the unstamped ones
first. -/
def contents (queue : MessageQueue RF) : List (Uuid × Bytes) :=
  queue.unstampedContents ++ queue.filedContents

/-- The filed messages that `expire_messages` erases: those in front of the
first that is not overdue. -/
def expiredQueued (queue : MessageQueue RF) (now : Time) : List (QueueEntry RF) :=
  queue.queuedMessages.takeWhile (fun entry => entry.message.expired queue.ttl now)

/-- The unstamped messages that `expire_messages` erases, wherever they are
in the map. -/
def expiredUnstamped (queue : MessageQueue RF) (now : Time) : List (Uuid × QueuedMessage RF) :=
  queue.unstampedMessages.entries.filter (fun entry => entry.2.expired queue.ttl now)

/-- The entry that a claim erases, if the index has a record and its handle
leads to one. -/
def claimedEntry (queue : MessageQueue RF) (messageId : Uuid) : Option (QueueEntry RF) :=
  (queue.messageIndex.find messageId).bind queue.dereference

/-- Identifier and payload of all messages that `expire_messages` erases,
the unstamped ones first. -/
def expiredContents (queue : MessageQueue RF) (now : Time) : List (Uuid × Bytes) :=
  (queue.expiredUnstamped now).map (fun entry => entry.2.content) ++
    (queue.expiredQueued now).map (fun entry => entry.message.content)

/-- `total_count()` is the number of messages held. -/
theorem totalCount_eq (queue : MessageQueue RF) : queue.totalCount = queue.contents.length := by
  simp [totalCount, contents, unstampedContents, filedContents]

/-- An identifier that is already unstamped is not inserted again. Its first
payload stays. -/
theorem contents_enqueue_declined (queue : MessageQueue RF) (now : Time) (id : Uuid)
    (data : Bytes) (ttlSecs : UInt32) (present : (queue.unstampedMessages.find id).isSome) :
    (queue.enqueue now id data ttlSecs).contents = queue.contents := by
  have kept := not_not.mpr ((queue.unstampedMessages.find_isSome_iff id).mp present)
  simp only [contents, unstampedContents, filedContents, enqueue, KeyedMap.insert, dif_neg kept]

/-- Any other identifier is inserted with its payload, even if a filed
message has it. -/
theorem contents_enqueue_inserted (queue : MessageQueue RF) (now : Time) (id : Uuid)
    (data : Bytes) (ttlSecs : UInt32) (absent : queue.unstampedMessages.find id = none) :
    (queue.enqueue now id data ttlSecs).contents.Perm (queue.contents ++ [(id, data)]) := by
  have inserted := KeyedMap.insert_entries_of_absent queue.unstampedMessages id
    (QueuedMessage.create now id data) absent
  simp only [contents, unstampedContents, filedContents, enqueue, inserted, List.map_append,
    List.append_assoc]
  exact List.perm_append_comm.append_left _

/-- Stamping moves a message from the unstamped ones to the filed ones, and
otherwise changes nothing. So it keeps the contents. -/
theorem contents_stamp (queue : MessageQueue RF) (now : Time) (id : Uuid)
    (vclock : VectorClock RF) : (queue.stamp now id vclock).1.contents.Perm queue.contents := by
  cases found : queue.unstampedMessages.find id with
  | none => simp [stamp, found]
  | some message =>
    have left := (queue.unstampedMessages.entries_perm_erase id message found).map
      (fun entry => entry.2.content)
    have placed := (Arrival.place_perm QueueEntry.less
      ⟨queue.nextHandle, vclock, message.updateLocalTimestamp now⟩ queue.queuedMessages).map
      (fun entry => entry.message.content)
    simp only [stamp, found, contents, unstampedContents, filedContents]
    exact (placed.append_left _).trans
      (List.perm_middle.trans (left.symm.append_right queue.filedContents))

/-- The first loop erases the filed messages up to the first that is not
overdue. -/
theorem expireQueued_fst (ttlSecs : UInt32) (now : Time) (entries : List (QueueEntry RF))
    (size : UInt32) :
    (expireQueued ttlSecs now entries size).1 =
      entries.dropWhile (fun entry => entry.message.expired ttlSecs now) := by
  induction entries generalizing size with
  | nil => rfl
  | cons entry rest inductionHypothesis =>
    rw [expireQueued, List.dropWhile_cons]
    split
    · exact inductionHypothesis _
    · rfl

/-- The first loop takes the sizes of the messages that it erases from the
counter. By induction on the messages that it visits. -/
theorem expireQueued_snd (ttlSecs : UInt32) (now : Time) (entries : List (QueueEntry RF))
    (size : UInt32) :
    (expireQueued ttlSecs now entries size).2 + UInt32.ofNat (weight RF
      ((entries.takeWhile (fun entry => entry.message.expired ttlSecs now)).map
        (fun entry => entry.message.content))) = size := by
  induction entries generalizing size with
  | nil => simp [expireQueued, weight]
  | cons entry rest inductionHypothesis =>
    rw [expireQueued, List.takeWhile_cons]
    split
    · rw [List.map_cons, ofNat_weight_cons]
      have continued := inductionHypothesis
        (size - QueuedMessage.calcSize RF entry.message.data.length)
      grind
    · simp [weight]

/-- So does the second loop, which visits all unstamped messages. -/
theorem expireUnstamped_eq (ttlSecs : UInt32) (now : Time)
    (entries : List (Uuid × QueuedMessage RF)) (size : UInt32) :
    expireUnstamped ttlSecs now entries size + UInt32.ofNat (weight RF
      ((entries.filter (fun entry => entry.2.expired ttlSecs now)).map
        (fun entry => entry.2.content))) = size := by
  induction entries generalizing size with
  | nil => simp [expireUnstamped, weight]
  | cons entry rest inductionHypothesis =>
    rw [expireUnstamped, List.filter_cons]
    split
    · rw [List.map_cons, ofNat_weight_cons]
      have continued := inductionHypothesis (size - QueuedMessage.calcSize RF entry.2.data.length)
      grind
    · exact inductionHypothesis size

/-- What expiry leaves and what it erases are together what the queue held.
No message is both. -/
theorem contents_expireMessages (queue : MessageQueue RF) (now : Time) :
    ((queue.expireMessages now).contents ++ queue.expiredContents now).Perm queue.contents := by
  have unstamped := (List.filter_append_perm
    (fun entry : Uuid × QueuedMessage RF => entry.2.expired queue.ttl now)
    queue.unstampedMessages.entries).map (fun entry => entry.2.content)
  have filed : queue.filedContents =
      (queue.expiredQueued now).map (fun entry => entry.message.content) ++
        (queue.expireMessages now).filedContents := by
    rw [filedContents, filedContents, expireMessages, expireQueued_fst, ← List.map_append,
      expiredQueued, List.takeWhile_append_dropWhile]
  have kept : (queue.expireMessages now).unstampedContents =
      (queue.unstampedMessages.entries.filter
        (fun entry => !entry.2.expired queue.ttl now)).map (fun entry => entry.2.content) := rfl
  rw [contents, contents, filed, kept, expiredContents, expiredUnstamped, unstampedContents]
  rw [List.map_append] at unstamped
  rw [List.perm_iff_count] at unstamped ⊢
  intro content
  have counted := unstamped content
  simp only [List.count_append] at counted ⊢
  omega

/-- Expiry takes the sizes of the messages that it erases from the counter.
The sum is stated so that no subtraction is needed. -/
theorem expireMessages_size (queue : MessageQueue RF) (now : Time) :
    (queue.expireMessages now).totalMessageSize +
      UInt32.ofNat (weight RF (queue.expiredContents now)) = queue.totalMessageSize := by
  have first := expireQueued_snd queue.ttl now queue.queuedMessages queue.totalMessageSize
  have second := expireUnstamped_eq queue.ttl now queue.unstampedMessages.entries
    (expireQueued queue.ttl now queue.queuedMessages queue.totalMessageSize).2
  rw [expiredContents, weight_append, UInt32.ofNat_add]
  simp only [expireMessages, expiredUnstamped, expiredQueued]
  grind

/-- A claim that returns has found no index record, or has taken the entry
of the record from the filed messages and its size from the counter. -/
theorem claim_cases (queue after : MessageQueue RF) (messageId : Uuid)
    (claimed : queue.claim messageId = some after) :
    (queue.messageIndex.find messageId = none ∧ after = queue) ∨
      ∃ handle entry, queue.messageIndex.find messageId = some handle ∧
        queue.dereference handle = some entry ∧
        after = { queue with
          totalMessageSize :=
            queue.totalMessageSize - QueuedMessage.calcSize RF entry.message.data.length
          queuedMessages :=
            queue.queuedMessages.filter (fun other => decide (other.handle ≠ handle))
          messageIndex := queue.messageIndex.erase messageId } := by
  unfold claim at claimed
  split at claimed
  · next missing => exact Or.inl ⟨missing, (Option.some.inj claimed).symm⟩
  · next handle located =>
    obtain ⟨entry, found, rfl⟩ := Option.map_eq_some_iff.mp claimed
    exact Or.inr ⟨handle, entry, located, found, rfl⟩

/-- What a claim leaves and what it takes are together what the queue held,
when the handles are distinct. -/
theorem contents_claim (queue after : MessageQueue RF) (messageId : Uuid)
    (distinct : (queue.queuedMessages.map QueueEntry.handle).Nodup)
    (claimed : queue.claim messageId = some after) :
    (after.contents ++
      (queue.claimedEntry messageId).toList.map (fun entry => entry.message.content)).Perm
        queue.contents := by
  rcases queue.claim_cases after messageId claimed with
    ⟨missing, rfl⟩ | ⟨handle, entry, located, found, rfl⟩
  · simp [claimedEntry, missing]
  · have taken := (perm_filter_key QueueEntry.handle handle queue.queuedMessages entry distinct
      found).map (fun entry => entry.message.content)
    simp only [claimedEntry, located, Option.bind_some, found, Option.toList_some, List.map_cons,
      List.map_nil, contents, unstampedContents, filedContents, List.append_assoc]
    exact (List.perm_append_singleton _ _ |>.trans taken.symm).append_left _

/-- A claim takes the size of the message that it takes from the counter,
and leaves the counter if it takes none. -/
theorem claim_size (queue after : MessageQueue RF) (messageId : Uuid)
    (claimed : queue.claim messageId = some after) :
    after.totalMessageSize + UInt32.ofNat (weight RF
      ((queue.claimedEntry messageId).toList.map (fun entry => entry.message.content))) =
        queue.totalMessageSize := by
  rcases queue.claim_cases after messageId claimed with
    ⟨missing, rfl⟩ | ⟨handle, entry, located, found, rfl⟩
  · simp [claimedEntry, missing, weight]
  · simp only [claimedEntry, located, Option.bind_some, found, Option.toList_some, List.map_cons,
      List.map_nil, QueuedMessage.content, ofNat_weight_singleton]
    exact UInt32.sub_add_cancel _ _

/-- Unstamped messages are filed under their own identifiers, and no handle
is used twice: those in use are distinct and older than the next one. -/
structure WellFormed (queue : MessageQueue RF) : Prop where
  named : queue.FiledById
  distinctHandles : (queue.queuedMessages.map QueueEntry.handle).Nodup
  olderHandles : ∀ entry ∈ queue.queuedMessages, entry.handle < queue.nextHandle

/-- A new queue is well formed, since it holds nothing. -/
theorem create_wellFormed (now : Time) (queueId : UInt128) :
    (create now queueId : MessageQueue RF).WellFormed where
  named := create_filedById now queueId
  distinctHandles := List.nodup_nil
  olderHandles := by simp [create]

/-- Taking messages away keeps a queue well formed. Expiry and claims both
do no more than that. -/
theorem WellFormed.taken {queue after : MessageQueue RF} (wellFormed : queue.WellFormed)
    (unstamped : ∀ id message, after.unstampedMessages.find id = some message →
      queue.unstampedMessages.find id = some message)
    (filed : after.queuedMessages.Sublist queue.queuedMessages)
    (counter : after.nextHandle = queue.nextHandle) : after.WellFormed where
  named := fun id message found => wellFormed.named id message (unstamped id message found)
  distinctHandles := wellFormed.distinctHandles.sublist (filed.map _)
  olderHandles := fun entry member => counter ▸ wellFormed.olderHandles entry (filed.mem member)

/-- Enqueueing keeps a queue well formed: it adds under the identifier of
the message, and files nothing. -/
theorem WellFormed.enqueue {queue : MessageQueue RF} (wellFormed : queue.WellFormed) (now : Time)
    (id : Uuid) (data : Bytes) (ttlSecs : UInt32) :
    (queue.enqueue now id data ttlSecs).WellFormed where
  named := enqueue_filedById queue now id data ttlSecs wellFormed.named
  distinctHandles := wellFormed.distinctHandles
  olderHandles := wellFormed.olderHandles

/-- Stamping keeps a queue well formed: the entry that it adds has the next
handle, which no entry has had. -/
theorem WellFormed.stamp {queue : MessageQueue RF} (wellFormed : queue.WellFormed) (now : Time)
    (id : Uuid) (vclock : VectorClock RF) : (queue.stamp now id vclock).1.WellFormed := by
  cases found : queue.unstampedMessages.find id with
  | none =>
    have unchanged : (queue.stamp now id vclock).1 = queue := by simp [MessageQueue.stamp, found]
    rw [unchanged]
    exact wellFormed
  | some message =>
    have placed := Arrival.place_perm QueueEntry.less
      ⟨queue.nextHandle, vclock, message.updateLocalTimestamp now⟩ queue.queuedMessages
    have older := wellFormed.olderHandles
    simp only [MessageQueue.stamp, found]
    refine ⟨?_, ?_, ?_⟩
    · intro other held located
      simp only [KeyedMap.find_erase] at located
      split at located
      · exact absurd located (Option.some_ne_none held).symm
      · exact wellFormed.named other held located
    · refine (placed.map QueueEntry.handle).nodup_iff.mpr
        (List.nodup_cons.mpr ⟨?_, wellFormed.distinctHandles⟩)
      intro member
      obtain ⟨entry, present, same⟩ := List.mem_map.mp member
      exact absurd (older entry present) (by simp [same])
    · intro entry member
      rcases List.mem_cons.mp (placed.mem_iff.mp member) with rfl | present
      · exact Nat.lt_succ_self _
      · exact Nat.lt_succ_of_lt (older entry present)

/-- Expiry keeps a queue well formed, because it only takes messages
away. -/
theorem WellFormed.expireMessages {queue : MessageQueue RF} (wellFormed : queue.WellFormed)
    (now : Time) : (queue.expireMessages now).WellFormed := by
  refine wellFormed.taken ?_ ?_ rfl
  · intro id message found
    rw [MessageQueue.expireMessages, KeyedMap.find_filter] at found
    exact (Option.filter_eq_some_iff.mp found).1
  · rw [MessageQueue.expireMessages, expireQueued_fst]
    exact List.dropWhile_sublist _

/-- A claim keeps a queue well formed, because it only takes a message
away. -/
theorem WellFormed.claim {queue after : MessageQueue RF} (wellFormed : queue.WellFormed)
    (messageId : Uuid) (claimed : queue.claim messageId = some after) : after.WellFormed := by
  rcases queue.claim_cases after messageId claimed with
    ⟨_, rfl⟩ | ⟨handle, entry, _, _, rfl⟩
  · exact wellFormed
  · exact wellFormed.taken (fun _ _ found => found) List.filter_sublist rfl

/-- The identifiers of the unstamped messages are the keys they are filed
under, and so no two are the same. -/
theorem unstampedContents_ids (queue : MessageQueue RF) (named : queue.FiledById) :
    queue.unstampedContents.map Prod.fst = queue.unstampedMessages.entries.map Prod.fst := by
  rw [unstampedContents, List.map_map]
  refine List.map_congr_left fun entry member => ?_
  exact named entry.1 entry.2 ((queue.unstampedMessages.mem_entries_iff _ _).mp member)

end MessageQueue

end Sopmq
