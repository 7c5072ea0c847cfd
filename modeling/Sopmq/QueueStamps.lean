import Sopmq.DominanceOrder

/-!
# The clock of a stamped message

A stamped message has its clock in two places: the key it is filed under, and the message
itself, from which a consumer reads it with `clock()`. `message_queue::stamp` sets the
first and not the second. `set_vclock` is never called, so the clock of every message in
the queue is the one of the default constructor, the zero clock, for its whole life.
-/

namespace Sopmq

namespace MessageQueue

variable {RF : Nat}

/-- No message of the queue has a clock of its own, whether it is stamped or
not. -/
structure Unclocked (queue : MessageQueue RF) : Prop where
  unstamped : ∀ id message, queue.unstampedMessages.find id = some message →
    message.vclock = VectorClock.zero
  filed : ∀ entry ∈ queue.queuedMessages, entry.message.vclock = VectorClock.zero

/-- A new queue holds no message. -/
theorem create_unclocked (createdOn : Time) (queueId : UInt128) :
    (create createdOn queueId : MessageQueue RF).Unclocked where
  unstamped id message found := absurd found (by simp [create, KeyedMap.find_empty])
  filed entry member := absurd member (by simp [create])

/-- A message is enqueued with the clock of the default constructor. -/
theorem Unclocked.enqueue {queue : MessageQueue RF} (unclocked : queue.Unclocked) (now : Time)
    (id : Uuid) (data : Bytes) (ttlSecs : UInt32) :
    (queue.enqueue now id data ttlSecs).Unclocked := by
  refine ⟨fun other message found => ?_, unclocked.filed⟩
  rw [find_enqueue] at found
  split at found
  · rw [← Option.some.inj found]
    cases present : queue.unstampedMessages.find id with
    | none => rfl
    | some old => exact unclocked.unstamped id old present
  · exact unclocked.unstamped other message found

/-- Stamping sets the key and the local timestamp, and leaves the clock of
the message. -/
theorem Unclocked.stamp {queue : MessageQueue RF} (unclocked : queue.Unclocked) (now : Time)
    (id : Uuid) (vclock : VectorClock RF) : (queue.stamp now id vclock).1.Unclocked := by
  unfold MessageQueue.stamp
  split
  · exact unclocked
  · next message found =>
    constructor
    · intro other held stays
      rw [KeyedMap.find_erase] at stays
      split at stays
      · exact absurd stays (by simp)
      · exact unclocked.unstamped other held stays
    · intro entry member
      rcases List.mem_cons.mp ((Arrival.place_perm _ _ _).mem_iff.mp member) with rfl | earlier
      · exact unclocked.unstamped id message found
      · exact unclocked.filed entry earlier

/-- Expiry leaves the messages that it does not erase as they are. -/
theorem Unclocked.expireMessages {queue : MessageQueue RF} (unclocked : queue.Unclocked)
    (now : Time) : (queue.expireMessages now).Unclocked := by
  constructor
  · intro id message found
    rw [MessageQueue.expireMessages, KeyedMap.find_filter] at found
    exact unclocked.unstamped id message (Option.filter_eq_some_iff.mp found).1
  · intro entry member
    rw [MessageQueue.expireMessages, expireQueued_fst] at member
    exact unclocked.filed entry ((List.dropWhile_sublist _).mem member)

/-- The clocks read from `peekAll` are all alike, so none is below an
earlier one. The comparator is irreflexive on the zero clock. -/
theorem Unclocked.peekAll_ordered {queue : MessageQueue RF} (unclocked : queue.Unclocked) :
    (queue.peekAll.map QueuedMessage.vclock).Pairwise
      (fun earlier later => ¬ VectorClock.Less later earlier) := by
  have zeros : ∀ clock ∈ queue.peekAll.map QueuedMessage.vclock, clock = VectorClock.zero := by
    intro clock member
    obtain ⟨message, peeked, rfl⟩ := List.mem_map.mp member
    obtain ⟨entry, filed, rfl⟩ := List.mem_map.mp peeked
    exact unclocked.filed entry filed
  have alone : ¬ VectorClock.Less (VectorClock.zero : VectorClock RF) VectorClock.zero :=
    VectorClock.not_less_of_dominated _ _ fun i j _ => Or.inr ⟨rfl, UInt64.le_refl _⟩
  rw [List.eq_replicate_of_mem zeros, List.pairwise_replicate]
  exact Or.inr alone

end MessageQueue

namespace QueueRun

variable {RF : Nat}

/-- Every filed message knows its stamp: its own clock is the key it is
filed under, which is the one given to the stamp call that moved it, and the
clocks read from `peekAll` do not decrease. -/
structure KnowsStamps (run : QueueRun RF) : Prop where
  own : ∀ entry ∈ run.queue.queuedMessages, entry.message.vclock = entry.key
  given : ∀ entry ∈ run.queue.queuedMessages, (entry.message.id, entry.key) ∈ run.stamped
  ordered : (run.queue.peekAll.map QueuedMessage.vclock).Pairwise
    (fun earlier later => ¬ VectorClock.Less later earlier)

/-- No call gives a message a clock of its own. -/
theorem step_unclocked (run : QueueRun RF) (event : Time × QueueCall RF) (after : QueueRun RF)
    (unclocked : run.queue.Unclocked) (moved : run.step event = some after) :
    after.queue.Unclocked := by
  obtain ⟨now, call⟩ := event
  cases moved
  cases call with
  | enqueue id data ttlSecs => exact unclocked.enqueue now id data ttlSecs
  | stamp id vclock => exact unclocked.stamp now id vclock
  | expireMessages => exact unclocked.expireMessages now

/-- In every state of every run, the messages know their stamps exactly when
these are all the zero clock. -/
theorem knows_stamps_iff (createdOn : Time) (queueId : UInt128) (run : QueueRun RF)
    (reached : Machine.Reaches step (start createdOn queueId) run) :
    run.KnowsStamps ↔ ∀ entry ∈ run.queue.queuedMessages, entry.key = VectorClock.zero := by
  have unclocked : run.queue.Unclocked :=
    reached.invariant (fun last : QueueRun RF => last.queue.Unclocked) step_unclocked
      (MessageQueue.create_unclocked createdOn queueId)
  constructor
  · intro knows entry member
    rw [← knows.own entry member]
    exact unclocked.filed entry member
  · intro zeros
    constructor
    · intro entry member
      rw [unclocked.filed entry member, zeros entry member]
    · intro entry member
      exact (step_sorted createdOn queueId run reached).included
        (List.mem_map_of_mem (f := fun entry => (entry.message.id, entry.key)) member)
    · exact unclocked.peekAll_ordered

/-- A message is enqueued, and stamped a little later with a clock that is
not zero. -/
def stampingCalls : List (Time × QueueCall 1) :=
  [(0, .enqueue (Uuid.constant 1) [7] 5), (1, .stamp (Uuid.constant 1) ⟨![⟨1, 4, 1⟩]⟩)]

/-- The run of these calls on a new queue, which holds one filed message. -/
def stampingRun : QueueRun 1 :=
  stampingCalls.foldl (fun run event => run.perform event.1 event.2) (start 0 0)

/-- The statement at this run, where neither side holds. -/
theorem knows_stamps_iff_once :
    (∃ entry ∈ stampingRun.queue.queuedMessages, entry.key ≠ VectorClock.zero) ∧
    (stampingRun.KnowsStamps ↔
      ∀ entry ∈ stampingRun.queue.queuedMessages, entry.key = VectorClock.zero) :=
  ⟨by decide, knows_stamps_iff 0 0 stampingRun
    (Machine.reaches_of_run step (start 0 0) stampingRun stampingCalls rfl)⟩

/-- The message was stamped with `⟨1, 4, 1⟩` and is filed under it, and its
own clock is zero. A consumer reads the zero clock. -/
theorem stamped_message_clock_zero :
    Machine.Reaches step (start 0 0) stampingRun ∧
    stampingRun.stamped.map (fun stamp => stamp.2.value 0) = [⟨1, 4, 1⟩] ∧
    stampingRun.queue.queuedMessages.map (fun entry => entry.key.value 0) = [⟨1, 4, 1⟩] ∧
    stampingRun.queue.peekAll.map (fun message => message.vclock.value 0) = [⟨0, 0, 0⟩] ∧
    ¬ stampingRun.KnowsStamps := by
  refine ⟨Machine.reaches_of_run step (start 0 0) stampingRun stampingCalls rfl,
    by decide, by decide, by decide, ?_⟩
  intro knows
  exact absurd knows.own (by decide)

end QueueRun

end Sopmq
