import Sopmq.QueueRuns

/-!
# Which messages expire

`expire_messages` goes through the filed messages in the order of their stamps and
stops at the first one that has not expired. The time that counts is the time of
stamping, and messages may be stamped in another order than that of their stamps. So
the loop erases what it should exactly when no expired message stands behind one that
has not expired. The unstamped messages are all looked at.
-/

namespace Sopmq

/-- Dropping up to the first element that fails a test drops all that pass
it exactly when none that passes stands behind one that fails. -/
theorem dropWhile_eq_filter_iff {α : Type} (test : α → Bool) (items : List α) :
    items.dropWhile test = items.filter (fun item => !test item) ↔
      items.Pairwise (fun earlier later => test later = true → test earlier = true) := by
  induction items with
  | nil => simp
  | cons first rest inductionHypothesis =>
    rw [List.pairwise_cons]
    cases passes : test first with
    | true =>
      rw [List.dropWhile_cons_of_pos passes, List.filter_cons_of_neg (by simp [passes]),
        inductionHypothesis]
      exact ⟨fun ordered => ⟨fun _ _ _ => rfl, ordered⟩, And.right⟩
    | false =>
      rw [List.dropWhile_cons_of_neg (by simp [passes]), List.filter_cons_of_pos (by simp [passes]),
        List.cons.injEq, eq_comm (a := rest), List.filter_eq_self]
      constructor
      · rintro ⟨_, fails⟩
        refine ⟨fun later member passed => ?_, ?_⟩
        · simpa [passed] using fails later member
        · refine List.pairwise_of_forall_mem_list fun earlier _ later member passed => ?_
          simpa [passed] using fails later member
      · rintro ⟨fails, _⟩
        refine ⟨rfl, fun later member => ?_⟩
        cases passed : test later with
        | false => rfl
        | true => exact absurd (fails later member passed) (by simp)

/-- A message has expired when the time to live has passed since its local
timestamp, which stamping sets anew. -/
theorem QueuedMessage.expired_iff {RF : Nat} (message : QueuedMessage RF) (ttlSecs : UInt32)
    (now : Time) :
    message.expired ttlSecs now = true ↔
      message.localTime + 1000000000 * ttlSecs.toNat < now := by
  rw [QueuedMessage.expired, decide_eq_true_iff, QueuedMessage.age]
  exact ⟨Int.add_lt_of_lt_sub_left, Int.lt_sub_left_of_add_lt⟩

namespace MessageQueue

variable {RF : Nat}

/-- Expiry erases the messages that are past the time to live, filed or not,
and leaves all others in their order. -/
def ExpiresExactly (queue : MessageQueue RF) (now : Time) : Prop :=
  (queue.expireMessages now).queuedMessages =
      queue.queuedMessages.filter (fun entry => !entry.message.expired queue.ttl now) ∧
    (queue.expireMessages now).unstampedMessages.entries =
      queue.unstampedMessages.entries.filter (fun entry => !entry.2.expired queue.ttl now)

/-- Only the loop over the filed messages can miss one. The other loop
filters. -/
theorem expiresExactly_dropWhile (queue : MessageQueue RF) (now : Time) :
    queue.ExpiresExactly now ↔
      queue.queuedMessages.dropWhile (fun entry => entry.message.expired queue.ttl now) =
        queue.queuedMessages.filter (fun entry => !entry.message.expired queue.ttl now) := by
  have unstamped : (queue.expireMessages now).unstampedMessages.entries =
      queue.unstampedMessages.entries.filter (fun entry => !entry.2.expired queue.ttl now) := rfl
  have filed : (queue.expireMessages now).queuedMessages =
      queue.queuedMessages.dropWhile (fun entry => entry.message.expired queue.ttl now) :=
    expireQueued_fst _ _ _ _
  rw [ExpiresExactly, and_iff_left unstamped, filed]

/-- Expiry is exact exactly when no filed message that has expired stands
behind one that has not. -/
theorem expires_exactly_iff (queue : MessageQueue RF) (now : Time) :
    queue.ExpiresExactly now ↔
      queue.queuedMessages.Pairwise (fun earlier later =>
        later.message.expired queue.ttl now = true →
          earlier.message.expired queue.ttl now = true) := by
  rw [expiresExactly_dropWhile, dropWhile_eq_filter_iff]

/-- Expiry is exact at all times exactly when the messages were stamped in
the order of their stamps.

Proof: of two messages in the order of their times, the later one expires
last. Of two in the other order, there is a moment at which only the one
behind has expired. -/
theorem expires_exactly_always_iff (queue : MessageQueue RF) :
    (∀ now, queue.ExpiresExactly now) ↔
      queue.queuedMessages.Pairwise (fun earlier later =>
        earlier.message.localTime ≤ later.message.localTime) := by
  simp only [expiresExactly_dropWhile, dropWhile_eq_filter_iff, List.pairwise_iff_getElem,
    QueuedMessage.expired_iff]
  constructor
  · intro always i j iBound jBound before
    have moment := always
      ((queue.queuedMessages[j]).message.localTime + 1000000000 * queue.ttl.toNat + 1)
      i j iBound jBound before (Int.lt_succ _)
    exact Int.le_of_add_le_add_right (Int.le_of_lt_add_one moment)
  · intro chronological now i j iBound jBound before overdue
    have order := chronological i j iBound jBound before
    exact lt_of_le_of_lt (Int.add_le_add_right order _) overdue

end MessageQueue

namespace QueueRun

/-- The message with the later stamp is stamped five seconds before the
other one, so that the order of the stamps is not that of the times. -/
def crossedCalls : List (Time × QueueCall 1) :=
  [(0, .enqueue (Uuid.constant 1) [7] 10), (0, .enqueue (Uuid.constant 2) [8] 10),
    (0, .stamp (Uuid.constant 2) ⟨![⟨1, 0, 2⟩]⟩),
    (5000000000, .stamp (Uuid.constant 1) ⟨![⟨1, 0, 1⟩]⟩)]

/-- The run of these calls on a new queue, which holds two filed
messages. -/
def crossedRun : QueueRun 1 :=
  crossedCalls.foldl (fun run event => run.perform event.1 event.2) (start 0 0)

/-- Twelve seconds after the first stamp its message is past the time to
live of ten seconds. It stands behind the other message, and is kept. -/
theorem overdue_message_kept :
    (crossedCalls.map Prod.fst).Pairwise (· ≤ ·) ∧
      (∀ event ∈ crossedCalls, event.2 ≠ .expireMessages) ∧
      Machine.run step (start 0 0) crossedCalls = some crossedRun ∧
      crossedRun.queue.queuedMessages.map
          (fun entry =>
            (entry.message.id, entry.message.expired crossedRun.queue.ttl 12000000000)) =
        [(Uuid.constant 1, false), (Uuid.constant 2, true)] ∧
      (crossedRun.queue.expireMessages 12000000000).queuedMessages.map
          (fun entry => entry.message.id) = [Uuid.constant 1, Uuid.constant 2] ∧
      ¬ crossedRun.queue.ExpiresExactly 12000000000 := by
  refine ⟨by decide, ?_, rfl, by decide, by decide, ?_⟩
  · intro event member
    simp only [crossedCalls, List.mem_cons, List.not_mem_nil, or_false] at member
    rcases member with rfl | rfl | rfl | rfl <;> exact nofun
  · rintro ⟨filed, _⟩
    exact absurd (congrArg List.length filed) (by decide)

end QueueRun

end Sopmq
