import Mathlib.Data.List.TakeWhile
import Sopmq.Machine
import Sopmq.QueueContents

/-!
# Runs of calls on a queue

A run makes calls on one queue at given times, and keeps a record of what was
enqueued, of the enqueues that were declined because their identifier was still
unstamped, of the stamps that were accepted, of the messages that
`expire_messages` erased and of those that were claimed. The record is not part of
the queue.

The conservation law holds in every state of every run: the contents of the queue,
what was erased, declined and claimed are together what was enqueued. When no
identifier is enqueued twice, nothing is lost and nothing is held twice. The size
counter follows the contents, except that it counts a declined message for ever.
-/

namespace Sopmq

/-- A call on a queue by those who fill it. Claims are made by consumers,
and come below. -/
inductive QueueCall (RF : Nat) where
  | enqueue (id : Uuid) (data : Bytes) (ttlSecs : UInt32)
  | stamp (id : Uuid) (vclock : VectorClock RF)
  | expireMessages

/-- A call on a queue: one of those above, or a claim. -/
inductive ConsumerCall (RF : Nat) where
  | call (call : QueueCall RF)
  | claim (messageId : Uuid)

/-- A message erased by an `expire_messages` call: the time of the call, the
queue's time to live, the message, and the handle of its entry if it was
filed. -/
structure Removal (RF : Nat) where
  time : Time
  ttl : UInt32
  message : QueuedMessage RF
  handle : Option Nat

/-- The messages that `expire_messages` erases, as they are recorded. Only a
filed one has a handle. -/
def MessageQueue.removals {RF : Nat} (queue : MessageQueue RF) (now : Time) :
    List (Removal RF) :=
  (queue.expiredUnstamped now).map (fun entry => ⟨now, queue.ttl, entry.2, none⟩) ++
    (queue.expiredQueued now).map (fun entry =>
      ⟨now, queue.ttl, entry.message, some entry.handle⟩)

/-- A queue together with the record of the calls made on it. No call reads
the record. -/
structure QueueRun (RF : Nat) where
  queue : MessageQueue RF
  enqueued : List (Uuid × Bytes)
  declined : List (Uuid × Bytes)
  stamped : List (Uuid × VectorClock RF)
  removed : List (Removal RF)
  claimed : List (Uuid × Bytes)

namespace QueueRun

variable {RF : Nat}

/-- A new queue, with nothing on record. -/
def start (createdOn : Time) (queueId : UInt128) : QueueRun RF where
  queue := MessageQueue.create createdOn queueId
  enqueued := []
  declined := []
  stamped := []
  removed := []
  claimed := []

/-- Make a call on the queue at the given time, and record what it did. -/
def perform (run : QueueRun RF) (now : Time) : QueueCall RF → QueueRun RF
  | .enqueue id data ttlSecs =>
      { run with
        queue := run.queue.enqueue now id data ttlSecs
        enqueued := run.enqueued ++ [(id, data)]
        declined :=
          if (run.queue.unstampedMessages.find id).isSome then run.declined ++ [(id, data)]
          else run.declined }
  | .stamp id vclock =>
      let result := run.queue.stamp now id vclock
      { run with
        queue := result.1
        stamped := if result.2 then run.stamped ++ [(id, vclock)] else run.stamped }
  | .expireMessages =>
      { run with
        queue := run.queue.expireMessages now
        removed := run.removed ++ run.queue.removals now }

/-- Runs of `enqueue`, `stamp` and `expire_messages`, all of which are
always possible. -/
def step (run : QueueRun RF) (event : Time × QueueCall RF) : Option (QueueRun RF) :=
  some (run.perform event.1 event.2)

/-- Runs with claims. A claim that follows a dangling handle has no next
state, as the source then reads through an invalid iterator. -/
def consume (run : QueueRun RF) : Time × ConsumerCall RF → Option (QueueRun RF)
  | (now, .call call) => some (run.perform now call)
  | (_, .claim messageId) =>
      (run.queue.claim messageId).map fun queue =>
        { run with
          queue := queue
          claimed := run.claimed ++ (run.queue.claimedEntry messageId).toList.map
            (fun entry => entry.message.content) }

/-- Identifier and payload of every message erased by `expire_messages`, in
the order of erasure. -/
def removedContents (run : QueueRun RF) : List (Uuid × Bytes) :=
  run.removed.map (fun removal => removal.message.content)

/-- What every call keeps: a well-formed queue, the conservation of
messages, and the account of the size counter. -/
structure Lawful (run : QueueRun RF) : Prop where
  wellFormed : run.queue.WellFormed
  /-- Every enqueued message is held, erased, declined or claimed. -/
  conserved : (run.queue.contents ++ run.removedContents ++ run.declined ++ run.claimed).Perm
    run.enqueued
  /-- The counter is the size of what is held and of what was declined. -/
  counted : run.queue.totalMessageSize =
    UInt32.ofNat (weight RF run.queue.contents + weight RF run.declined)
  /-- What was erased was overdue. -/
  overdue : ∀ removal ∈ run.removed, removal.message.expired removal.ttl removal.time = true
  /-- Nothing is declined as long as no identifier is enqueued twice. -/
  fresh : (run.enqueued.map Prod.fst).Nodup → run.declined = []

/-- A new queue keeps the law, since nothing has been enqueued. -/
theorem start_lawful (createdOn : Time) (queueId : UInt128) :
    (start createdOn queueId : QueueRun RF).Lawful where
  wellFormed := MessageQueue.create_wellFormed createdOn queueId
  conserved := List.Perm.refl _
  counted := rfl
  overdue := by simp [start]
  fresh := fun _ => rfl

/-- An unstamped identifier has been enqueued, because what is held is part
of what was. -/
theorem Lawful.enqueued_of_unstamped {run : QueueRun RF} (lawful : run.Lawful) (id : Uuid)
    (present : (run.queue.unstampedMessages.find id).isSome) :
    id ∈ run.enqueued.map Prod.fst := by
  rw [KeyedMap.find_isSome_iff,
    ← run.queue.unstampedContents_ids lawful.wellFormed.named] at present
  refine ((lawful.conserved.map Prod.fst).mem_iff).mp ?_
  simp only [MessageQueue.contents, List.map_append, List.mem_append]
  tauto

/-- With distinct identifiers, what is unstamped, filed and erased is apart.
Each identifier is in one of the three, and once. -/
theorem Lawful.apart {run : QueueRun RF} (lawful : run.Lawful)
    (distinct : (run.enqueued.map Prod.fst).Nodup) :
    (run.queue.unstampedContents.map Prod.fst ++
      (run.queue.filedContents.map Prod.fst ++ run.removedContents.map Prod.fst)).Nodup := by
  have all := (lawful.conserved.map Prod.fst).nodup_iff.mpr distinct
  simp only [MessageQueue.contents, List.map_append, List.append_assoc] at all
  refine all.sublist ?_
  refine (List.Sublist.refl _).append ((List.Sublist.refl _).append ?_)
  exact List.sublist_append_left _ _

/-- Enqueueing an identifier that is not unstamped adds it to the contents,
and its size to the counter. -/
theorem Lawful.enqueue_inserted {run : QueueRun RF} (lawful : run.Lawful) (now : Time) (id : Uuid)
    (data : Bytes) (ttlSecs : UInt32) (absent : run.queue.unstampedMessages.find id = none) :
    (run.perform now (.enqueue id data ttlSecs)).Lawful := by
  have inserted := run.queue.contents_enqueue_inserted now id data ttlSecs absent
  have undeclined : (run.perform now (.enqueue id data ttlSecs)).declined = run.declined := by
    simp [perform, absent]
  refine ⟨lawful.wellFormed.enqueue now id data ttlSecs, ?_, ?_, lawful.overdue, ?_⟩
  · rw [undeclined, List.perm_iff_count]
    intro content
    have before := lawful.conserved.count_eq content
    have added := inserted.count_eq content
    simp only [perform, removedContents, List.count_append] at before added ⊢
    omega
  · have counted := lawful.counted
    rw [undeclined]
    simp only [perform, weight_perm RF inserted, weight_append, UInt32.ofNat_add,
      ofNat_weight_singleton] at counted ⊢
    simp only [MessageQueue.enqueue, counted]
    rw [UInt32.add_assoc, UInt32.add_assoc, UInt32.add_comm (UInt32.ofNat (weight RF run.declined))]
  · intro distinct
    rw [undeclined]
    simp only [perform, List.map_append] at distinct
    exact lawful.fresh (List.nodup_append.mp distinct).1

/-- Enqueueing an identifier that is still unstamped adds its size only. The
message goes to the declined ones. -/
theorem Lawful.enqueue_declined {run : QueueRun RF} (lawful : run.Lawful) (now : Time) (id : Uuid)
    (data : Bytes) (ttlSecs : UInt32) (present : (run.queue.unstampedMessages.find id).isSome) :
    (run.perform now (.enqueue id data ttlSecs)).Lawful := by
  have kept := run.queue.contents_enqueue_declined now id data ttlSecs present
  have declined : (run.perform now (.enqueue id data ttlSecs)).declined =
      run.declined ++ [(id, data)] := by
    simp [perform, present]
  refine ⟨lawful.wellFormed.enqueue now id data ttlSecs, ?_, ?_, lawful.overdue, ?_⟩
  · rw [declined, List.perm_iff_count]
    intro content
    have before := lawful.conserved.count_eq content
    simp only [perform, removedContents, kept, List.count_append] at before ⊢
    omega
  · have counted := lawful.counted
    rw [declined]
    simp only [perform, kept, weight_append, UInt32.ofNat_add, ofNat_weight_singleton]
      at counted ⊢
    simp only [MessageQueue.enqueue, counted]
    exact UInt32.add_assoc _ _ _
  · intro distinct
    simp only [perform, List.map_append, List.map_cons, List.map_nil] at distinct
    have enqueuedBefore := lawful.enqueued_of_unstamped id present
    exact absurd rfl ((List.nodup_append.mp distinct).2.2 id enqueuedBefore id (by simp))

/-- A stamp for an identifier that is not unstamped changes nothing, and is
not recorded. -/
theorem perform_stamp_absent (run : QueueRun RF) (now : Time) (id : Uuid)
    (vclock : VectorClock RF) (absent : run.queue.unstampedMessages.find id = none) :
    run.perform now (.stamp id vclock) = run := by
  simp [perform, MessageQueue.stamp, absent]

/-- A stamp for an identifier that is unstamped is recorded. -/
theorem perform_stamp_stamped (run : QueueRun RF) (now : Time) (id : Uuid)
    (vclock : VectorClock RF) (message : QueuedMessage RF)
    (found : run.queue.unstampedMessages.find id = some message) :
    (run.perform now (.stamp id vclock)).stamped = run.stamped ++ [(id, vclock)] := by
  simp [perform, MessageQueue.stamp, found]

/-- Stamping keeps the law, as it moves a message within the contents. -/
theorem Lawful.stamp {run : QueueRun RF} (lawful : run.Lawful) (now : Time) (id : Uuid)
    (vclock : VectorClock RF) : (run.perform now (.stamp id vclock)).Lawful := by
  have moved := run.queue.contents_stamp now id vclock
  have size : (run.queue.stamp now id vclock).1.totalMessageSize = run.queue.totalMessageSize := by
    unfold MessageQueue.stamp
    split <;> rfl
  refine ⟨lawful.wellFormed.stamp now id vclock, ?_, ?_, lawful.overdue, lawful.fresh⟩
  · exact (((moved.append_right _).append_right _).append_right _).trans lawful.conserved
  · simp only [perform, size, weight_perm RF moved]
    exact lawful.counted

/-- The record of an expiry holds the contents that it erases, in the same
order. -/
theorem removals_contents (queue : MessageQueue RF) (now : Time) :
    (queue.removals now).map (fun removal => removal.message.content) =
      queue.expiredContents now := by
  simp [MessageQueue.removals, MessageQueue.expiredContents, Function.comp_def]

/-- Each message in the record had expired at the time and for the time to
live recorded with it. -/
theorem removals_overdue (queue : MessageQueue RF) (now : Time) :
    ∀ removal ∈ queue.removals now,
      removal.message.expired removal.ttl removal.time = true := by
  intro removal member
  rcases List.mem_append.mp member with unstamped | filed
  · obtain ⟨entry, erased, rfl⟩ := List.mem_map.mp unstamped
    exact (List.mem_filter.mp erased).2
  · obtain ⟨entry, erased, rfl⟩ := List.mem_map.mp filed
    rw [MessageQueue.expiredQueued] at erased
    simpa using List.mem_takeWhile_imp erased

/-- Expiry keeps the law: what leaves the contents comes to the erased ones,
and its size leaves the counter. -/
theorem Lawful.expireMessages {run : QueueRun RF} (lawful : run.Lawful) (now : Time) :
    (run.perform now .expireMessages).Lawful := by
  have erased := run.queue.contents_expireMessages now
  have size := run.queue.expireMessages_size now
  refine ⟨lawful.wellFormed.expireMessages now, ?_, ?_, ?_, lawful.fresh⟩
  · rw [List.perm_iff_count]
    intro content
    have before := lawful.conserved.count_eq content
    have parted := erased.count_eq content
    simp only [perform, removedContents, List.map_append, removals_contents,
      List.count_append] at before parted ⊢
    omega
  · have counted := lawful.counted
    rw [← weight_perm RF erased, weight_append] at counted
    simp only [perform, UInt32.ofNat_add] at counted ⊢
    grind
  · intro removal member
    rcases List.mem_append.mp member with earlier | now'
    · exact lawful.overdue removal earlier
    · exact removals_overdue run.queue now removal now'

/-- Every call of those who fill the queue keeps the law. -/
theorem Lawful.perform {run : QueueRun RF} (lawful : run.Lawful) (now : Time)
    (call : QueueCall RF) : (run.perform now call).Lawful := by
  cases call with
  | enqueue id data ttlSecs =>
    cases found : run.queue.unstampedMessages.find id with
    | none => exact lawful.enqueue_inserted now id data ttlSecs found
    | some message => exact lawful.enqueue_declined now id data ttlSecs (by simp [found])
  | stamp id vclock => exact lawful.stamp now id vclock
  | expireMessages => exact lawful.expireMessages now

/-- So does every call of a run with claims. What a claim takes comes to the
claimed ones. -/
theorem Lawful.consume {run after : QueueRun RF} (lawful : run.Lawful)
    (event : Time × ConsumerCall RF) (moved : run.consume event = some after) :
    after.Lawful := by
  obtain ⟨now, call | messageId⟩ := event
  · cases moved
    exact lawful.perform now call
  · obtain ⟨queue, claimed, rfl⟩ := Option.map_eq_some_iff.mp moved
    have taken := run.queue.contents_claim queue messageId lawful.wellFormed.distinctHandles claimed
    have size := run.queue.claim_size queue messageId claimed
    refine ⟨lawful.wellFormed.claim messageId claimed, ?_, ?_, lawful.overdue, lawful.fresh⟩
    · rw [List.perm_iff_count]
      intro content
      have before := lawful.conserved.count_eq content
      have parted := taken.count_eq content
      simp only [removedContents, List.count_append] at before parted ⊢
      omega
    · have counted := lawful.counted
      rw [← weight_perm RF taken, weight_append] at counted
      simp only [UInt32.ofNat_add] at counted ⊢
      grind

/-- The law holds in every state of a run with claims, from a new queue
on. -/
theorem consume_lawful (createdOn : Time) (queueId : UInt128) (run : QueueRun RF)
    (reached : Machine.Reaches QueueRun.consume (start createdOn queueId) run) : run.Lawful :=
  reached.invariant Lawful (fun _ event _ lawful moved => lawful.consume event moved)
    (start_lawful createdOn queueId)

/-- A run without claims is a run with claims that claims nothing, so that
what holds of the one holds of the other. -/
theorem reaches_consume (createdOn : Time) (queueId : UInt128) (run : QueueRun RF)
    (reached : Machine.Reaches step (start createdOn queueId) run) :
    Machine.Reaches QueueRun.consume (start createdOn queueId) run := by
  refine reached.mono ?_
  rintro before ⟨now, call⟩ after moved
  exact ⟨(now, .call call), moved⟩

/-- So the law holds in every state of a run without claims. -/
theorem step_lawful (createdOn : Time) (queueId : UInt128) (run : QueueRun RF)
    (reached : Machine.Reaches step (start createdOn queueId) run) : run.Lawful :=
  consume_lawful createdOn queueId run (reaches_consume createdOn queueId run reached)

/-- A run without claims has no claimed messages on record. -/
theorem unclaimed (createdOn : Time) (queueId : UInt128) (run : QueueRun RF)
    (reached : Machine.Reaches step (start createdOn queueId) run) : run.claimed = [] := by
  refine reached.invariant (fun run => run.claimed = []) ?_ rfl
  rintro before ⟨now, call⟩ after none moved
  cases moved
  cases call <;> exact none

/-- The law of a run without claims in which no identifier is enqueued
twice: nothing is declined or claimed. -/
theorem conserved_of_distinct (createdOn : Time) (queueId : UInt128) (run : QueueRun RF)
    (reached : Machine.Reaches step (start createdOn queueId) run)
    (distinct : (run.enqueued.map Prod.fst).Nodup) :
    (run.queue.contents ++ run.removedContents).Perm run.enqueued := by
  have lawful := step_lawful createdOn queueId run reached
  have conserved := lawful.conserved
  rw [lawful.fresh distinct, unclaimed createdOn queueId run reached] at conserved
  simpa using conserved

/-- The number of entries of the multimap that hold a message of this
identifier. The multimap would allow more than one. -/
def filedCount (run : QueueRun RF) (id : Uuid) : Nat :=
  run.queue.queuedMessages.countP (fun entry => decide (entry.message.id = id))

/-- An `expire_messages` call has erased a message of this identifier, at
some time of the run. -/
def Removed (run : QueueRun RF) (id : Uuid) : Prop :=
  ∃ removal ∈ run.removed, removal.message.id = id

/-- An identifier is unstamped once or not at all. -/
theorem count_unstamped (queue : MessageQueue RF) (named : queue.FiledById) (id : Uuid) :
    (queue.unstampedContents.map Prod.fst).count id =
      if (queue.unstampedMessages.find id).isSome then 1 else 0 := by
  rw [queue.unstampedContents_ids named, queue.unstampedMessages.distinct.count]
  exact if_congr (queue.unstampedMessages.find_isSome_iff id).symm rfl rfl

/-- How often an identifier is filed, read from the contents. -/
theorem count_filed (run : QueueRun RF) (id : Uuid) :
    (run.queue.filedContents.map Prod.fst).count id = run.filedCount id := by
  rw [MessageQueue.filedContents, List.map_map, List.count, List.countP_map, filedCount]
  refine List.countP_congr fun entry _ => ?_
  simp [QueuedMessage.content, Subtype.ext_iff]

/-- Whether an identifier has been erased, read from the contents. -/
theorem count_removed (run : QueueRun RF) (id : Uuid) :
    0 < (run.removedContents.map Prod.fst).count id ↔ run.Removed id := by
  rw [List.count_pos_iff, removedContents, List.map_map, List.mem_map]
  rfl

/-- No message has been lost or duplicated: each is in one place, as it was
enqueued, unless it was overdue. -/
structure NothingLost (run : QueueRun RF) : Prop where
  /-- An enqueued identifier is unstamped, or filed in one entry, or was
  erased by an `expire_messages` call, and only one of these. -/
  onePlace : ∀ id ∈ run.enqueued.map Prod.fst,
    ((run.queue.unstampedMessages.find id).isSome ∧ run.filedCount id = 0 ∧ ¬ run.Removed id) ∨
    (run.queue.unstampedMessages.find id = none ∧ run.filedCount id = 1 ∧ ¬ run.Removed id) ∨
    (run.queue.unstampedMessages.find id = none ∧ run.filedCount id = 0 ∧ run.Removed id)
  /-- What was erased had outlived the queue's time to live at the call. -/
  overdue : ∀ removal ∈ run.removed,
    removal.message.age removal.time > 1000000000 * removal.ttl.toNat
  /-- An unstamped message has the identifier and the payload it was
  enqueued with. -/
  unstampedIntact : ∀ id message, run.queue.unstampedMessages.find id = some message →
    message.id = id ∧ (id, message.data) ∈ run.enqueued
  /-- So has a filed one. -/
  filedIntact : ∀ entry ∈ run.queue.queuedMessages,
    (entry.message.id, entry.message.data) ∈ run.enqueued
  counted : run.queue.totalCount + run.removed.length = run.enqueued.length
  /-- A stamp for an identifier that is not unstamped is refused and changes
  nothing. -/
  refused : ∀ now id vclock, run.queue.unstampedMessages.find id = none →
    run.queue.stamp now id vclock = (run.queue, false)

/-- In every state of a run in which no identifier is enqueued twice, no
message has been lost or duplicated. The times of the calls and the stamps
are arbitrary.

Proof: by the conservation law the identifiers held and erased are a
permutation of those enqueued, so each of them is counted once. -/
theorem nothing_lost (createdOn : Time) (queueId : UInt128) (run : QueueRun RF)
    (reached : Machine.Reaches step (start createdOn queueId) run)
    (distinct : (run.enqueued.map Prod.fst).Nodup) : run.NothingLost := by
  have lawful := step_lawful createdOn queueId run reached
  have conserved := conserved_of_distinct createdOn queueId run reached distinct
  have held : ∀ content ∈ run.queue.contents, content ∈ run.enqueued := fun content member =>
    conserved.mem_iff.mp (List.mem_append_left _ member)
  refine ⟨?_, ?_, ?_, ?_, ?_, ?_⟩
  · intro id enqueued
    have once := (conserved.map Prod.fst).count_eq id
    rw [List.count_eq_one_of_mem distinct enqueued] at once
    simp only [MessageQueue.contents, List.map_append, List.count_append, count_filed,
      count_unstamped run.queue lawful.wellFormed.named] at once
    rw [← count_removed]
    cases found : run.queue.unstampedMessages.find id with
    | none =>
      simp only [found, Option.isSome_none, Bool.false_eq_true, if_false, true_and,
        false_and, false_or] at once ⊢
      omega
    | some message =>
      simp only [found, Option.isSome_some, if_true, true_and, reduceCtorEq, false_and, or_false]
        at once ⊢
      omega
  · intro removal member
    simpa [QueuedMessage.expired] using lawful.overdue removal member
  · intro id message found
    have named := lawful.wellFormed.named id message found
    refine ⟨named, named ▸ held _ (List.mem_append_left _ ?_)⟩
    exact List.mem_map_of_mem ((run.queue.unstampedMessages.mem_entries_iff id message).mpr found)
  · intro entry member
    exact held _ (List.mem_append_right _ (List.mem_map_of_mem member))
  · rw [MessageQueue.totalCount_eq, ← conserved.length_eq, List.length_append, removedContents,
      List.length_map]
  · intro now id vclock missing
    simp [MessageQueue.stamp, missing]

/-- Two messages, of which one is stamped and the other expires. The stamp
is given just before the expiry. -/
def expiringCalls : List (Time × QueueCall 1) :=
  [(0, .enqueue (Uuid.constant 1) [7] 5), (1, .enqueue (Uuid.constant 2) [8, 9] 5),
    (6000000000, .stamp (Uuid.constant 1) VectorClock.zero), (6000000000, .expireMessages)]

/-- The run of these calls on a new queue, which holds the stamped
message. -/
def expiringRun : QueueRun 1 :=
  expiringCalls.foldl (fun run event => run.perform event.1 event.2) (start 0 0)

/-- The statement at this run, in which one of the two messages has been
erased. -/
theorem nothing_lost_expiring :
    (expiringRun.enqueued.map Prod.fst).Nodup ∧ expiringRun.Removed (Uuid.constant 2) ∧
      expiringRun.NothingLost :=
  ⟨by decide, ⟨_, List.mem_singleton.mpr rfl, rfl⟩,
    nothing_lost 0 0 expiringRun
      (Machine.reaches_of_run step (start 0 0) expiringRun expiringCalls rfl) (by decide)⟩

/-- `memory_size()` is the sum of the sizes of the messages held, as a
32-bit number, which is the type of the counter. -/
def MemoryExact (queue : MessageQueue RF) : Prop :=
  queue.memorySize = UInt32.ofNat (weight RF queue.contents)

instance (queue : MessageQueue RF) : Decidable (MemoryExact queue) :=
  inferInstanceAs (Decidable (queue.memorySize = UInt32.ofNat (weight RF queue.contents)))

/-- In every state of every run, `memory_size()` is exact exactly when the
sizes of the declined messages add up to zero as a 32-bit number: a message
that is enqueued while its identifier is still unstamped is counted, but it
is neither held nor ever subtracted. -/
theorem memory_exact_iff (createdOn : Time) (queueId : UInt128) (run : QueueRun RF)
    (reached : Machine.Reaches step (start createdOn queueId) run) :
    MemoryExact run.queue ↔ weight RF run.declined % 2 ^ 32 = 0 := by
  have lawful := step_lawful createdOn queueId run reached
  rw [MemoryExact, MessageQueue.memorySize, lawful.counted, ← UInt32.toNat_inj,
    UInt32.toNat_ofNat', UInt32.toNat_ofNat']
  omega

/-- One identifier enqueued twice before it is stamped, and then expired.
The second enqueue is declined. -/
def repeatedCalls : List (Time × QueueCall 1) :=
  [(0, .enqueue (Uuid.constant 1) [7] 5), (1, .enqueue (Uuid.constant 1) [7] 5),
    (6000000000, .expireMessages)]

/-- The run of these calls on a new queue, which is empty at the end. -/
def repeatedRun : QueueRun 1 :=
  repeatedCalls.foldl (fun run event => run.perform event.1 event.2) (start 0 0)

/-- Nothing is held, and the counter is the size of the message that was
declined. -/
theorem repeated_id_leaks_memory :
    Machine.Reaches step (start 0 0) repeatedRun ∧ repeatedRun.queue.contents = [] ∧
      repeatedRun.queue.memorySize = 41 ∧ ¬ MemoryExact repeatedRun.queue :=
  ⟨Machine.reaches_of_run step (start 0 0) repeatedRun repeatedCalls rfl, rfl, rfl, by decide⟩

/-- Without a repeated identifier the counter is exact, expiry or not. -/
theorem memory_exact_expiring : MemoryExact expiringRun.queue :=
  (memory_exact_iff 0 0 expiringRun
    (Machine.reaches_of_run step (start 0 0) expiringRun expiringCalls rfl)).mpr rfl

end QueueRun

end Sopmq
