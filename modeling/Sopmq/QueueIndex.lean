import Sopmq.QueueRuns

/-!
# The message index of a queue

`_message_index` maps the identifier of a filed message to the entry of the
multimap, and a claim follows it. Stamping adds a record and a claim removes one,
but `expire_messages` erases entries and leaves their records behind.

In every state of a run in which no identifier is enqueued twice, the records of
the index are those of the filed messages together with those left behind. The
index is therefore right exactly as long as no filed message has expired.
-/

namespace Sopmq

namespace MessageQueue

variable {RF : Nat}

/-- The records that the index should have: the handle of every filed
message under its identifier. -/
def records (queue : MessageQueue RF) : List (Uuid × Nat) :=
  queue.queuedMessages.map (fun entry => (entry.message.id, entry.handle))

/-- The index has a record for exactly the filed messages, with the handle
of the message's own entry. -/
def IndexConsistent (queue : MessageQueue RF) : Prop :=
  ∀ id handle, queue.messageIndex.find id = some handle ↔
    ∃ entry ∈ queue.queuedMessages, entry.message.id = id ∧ entry.handle = handle

/-- Such a record belongs to an entry of the multimap. -/
theorem mem_records_iff (queue : MessageQueue RF) (id : Uuid) (handle : Nat) :
    (id, handle) ∈ queue.records ↔
      ∃ entry ∈ queue.queuedMessages, entry.message.id = id ∧ entry.handle = handle := by
  simp [records]

/-- The identifiers of the records are those of the filed messages, in their
order. -/
theorem records_ids (queue : MessageQueue RF) :
    queue.records.map Prod.fst = queue.filedContents.map Prod.fst := by
  simp [records, filedContents, QueuedMessage.content, Function.comp_def]

/-- Stamping adds the record of the new entry, whose handle is the next
one. -/
theorem records_stamp (queue : MessageQueue RF) (now : Time) (id : Uuid) (vclock : VectorClock RF)
    (message : QueuedMessage RF) (found : queue.unstampedMessages.find id = some message)
    (named : message.id = id) :
    (queue.stamp now id vclock).1.records.Perm ((id, queue.nextHandle) :: queue.records) := by
  have placed := (Arrival.place_perm QueueEntry.less
    ⟨queue.nextHandle, vclock, message.updateLocalTimestamp now⟩
    queue.queuedMessages).map (fun entry => (entry.message.id, entry.handle))
  have added : (message.updateLocalTimestamp now).id = id := named
  rw [List.map_cons, added] at placed
  simp only [stamp, found]
  exact placed

end MessageQueue

namespace QueueRun

variable {RF : Nat}

/-- The records of filed messages that `expire_messages` erased. Nothing has
taken these from the index. -/
def lost (run : QueueRun RF) : List (Uuid × Nat) :=
  run.removed.filterMap (fun removal =>
    removal.handle.map (fun handle => (removal.message.id, handle)))

/-- The index lists the filed messages and the lost ones, under distinct
handles that are all older than the next one. -/
structure Indexed (run : QueueRun RF) : Prop where
  listed : run.queue.messageIndex.entries.Perm (run.queue.records ++ run.lost)
  distinct : (run.queue.messageIndex.entries.map Prod.snd).Nodup
  older : ∀ record ∈ run.queue.messageIndex.entries, record.2 < run.queue.nextHandle

/-- A new queue has an empty index and no filed messages. -/
theorem start_indexed (createdOn : Time) (queueId : UInt128) :
    (start createdOn queueId : QueueRun RF).Indexed where
  listed := List.Perm.refl _
  distinct := List.nodup_nil
  older := by simp [start, MessageQueue.create, KeyedMap.empty]

/-- A lost identifier is one of the erased ones. The erased unstamped
messages have left no record. -/
theorem lost_ids_subset (run : QueueRun RF) :
    run.lost.map Prod.fst ⊆ run.removedContents.map Prod.fst := by
  intro id member
  obtain ⟨⟨_, handle⟩, left, rfl⟩ := List.mem_map.mp member
  obtain ⟨removal, erased, recorded⟩ := List.mem_filterMap.mp left
  obtain ⟨_, _, same⟩ := Option.map_eq_some_iff.mp recorded
  rw [removedContents, List.map_map]
  exact List.mem_map.mpr ⟨removal, erased, congrArg Prod.fst same⟩

/-- The index has no record yet for an identifier that is unstamped, since
this is neither filed nor lost. -/
theorem Indexed.unlisted {run : QueueRun RF} (indexed : run.Indexed) (lawful : run.Lawful)
    (distinct : (run.enqueued.map Prod.fst).Nodup) (id : Uuid)
    (unstamped : (run.queue.unstampedMessages.find id).isSome) :
    run.queue.messageIndex.find id = none := by
  rw [KeyedMap.find_eq_none_iff, (indexed.listed.map Prod.fst).mem_iff, List.map_append,
    run.queue.records_ids]
  rw [KeyedMap.find_isSome_iff,
    ← run.queue.unstampedContents_ids lawful.wellFormed.named] at unstamped
  have apart := (List.nodup_append.mp (lawful.apart distinct)).2.2 id unstamped
  intro member
  rcases List.mem_append.mp member with filed | left
  · exact apart id (List.mem_append_left _ filed) rfl
  · exact apart id (List.mem_append_right _ (run.lost_ids_subset left)) rfl

/-- Stamping keeps the account of the index. The identifier has no record,
so one is added, under a handle that is new. -/
theorem Indexed.stamp {run : QueueRun RF} (indexed : run.Indexed) (lawful : run.Lawful)
    (distinct : (run.enqueued.map Prod.fst).Nodup) (now : Time) (id : Uuid)
    (vclock : VectorClock RF) : (run.perform now (.stamp id vclock)).Indexed := by
  cases found : run.queue.unstampedMessages.find id with
  | none =>
    rw [run.perform_stamp_absent now id vclock found]
    exact indexed
  | some message =>
    have unlisted := indexed.unlisted lawful distinct id (by simp [found])
    have named := lawful.wellFormed.named id message found
    have entries := KeyedMap.insert_entries_of_absent run.queue.messageIndex id
      run.queue.nextHandle unlisted
    have placed := run.queue.records_stamp now id vclock message found named
    refine ⟨?_, ?_, ?_⟩
    · refine List.Perm.trans ?_ (placed.symm.append_right run.lost)
      simp only [perform, MessageQueue.stamp, found, entries]
      exact (List.perm_append_singleton _ _).trans (indexed.listed.cons _)
    · simp only [perform, MessageQueue.stamp, found, entries, List.map_append, List.map_cons,
        List.map_nil]
      refine List.nodup_append.mpr ⟨indexed.distinct, List.nodup_singleton _, ?_⟩
      intro handle member next single
      obtain ⟨record, listed, rfl⟩ := List.mem_map.mp member
      rw [List.mem_singleton.mp single]
      exact (indexed.older record listed).ne
    · simp only [perform, MessageQueue.stamp, found, entries]
      intro record member
      rcases List.mem_append.mp member with listed | single
      · exact Nat.lt_succ_of_lt (indexed.older record listed)
      · rw [List.mem_singleton.mp single]
        exact Nat.lt_succ_self _

/-- The records of the erased messages stay, and now belong to nothing. What
leaves the filed ones comes to the lost ones. -/
theorem Indexed.expireMessages {run : QueueRun RF} (indexed : run.Indexed) (now : Time) :
    (run.perform now .expireMessages).Indexed := by
  have records : run.queue.records =
      (run.queue.expiredQueued now).map (fun entry => (entry.message.id, entry.handle)) ++
        (run.queue.expireMessages now).records := by
    rw [MessageQueue.records, MessageQueue.records, MessageQueue.expireMessages,
      MessageQueue.expireQueued_fst, ← List.map_append, MessageQueue.expiredQueued,
      List.takeWhile_append_dropWhile]
  have lost : (run.perform now .expireMessages).lost = run.lost ++
      (run.queue.expiredQueued now).map (fun entry => (entry.message.id, entry.handle)) := by
    simp [QueueRun.lost, perform, MessageQueue.removals]
  refine ⟨?_, indexed.distinct, indexed.older⟩
  rw [lost]
  refine indexed.listed.trans ?_
  rw [records, List.append_assoc]
  exact List.perm_append_comm.trans (by rw [List.append_assoc]; exact List.Perm.refl _)

/-- Every call of those who fill the queue keeps the account of the
index. -/
theorem Indexed.perform {run : QueueRun RF} (indexed : run.Indexed) (lawful : run.Lawful)
    (distinct : (run.enqueued.map Prod.fst).Nodup) (now : Time) (call : QueueCall RF) :
    (run.perform now call).Indexed := by
  cases call with
  | enqueue id data ttlSecs => exact ⟨indexed.listed, indexed.distinct, indexed.older⟩
  | stamp id vclock => exact indexed.stamp lawful distinct now id vclock
  | expireMessages => exact indexed.expireMessages now

/-- The handle of a record leads to the record's own message, if it leads to
one, because no handle is used twice. -/
theorem Indexed.own_entry {run : QueueRun RF} (indexed : run.Indexed) (id : Uuid) (handle : Nat)
    (entry : QueueEntry RF) (located : run.queue.messageIndex.find id = some handle)
    (found : run.queue.dereference handle = some entry) :
    entry.message.id = id ∧ entry.handle = handle := by
  have same : entry.handle = handle := by simpa using List.find?_some found
  have held : entry ∈ run.queue.queuedMessages := List.mem_of_find?_eq_some found
  have listed : (entry.message.id, handle) ∈ run.queue.messageIndex.entries :=
    indexed.listed.mem_iff.mpr (List.mem_append_left _
      ((run.queue.mem_records_iff _ _).mpr ⟨entry, held, rfl, same⟩))
  have record := (run.queue.messageIndex.mem_entries_iff id handle).mpr located
  have equal := List.inj_on_of_nodup_map indexed.distinct listed record rfl
  exact ⟨congrArg Prod.fst equal, same⟩

/-- A claim keeps the account of the index: it takes the record and the
entry together. -/
theorem Indexed.claim {run : QueueRun RF} (indexed : run.Indexed) (lawful : run.Lawful)
    (messageId : Uuid) (queue : MessageQueue RF) (claimed : List (Uuid × Bytes))
    (returned : run.queue.claim messageId = some queue) :
    ({ run with queue := queue, claimed := claimed } : QueueRun RF).Indexed := by
  rcases run.queue.claim_cases queue messageId returned with
    ⟨_, rfl⟩ | ⟨handle, entry, located, found, rfl⟩
  · exact ⟨indexed.listed, indexed.distinct, indexed.older⟩
  · obtain ⟨named, same⟩ := indexed.own_entry messageId handle entry located found
    have erased := run.queue.messageIndex.entries_perm_erase messageId handle located
    have taken := (perm_filter_key QueueEntry.handle handle run.queue.queuedMessages entry
      lawful.wellFormed.distinctHandles found).map (fun entry => (entry.message.id, entry.handle))
    have fewer : (run.queue.messageIndex.erase messageId).entries.Sublist
        run.queue.messageIndex.entries := List.filter_sublist
    rw [List.map_cons, named, same] at taken
    refine ⟨?_, indexed.distinct.sublist (fewer.map _), ?_⟩
    · exact List.Perm.cons_inv
        (erased.symm.trans (indexed.listed.trans (taken.append_right run.lost)))
    · exact fun record member => indexed.older record (fewer.mem member)

/-- No call takes back what was enqueued. So identifiers that are distinct
at the end were so all along. -/
theorem consume_enqueued (before after : QueueRun RF) (event : Time × ConsumerCall RF)
    (moved : before.consume event = some after) : before.enqueued <+: after.enqueued := by
  obtain ⟨now, call | messageId⟩ := event
  · cases moved
    cases call with
    | enqueue id data ttlSecs => exact List.prefix_append _ _
    | stamp id vclock => exact List.prefix_rfl
    | expireMessages => exact List.prefix_rfl
  · obtain ⟨queue, _, rfl⟩ := Option.map_eq_some_iff.mp moved
    exact List.prefix_rfl

/-- The index lists the filed and the lost messages in every state of a run
in which no identifier is enqueued twice. -/
theorem consume_indexed (createdOn : Time) (queueId : UInt128) (run : QueueRun RF)
    (reached : Machine.Reaches consume (start createdOn queueId) run)
    (distinct : (run.enqueued.map Prod.fst).Nodup) : run.Indexed := by
  refine (reached.invariant
    (fun run => run.Lawful ∧ ((run.enqueued.map Prod.fst).Nodup → run.Indexed)) ?_
    ⟨start_lawful createdOn queueId, fun _ => start_indexed createdOn queueId⟩).2 distinct
  rintro before event after ⟨lawful, indexed⟩ moved
  refine ⟨lawful.consume event moved, fun later => ?_⟩
  have earlier : (before.enqueued.map Prod.fst).Nodup :=
    later.sublist ((consume_enqueued before after event moved).sublist.map _)
  obtain ⟨now, call | messageId⟩ := event
  · cases moved
    exact (indexed earlier).perform lawful earlier now call
  · obtain ⟨queue, returned, rfl⟩ := Option.map_eq_some_iff.mp moved
    exact (indexed earlier).claim lawful messageId queue _ returned

/-- A lost message is not filed any more: its identifier was enqueued once,
and that message was erased. -/
theorem Lawful.lost_not_filed {run : QueueRun RF} (lawful : run.Lawful)
    (distinct : (run.enqueued.map Prod.fst).Nodup) (id : Uuid) (handle : Nat)
    (left : (id, handle) ∈ run.lost) (entry : QueueEntry RF)
    (filed : entry ∈ run.queue.queuedMessages) : entry.message.id ≠ id := by
  have apart := (List.nodup_append.mp (List.nodup_append.mp (lawful.apart distinct)).2.1).2.2
  refine apart entry.message.id ?_ id (run.lost_ids_subset (List.mem_map_of_mem left))
  exact List.mem_map_of_mem (List.mem_map_of_mem filed)

/-- In every state of a run in which no identifier is enqueued twice, the
index lists exactly the filed messages, and so no claim follows a dangling
handle, exactly when no `expire_messages` call of the run has erased a filed
message. -/
theorem index_consistent_iff (createdOn : Time) (queueId : UInt128) (run : QueueRun RF)
    (reached : Machine.Reaches consume (start createdOn queueId) run)
    (distinct : (run.enqueued.map Prod.fst).Nodup) :
    (run.queue.IndexConsistent ∧ ∀ id, (run.queue.claim id).isSome) ↔
      ∀ removal ∈ run.removed, removal.handle = none := by
  have lawful := consume_lawful createdOn queueId run reached
  have indexed := consume_indexed createdOn queueId run reached distinct
  have found : ∀ id handle, run.queue.messageIndex.find id = some handle ↔
      (id, handle) ∈ run.queue.records ∨ (id, handle) ∈ run.lost := by
    intro id handle
    rw [← KeyedMap.mem_entries_iff, indexed.listed.mem_iff, List.mem_append]
  constructor
  · rintro ⟨consistent, _⟩ removal erased
    by_contra filed
    obtain ⟨handle, known⟩ := Option.ne_none_iff_exists'.mp filed
    have left : (removal.message.id, handle) ∈ run.lost :=
      List.mem_filterMap.mpr ⟨removal, erased, by rw [known, Option.map_some]⟩
    obtain ⟨entry, held, same, _⟩ := (consistent _ _).mp ((found _ _).mpr (Or.inr left))
    exact lawful.lost_not_filed distinct _ handle left entry held same
  · intro unfiled
    have nothing : run.lost = [] := by
      refine List.filterMap_eq_nil_iff.mpr fun removal erased => ?_
      rw [unfiled removal erased, Option.map_none]
    have consistent : run.queue.IndexConsistent := by
      intro id handle
      rw [found, nothing, ← MessageQueue.mem_records_iff]
      simp
    refine ⟨consistent, fun id => ?_⟩
    unfold MessageQueue.claim
    split
    · rfl
    · next handle located =>
      obtain ⟨entry, held, _, same⟩ := (consistent id handle).mp located
      rw [Option.isSome_map, MessageQueue.dereference, List.find?_isSome]
      exact ⟨entry, held, by simpa using same⟩

/-- A message that expires unstamped leaves the index right, as it has no
record. -/
theorem index_consistent_expiring :
    expiringRun.queue.IndexConsistent ∧ ∀ id, (expiringRun.queue.claim id).isSome :=
  (index_consistent_iff 0 0 expiringRun
    (reaches_consume 0 0 expiringRun
      (Machine.reaches_of_run step (start 0 0) expiringRun expiringCalls rfl))
    (by decide)).mpr (by
      intro removal erased
      rw [List.mem_singleton.mp erased])

/-- One message that is enqueued and stamped, and expires six seconds
later. -/
def staleCalls : List (Time × ConsumerCall 1) :=
  [(0, .call (.enqueue (Uuid.constant 1) [7] 5)),
    (0, .call (.stamp (Uuid.constant 1) VectorClock.zero)),
    (6000000000, .call .expireMessages)]

/-- Its record stays in the index although nothing is filed, and a claim
follows the dangling handle. -/
theorem expired_entry_dangles :
    ∃ run : QueueRun 1, Machine.run consume (start 0 0) staleCalls = some run ∧
      (run.enqueued.map Prod.fst).Nodup ∧ run.queue.queuedMessages = [] ∧
      run.queue.messageIndex.find (Uuid.constant 1) = some 0 ∧
      ¬ run.queue.IndexConsistent ∧ run.queue.claim (Uuid.constant 1) = none := by
  refine ⟨_, rfl, by decide, rfl, rfl, ?_, rfl⟩
  intro consistent
  obtain ⟨entry, held, _⟩ := (consistent (Uuid.constant 1) 0).mp rfl
  exact absurd held List.not_mem_nil

end QueueRun

end Sopmq
