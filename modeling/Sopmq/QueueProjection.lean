import Mathlib.Data.Finset.Card
import Sopmq.QueueManager

/-!
# Queues do not affect each other

A run of a queue manager is a list of calls, each with the time at which it is made
and the queue that it is addressed to. What the manager holds for one queue is what
the calls addressed to it make of a new queue, whatever calls are addressed to others
in between. A queue exists from the first call that names it, be it a stamp or a mere
lookup, and is then registered in the heap once.
-/

namespace Sopmq

/-- A call on a `queue_manager`: a lookup, a message to enqueue, or a
stamp. -/
inductive ManagerCall (RF : Nat) where
  | getQueue (queueId : UInt128)
  | enqueueMessage (queueId : UInt128) (messageId : Uuid) (data : Bytes) (ttlSecs : UInt32)
  | stampMessage (queueId : UInt128) (messageId : Uuid) (clock : VectorClock RF)

/-- The queue that a call is addressed to. Every call names one. -/
def ManagerCall.queueId {RF : Nat} : ManagerCall RF → UInt128
  | getQueue queueId => queueId
  | enqueueMessage queueId _ _ _ => queueId
  | stampMessage queueId _ _ => queueId

namespace MessageQueue

variable {RF : Nat}

/-- What a call on the manager does to the queue it is addressed to, once
this exists. A lookup does nothing. -/
def receive (queue : MessageQueue RF) : Time × ManagerCall RF → MessageQueue RF
  | (_, .getQueue _) => queue
  | (now, .enqueueMessage _ messageId data ttlSecs) => queue.enqueue now messageId data ttlSecs
  | (now, .stampMessage _ messageId clock) => (queue.stamp now messageId clock).1

/-- The two queues hold the same messages, in the same order where they are
filed, with the same time to live, count and size. -/
def SameState (first second : MessageQueue RF) : Prop :=
  first.unstampedMessages = second.unstampedMessages ∧
    first.queuedMessages = second.queuedMessages ∧ first.ttl = second.ttl ∧
    first.totalCount = second.totalCount ∧ first.memorySize = second.memorySize

/-- The time of creation is never read: a queue receives a call alike
whenever it was created. -/
theorem receive_createdOn (queue : MessageQueue RF) (createdOn : Time)
    (event : Time × ManagerCall RF) :
    { queue with createdOn := createdOn }.receive event =
      { queue.receive event with createdOn := createdOn } := by
  obtain ⟨now, call⟩ := event
  cases call with
  | getQueue queueId => rfl
  | enqueueMessage queueId messageId data ttlSecs => rfl
  | stampMessage queueId messageId clock =>
    simp only [receive, stamp]
    cases queue.unstampedMessages.find messageId with
    | none => rfl
    | some message => rfl

/-- Nor is it read in a sequence of calls. By induction on these. -/
theorem foldl_receive_createdOn (events : List (Time × ManagerCall RF)) (queue : MessageQueue RF)
    (createdOn : Time) :
    events.foldl receive { queue with createdOn := createdOn } =
      { events.foldl receive queue with createdOn := createdOn } := by
  induction events generalizing queue with
  | nil => rfl
  | cons event rest inductionHypothesis =>
    rw [List.foldl_cons, receive_createdOn, inductionHypothesis, List.foldl_cons]

/-- Queues created at different times go through the same states, given the
same calls. -/
theorem sameState_of_create (events : List (Time × ManagerCall RF)) (queueId : UInt128)
    (first second : Time) :
    SameState (events.foldl receive (create first queueId))
      (events.foldl receive (create second queueId)) := by
  have other : (create second queueId : MessageQueue RF) =
      { create first queueId with createdOn := second } := rfl
  have moved := foldl_receive_createdOn events (create first queueId) second
  rw [other, moved]
  exact ⟨rfl, rfl, rfl, rfl, rfl⟩

end MessageQueue

namespace QueueManager

variable {RF : Nat}

/-- Make a call on the manager at its time. -/
def perform (manager : QueueManager RF) : Time × ManagerCall RF → QueueManager RF
  | (now, .getQueue queueId) => manager.getQueue now queueId
  | (now, .enqueueMessage queueId messageId data ttlSecs) =>
      manager.enqueueMessage now queueId messageId data ttlSecs
  | (now, .stampMessage queueId messageId clock) =>
      manager.stampMessage now queueId messageId clock

/-- A new manager after the given calls, from the first to the last. -/
def after (events : List (Time × ManagerCall RF)) : QueueManager RF := events.foldl perform empty

/-- The calls addressed to a queue, in their order and at their times. -/
def addressed (queueId : UInt128) (events : List (Time × ManagerCall RF)) :
    List (Time × ManagerCall RF) :=
  events.filter fun event => decide (event.2.queueId = queueId)

/-- After a lookup the queue exists, new or as it was, and the other queues
are as they were. -/
theorem find_getQueue (manager : QueueManager RF) (now : Time) (queueId other : UInt128) :
    (manager.getQueue now queueId).queues.find other =
      if queueId = other then
        some ((manager.queues.find other).getD (MessageQueue.create now other))
      else manager.queues.find other := by
  unfold getQueue
  cases found : manager.queues.find queueId with
  | none =>
    rw [KeyedMap.find_insert, found]
    by_cases same : queueId = other
    · subst same
      simp [found]
    · simp [same, Ne.symm same]
  | some queue =>
    by_cases same : queueId = other
    · subst same
      simp [found]
    · simp [same]

/-- A change of the queue that has been looked up or created changes no
other. Enqueueing and stamping have this form. -/
theorem find_adjust_getQueue (manager : QueueManager RF) (now : Time) (queueId other : UInt128)
    (change : MessageQueue RF → MessageQueue RF) :
    ((manager.getQueue now queueId).queues.adjust queueId change).find other =
      if queueId = other then
        some (change ((manager.queues.find other).getD (MessageQueue.create now other)))
      else manager.queues.find other := by
  rw [KeyedMap.find_adjust, find_getQueue]
  by_cases same : queueId = other
  · simp [same]
  · simp [same, Ne.symm same]

/-- A call creates its queue if need be and changes no other. This is the
step that the runs are made of. -/
theorem find_perform (manager : QueueManager RF) (event : Time × ManagerCall RF)
    (queueId : UInt128) :
    (manager.perform event).queues.find queueId =
      if event.2.queueId = queueId then
        some (((manager.queues.find queueId).getD
          (MessageQueue.create event.1 queueId)).receive event)
      else manager.queues.find queueId := by
  obtain ⟨now, call⟩ := event
  cases call with
  | getQueue other => exact find_getQueue manager now other queueId
  | enqueueMessage other messageId data ttlSecs =>
    exact find_adjust_getQueue manager now other queueId _
  | stampMessage other messageId clock =>
    exact find_adjust_getQueue manager now other queueId _

/-- What a queue receives first creates it, at the time of that call. -/
def evolve (queueId : UInt128) (queue : Option (MessageQueue RF))
    (event : Time × ManagerCall RF) : Option (MessageQueue RF) :=
  some ((queue.getD (MessageQueue.create event.1 queueId)).receive event)

/-- Each queue evolves by the calls addressed to it alone. By induction on
the calls, with the step above. -/
theorem find_foldl_perform (events : List (Time × ManagerCall RF)) (manager : QueueManager RF)
    (queueId : UInt128) :
    (events.foldl perform manager).queues.find queueId =
      (addressed queueId events).foldl (evolve queueId) (manager.queues.find queueId) := by
  induction events generalizing manager with
  | nil => rfl
  | cons event rest inductionHypothesis =>
    rw [List.foldl_cons, inductionHypothesis, find_perform]
    by_cases same : event.2.queueId = queueId
    · simp [addressed, same, evolve]
    · simp [addressed, same]

/-- Once it exists, a queue just receives what is addressed to it. No call
of a manager removes it. -/
theorem foldl_evolve_some (queueId : UInt128) (events : List (Time × ManagerCall RF))
    (queue : MessageQueue RF) :
    events.foldl (evolve queueId) (some queue) =
      some (events.foldl MessageQueue.receive queue) := by
  induction events generalizing queue with
  | nil => rfl
  | cons event rest inductionHypothesis => exact inductionHypothesis (queue.receive event)

/-- The first call addressed to a queue finds it new, and is received by it
as well. -/
theorem foldl_evolve_none (queueId : UInt128) (event : Time × ManagerCall RF)
    (rest : List (Time × ManagerCall RF)) :
    (event :: rest).foldl (evolve queueId) none =
      some ((event :: rest).foldl MessageQueue.receive (MessageQueue.create event.1 queueId)) :=
  foldl_evolve_some queueId rest _

/-- The queues held are those in the heap, in the same order, and these are
the ones that were named. -/
structure Registered (manager : QueueManager RF) (named : List UInt128) : Prop where
  keys : manager.queues.entries.map Prod.fst = manager.queuesByExpiration
  members : ∀ queueId, queueId ∈ manager.queuesByExpiration ↔ queueId ∈ named

/-- A lookup registers a queue that is new and leaves one that is there, so
the account is kept. -/
theorem Registered.getQueue {manager : QueueManager RF} {named : List UInt128}
    (registered : manager.Registered named) (now : Time) (queueId : UInt128) :
    (manager.getQueue now queueId).Registered (named ++ [queueId]) := by
  unfold QueueManager.getQueue
  cases found : manager.queues.find queueId with
  | none =>
    constructor
    · simp [KeyedMap.insert_entries_of_absent _ _ _ found, registered.keys]
    · simp [registered.members]
  | some queue =>
    have held : queueId ∈ named := by
      rw [← registered.members, ← registered.keys, ← KeyedMap.find_isSome_iff, found,
        Option.isSome_some]
    refine ⟨registered.keys, fun other => ?_⟩
    rw [registered.members, List.mem_append, List.mem_singleton]
    exact ⟨Or.inl, fun either => either.elim id fun same => same ▸ held⟩

/-- Every call keeps the account: it looks its queue up, and changes no
key. -/
theorem Registered.perform {manager : QueueManager RF} {named : List UInt128}
    (registered : manager.Registered named) (event : Time × ManagerCall RF) :
    (manager.perform event).Registered (named ++ [event.2.queueId]) := by
  obtain ⟨now, call⟩ := event
  cases call with
  | getQueue queueId => exact registered.getQueue now queueId
  | enqueueMessage queueId messageId data ttlSecs =>
    obtain ⟨keys, members⟩ := registered.getQueue now queueId
    exact ⟨(KeyedMap.keys_adjust _ _ _).trans keys, members⟩
  | stampMessage queueId messageId clock =>
    obtain ⟨keys, members⟩ := registered.getQueue now queueId
    exact ⟨(KeyedMap.keys_adjust _ _ _).trans keys, members⟩

/-- So do the calls of a run. By induction on these. -/
theorem Registered.foldl {manager : QueueManager RF} {named : List UInt128}
    (registered : manager.Registered named) (events : List (Time × ManagerCall RF)) :
    (events.foldl QueueManager.perform manager).Registered
      (named ++ events.map fun event => event.2.queueId) := by
  induction events generalizing manager named with
  | nil => simpa using registered
  | cons event rest inductionHypothesis =>
    have continued := inductionHypothesis (registered.perform event)
    rwa [List.append_assoc] at continued

/-- Each name is registered once, so the heap has as many elements as there
are names. -/
theorem Registered.length_eq {manager : QueueManager RF} {named : List UInt128}
    (registered : manager.Registered named) :
    manager.queuesByExpiration.length = named.toFinset.card := by
  have distinct : manager.queuesByExpiration.Nodup := registered.keys ▸ manager.queues.distinct
  rw [← List.toFinset_card_of_nodup distinct]
  congr 1
  ext queueId
  rw [List.mem_toFinset, List.mem_toFinset, registered.members]

/-- After any calls, the queue of an identifier is in the state that the
calls addressed to it bring any new queue to, an identifier that was never
used has no queue, and there are as many queues, in the map and in the heap,
as identifiers were used. -/
theorem queues_independent (events : List (Time × ManagerCall RF)) :
    (∀ queueId,
      ((∃ event ∈ events, event.2.queueId = queueId) →
        ∃ queue, (after events).queues.find queueId = some queue ∧
          ∀ createdOn, queue.SameState ((addressed queueId events).foldl MessageQueue.receive
            (MessageQueue.create createdOn queueId))) ∧
      ((∀ event ∈ events, event.2.queueId ≠ queueId) →
        (after events).queues.find queueId = none)) ∧
      (after events).queues.entries.length =
        (events.map fun event => event.2.queueId).toFinset.card ∧
      (after events).queuesByExpiration.length =
        (events.map fun event => event.2.queueId).toFinset.card := by
  have registered : (after events).Registered (events.map fun event => event.2.queueId) :=
    Registered.foldl ⟨rfl, fun _ => Iff.rfl⟩ events
  refine ⟨fun queueId => ⟨?_, ?_⟩, ?_, registered.length_eq⟩
  · rintro ⟨event, member, same⟩
    have found : (after events).queues.find queueId =
        (addressed queueId events).foldl (evolve queueId) none :=
      find_foldl_perform events empty queueId
    cases received : addressed queueId events with
    | nil =>
      have missed := List.filter_eq_nil_iff.mp received event member
      exact absurd (decide_eq_true same) missed
    | cons first rest =>
      rw [received, foldl_evolve_none] at found
      exact ⟨_, found, fun createdOn =>
        MessageQueue.sameState_of_create (first :: rest) queueId first.1 createdOn⟩
  · intro unused
    have none : addressed queueId events = [] := by
      refine List.filter_eq_nil_iff.mpr fun event member => ?_
      simpa using unused event member
    rw [after, find_foldl_perform, none]
    rfl
  · rw [← registered.length_eq, ← registered.keys, List.length_map]

end QueueManager

end Sopmq
