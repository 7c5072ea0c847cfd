import Sopmq.ClockOrder
import Sopmq.MessageQueue

/-!
# Agreement of replicas on the delivery order

Two replicas of a queue enqueue the same messages and stamp them with the same
clocks, each in its own order and at its own times. They deliver in the same
order, whatever these orders are, exactly when the comparator orders every two of
the stamps and no three of them in a cycle. Stamps that are neither less nor
greater, as concurrent publishes on different quorums produce them, are delivered
in the order of their arrival at each replica.
-/

namespace Sopmq

/-- A published message, as every replica enqueues it. -/
structure Post where
  id : Uuid
  data : Bytes
  ttlSecs : UInt32

/-- One replica's history of a set of messages: it enqueues all of them, and
then stamps all of them, in any orders and at any times. -/
structure ReplicaHistory (posts : List Post) where
  queueId : UInt128
  createdOn : Time
  enqueues : List (Time × Post)
  stamps : List (Time × Uuid)
  enqueued : (enqueues.map Prod.snd).Perm posts
  stamped : (stamps.map Prod.snd).Perm (posts.map Post.id)

namespace MessageQueue

variable {RF : Nat}

/-- Enqueue the given messages one after the other, each at its time. -/
def enqueueAll (queue : MessageQueue RF) (enqueues : List (Time × Post)) : MessageQueue RF :=
  enqueues.foldl (fun queue call => queue.enqueue call.1 call.2.id call.2.data call.2.ttlSecs) queue

/-- Stamp the given messages one after the other, each at its time, with the
clock of its identifier. -/
def stampAll (clockOf : Uuid → VectorClock RF) (queue : MessageQueue RF)
    (stamps : List (Time × Uuid)) : MessageQueue RF :=
  stamps.foldl (fun queue call => (queue.stamp call.1 call.2 (clockOf call.2)).1) queue

/-- Enqueueing files nothing, keeps the unstamped messages under their own
identifiers, and leaves every enqueued message unstamped. -/
theorem enqueueAll_unstamped (queue : MessageQueue RF) (enqueues : List (Time × Post))
    (filedById : queue.FiledById) :
    (queue.enqueueAll enqueues).filed = queue.filed ∧
      (queue.enqueueAll enqueues).FiledById ∧
      ∀ id, id ∈ enqueues.map (fun call => call.2.id) ∨
          (queue.unstampedMessages.find id).isSome = true →
        ((queue.enqueueAll enqueues).unstampedMessages.find id).isSome = true := by
  induction enqueues generalizing queue with
  | nil => exact ⟨rfl, filedById, fun id present => by simpa [enqueueAll] using present⟩
  | cons call rest inductionHypothesis =>
    obtain ⟨time, post⟩ := call
    obtain ⟨kept, named, unstamped⟩ := inductionHypothesis
      (queue.enqueue time post.id post.data post.ttlSecs)
      (enqueue_filedById queue time post.id post.data post.ttlSecs filedById)
    refine ⟨kept, named, ?_⟩
    intro id present
    apply unstamped id
    rw [find_enqueue]
    by_cases same : id = post.id
    · exact Or.inr (by simp [same])
    · simpa [same] using present

/-- Stamping unstamped messages, each once, is their arrival in the
multimap. By induction on the stamps. -/
theorem stampAll_filed (clockOf : Uuid → VectorClock RF) (queue : MessageQueue RF)
    (stamps : List (Time × Uuid)) (filedById : queue.FiledById)
    (distinct : (stamps.map Prod.snd).Nodup)
    (unstamped : ∀ id ∈ stamps.map Prod.snd, (queue.unstampedMessages.find id).isSome = true) :
    (queue.stampAll clockOf stamps).filed =
      Arrival.arriveAt stampLess queue.filed
        ((stamps.map Prod.snd).map (fun id => (id, clockOf id))) := by
  induction stamps generalizing queue with
  | nil => rfl
  | cons call rest inductionHypothesis =>
    obtain ⟨time, id⟩ := call
    obtain ⟨fresh, restDistinct⟩ := List.nodup_cons.mp distinct
    obtain ⟨message, found⟩ := Option.isSome_iff_exists.mp
      (unstamped id List.mem_cons_self)
    obtain ⟨placed, erased⟩ :=
      stamp_found queue time id (clockOf id) message found (filedById id message found)
    have restFiled : (queue.stamp time id (clockOf id)).1.FiledById := by
      intro other held present
      rw [erased, KeyedMap.find_erase] at present
      split at present
      · exact absurd present (Option.some_ne_none held).symm
      · exact filedById other held present
    have restUnstamped : ∀ other ∈ rest.map Prod.snd,
        ((queue.stamp time id (clockOf id)).1.unstampedMessages.find other).isSome = true := by
      intro other member
      have different : other ≠ id := fun same => fresh (same ▸ member)
      rw [erased, KeyedMap.find_erase, if_neg different]
      exact unstamped other (List.mem_cons_of_mem _ member)
    have continued := inductionHypothesis (queue.stamp time id (clockOf id)).1 restFiled
      restDistinct restUnstamped
    rw [placed] at continued
    exact continued

end MessageQueue

namespace ReplicaHistory

variable {posts : List Post}

/-- The replica's queue when all messages are enqueued and none is
stamped. -/
def unstamped (history : ReplicaHistory posts) : MessageQueue 3 :=
  (MessageQueue.create history.createdOn history.queueId).enqueueAll history.enqueues

/-- The replica's queue when all messages are stamped. The clocks are the
same for all replicas. -/
def queue (history : ReplicaHistory posts) (clockOf : Uuid → VectorClock 3) : MessageQueue 3 :=
  history.unstamped.stampAll clockOf history.stamps

/-- The identifiers the replica delivers, in the order of `peekAll`. -/
def delivered (history : ReplicaHistory posts) (clockOf : Uuid → VectorClock 3) : List Uuid :=
  (history.queue clockOf).peekAll.map QueuedMessage.id

/-- The comparator on identifiers, through their stamps. It is all that the
order of delivery depends on. -/
def idLess (clockOf : Uuid → VectorClock 3) (x y : Uuid) : Bool :=
  decide (VectorClock.Less (clockOf x) (clockOf y))

/-- A replica delivers the identifiers as they arrived with their stamps.
Times and the order of enqueueing do not matter. -/
theorem delivered_eq (history : ReplicaHistory posts) (clockOf : Uuid → VectorClock 3)
    (distinct : (posts.map Post.id).Nodup) :
    history.delivered clockOf =
      Arrival.arrive (idLess clockOf) (history.stamps.map Prod.snd) := by
  obtain ⟨kept, filedById, unstamped⟩ := MessageQueue.enqueueAll_unstamped
    (MessageQueue.create history.createdOn history.queueId : MessageQueue 3) history.enqueues
    (MessageQueue.create_filedById _ _)
  have present : ∀ id ∈ history.stamps.map Prod.snd,
      (history.unstamped.unstampedMessages.find id).isSome = true := by
    intro id member
    apply unstamped id
    left
    have posted : id ∈ posts.map Post.id := history.stamped.mem_iff.mp member
    have perm := history.enqueued.map Post.id
    rw [List.map_map] at perm
    exact perm.mem_iff.mpr posted
  have filed := MessageQueue.stampAll_filed clockOf history.unstamped history.stamps filedById
    (history.stamped.nodup_iff.mpr distinct) present
  have viewed := Arrival.arriveAt_map (idLess clockOf) (fun id => (id, clockOf id))
    MessageQueue.stampLess (fun _ _ => rfl) [] (history.stamps.map Prod.snd)
  have vacant : history.unstamped.filed = [] := kept
  rw [vacant] at filed
  have tagged : (history.queue clockOf).filed =
      (Arrival.arrive (idLess clockOf) (history.stamps.map Prod.snd)).map
        (fun id => (id, clockOf id)) := filed.trans viewed.symm
  rw [delivered, MessageQueue.peekAll_ids, tagged, List.map_map]
  exact List.map_id _

/-- The history that enqueues in the given order and stamps in another, all
at time zero. -/
def ofOrder (posts : List Post) (order : List Uuid) (perm : order.Perm (posts.map Post.id)) :
    ReplicaHistory posts where
  queueId := 0
  createdOn := 0
  enqueues := posts.map (fun post => (0, post))
  stamps := order.map (fun id => (0, id))
  enqueued := by simp [Function.comp_def]
  stamped := by simpa [Function.comp_def] using perm

end ReplicaHistory

/-- All replicas deliver messages with distinct identifiers in the same
order, whatever the orders in which each enqueues and stamps them, exactly
when the comparator orders every two of the stamps and no three of them in a
cycle.

Proof: a replica delivers the identifiers as they arrive under the
comparator of their stamps, and every order of arrival is some replica's.
The comparator is asymmetric on clocks of one replica set, so the general
law of arrivals applies. -/
theorem replicas_agree_iff (replicas : ReplicaSet 3) (posts : List Post)
    (distinct : (posts.map Post.id).Nodup) (clockOf : Uuid → ReplicaClock replicas) :
    (∀ first second : ReplicaHistory posts,
      first.delivered (fun id => (clockOf id).clock) =
        second.delivered (fun id => (clockOf id).clock)) ↔
      (∀ x ∈ posts, ∀ y ∈ posts, x.id ≠ y.id →
        VectorClock.Less (clockOf x.id).clock (clockOf y.id).clock ∨
          VectorClock.Less (clockOf y.id).clock (clockOf x.id).clock) ∧
      (∀ x ∈ posts, ∀ y ∈ posts, ∀ z ∈ posts,
        ¬ (VectorClock.Less (clockOf x.id).clock (clockOf y.id).clock ∧
          VectorClock.Less (clockOf y.id).clock (clockOf z.id).clock ∧
          VectorClock.Less (clockOf z.id).clock (clockOf x.id).clock)) := by
  let less := ReplicaHistory.idLess (fun id => (clockOf id).clock)
  have asymmetric : Arrival.Asymmetric less (posts.map Post.id) := by
    intro x _ y _ below
    have lower : VectorClock.Less (clockOf x).clock (clockOf y).clock := of_decide_eq_true below
    exact decide_eq_false (ReplicaClock.less_asymmetric _ _ lower)
  have law := Arrival.agree_iff less (posts.map Post.id) distinct asymmetric
  have agree : (∀ first second : ReplicaHistory posts,
      first.delivered (fun id => (clockOf id).clock) =
        second.delivered (fun id => (clockOf id).clock)) ↔
      Arrival.Agree less (posts.map Post.id) := by
    constructor
    · intro delivered first second firstPerm secondPerm
      have same := delivered (.ofOrder posts first firstPerm) (.ofOrder posts second secondPerm)
      rw [ReplicaHistory.delivered_eq _ _ distinct,
        ReplicaHistory.delivered_eq _ _ distinct] at same
      simpa [ReplicaHistory.ofOrder, Function.comp_def] using same
    · intro arrivals first second
      rw [ReplicaHistory.delivered_eq _ _ distinct, ReplicaHistory.delivered_eq _ _ distinct]
      exact arrivals _ _ first.stamped second.stamped
  rw [agree, law]
  simp [Arrival.Orders, Arrival.Acyclic, less, ReplicaHistory.idLess]

/-- Two messages, one of each of two identifiers, with the same time to
live. -/
def twoPosts : List Post :=
  [⟨Uuid.constant 1, [], 5⟩, ⟨Uuid.constant 2, [], 5⟩]

/-- The first message stamped by nodes one and three, the second by nodes
two and three, each with a clock that does not know of the other. -/
def crossedStamps (id : Uuid) : ReplicaClock threeReplicas :=
  if id = Uuid.constant 1 then threeClock 1 0 1 else threeClock 0 1 1

/-- The first message stamped before the second, on the same nodes, so that
the stamps are ordered. -/
def orderedStamps (id : Uuid) : ReplicaClock threeReplicas :=
  if id = Uuid.constant 1 then threeClock 1 0 1 else threeClock 2 0 2

/-- With stamps that are ordered, all replicas agree. -/
theorem ordered_stamps_agree :
    (twoPosts.map Post.id).Nodup ∧
      ∀ first second : ReplicaHistory twoPosts,
        first.delivered (fun id => (orderedStamps id).clock) =
          second.delivered (fun id => (orderedStamps id).clock) :=
  ⟨by decide, (replicas_agree_iff threeReplicas twoPosts (by decide) orderedStamps).mpr
    ⟨by decide, by decide⟩⟩

/-- Stamps of concurrent publishes are delivered in the order of their
arrival, and so replicas may disagree. -/
theorem crossed_stamps_disagree :
    ¬ ∀ (replicas : ReplicaSet 3) (posts : List Post) (clockOf : Uuid → ReplicaClock replicas),
      (posts.map Post.id).Nodup →
      (∀ x ∈ posts, ∀ y ∈ posts, x.id ≠ y.id → clockOf x.id ≠ clockOf y.id) →
      ∀ first second : ReplicaHistory posts,
        first.delivered (fun id => (clockOf id).clock) =
          second.delivered (fun id => (clockOf id).clock) := by
  intro agree
  have different : ∀ x ∈ twoPosts, ∀ y ∈ twoPosts, x.id ≠ y.id →
      crossedStamps x.id ≠ crossedStamps y.id := by
    have clocks : ∀ x ∈ twoPosts, ∀ y ∈ twoPosts, x.id ≠ y.id →
        (crossedStamps x.id).clock ≠ (crossedStamps y.id).clock := by decide
    exact fun x xIn y yIn other same => clocks x xIn y yIn other (congrArg ReplicaClock.clock same)
  have same := agree threeReplicas twoPosts crossedStamps (by decide) different
    (.ofOrder twoPosts [Uuid.constant 1, Uuid.constant 2] (by decide))
    (.ofOrder twoPosts [Uuid.constant 2, Uuid.constant 1] (by decide))
  exact absurd same (by decide)

end Sopmq
