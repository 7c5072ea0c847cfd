import Sopmq.ReplicaAgreement
import Sopmq.SequentialPublish

/-!
# Delivery of successive publishes

Publishes to a queue are handled one after the other, each by two of the three replicas, with the
replicas learning of each other's clocks in between. Their messages reach the queues of the
replicas in any order, and so do their stamps. Every replica then delivers them in the order in
which they were published. The clocks are made by the replies of the replicas, joined, and compared
by the queues; each of the three parts is needed for the order to come out.
-/

namespace Sopmq

namespace Session

variable {group : ReplicaGroup}

/-- Every replica delivers the messages of successive publishes in the order
in which they were published, whatever the order in which it has enqueued
and stamped them.

Proof: a stamp is greater than the ones before it, by the comparison that
the queue files by, and no stamp is both less and greater than another. So
the messages arrive at the order of their publishes from any other. -/
theorem sequential_publishes_delivered (murmurHash3 : String → UInt128)
    (storage : Fin 3 → VectorClock 3) (cluster : Cluster group) (session : Session group)
    (reached : Machine.Reaches (step murmurHash3 storage) (start cluster) session)
    (posts : List Post) (distinct : (posts.map Post.id).Nodup) (clockOf : Uuid → VectorClock 3)
    (stamped : session.stamps = posts.map fun post => .ok (clockOf post.id))
    (history : ReplicaHistory posts) : history.delivered clockOf = posts.map Post.id := by
  have ordered := ordered_of_reached reached
  have joined : ∀ id ∈ posts.map Post.id,
      ∃ clock : ReplicaClock group.replicaSet, clockOf id = clock.clock := by
    intro id member
    obtain ⟨post, posted, rfl⟩ := List.mem_map.mp member
    obtain ⟨clock, same, -⟩ := ordered.stamped (.ok (clockOf post.id))
      (stamped ▸ List.mem_map.mpr ⟨post, posted, rfl⟩)
    exact ⟨clock, Except.ok.inj same⟩
  have increasing : (posts.map Post.id).Pairwise fun x y =>
      ReplicaHistory.idLess clockOf x y = true := by
    have pairs := ordered.increasing
    rw [stamped, List.pairwise_map] at pairs
    rw [List.pairwise_map]
    refine pairs.imp_of_mem ?_
    intro x y xIn yIn less
    obtain ⟨a, sameA⟩ := joined x.id (List.mem_map.mpr ⟨x, xIn, rfl⟩)
    obtain ⟨b, sameB⟩ := joined y.id (List.mem_map.mpr ⟨y, yIn, rfl⟩)
    rw [ReplicaHistory.idLess, decide_eq_true_iff, sameA, sameB]
    exact less a b (congrArg Except.ok sameA) (congrArg Except.ok sameB)
  have asymmetric : Arrival.Asymmetric (ReplicaHistory.idLess clockOf) (posts.map Post.id) := by
    intro x xIn y yIn below
    obtain ⟨a, sameA⟩ := joined x xIn
    obtain ⟨b, sameB⟩ := joined y yIn
    rw [ReplicaHistory.idLess, decide_eq_true_iff, sameA, sameB] at below
    rw [ReplicaHistory.idLess, decide_eq_false_iff_not, sameA, sameB]
    exact ReplicaClock.less_asymmetric a b below
  rw [history.delivered_eq clockOf distinct]
  exact Arrival.arrive_eq_of_increasing _ _ _ distinct increasing asymmetric history.stamped

/-- The stamps of two publishes, the first handled by the first two
replicas, the second by the last two. -/
def crossingStamps (id : Uuid) : VectorClock 3 :=
  if id = Uuid.constant 1 then (threeClock 1 1 0).clock else (threeClock 0 2 1).clock

/-- A replica that stamps the second message first delivers the first one
first. The two stamps are those of different quorums. -/
theorem sequential_publishes_delivered_crossing :
    (ReplicaHistory.ofOrder twoPosts [Uuid.constant 2, Uuid.constant 1] (by decide)).delivered
      crossingStamps = [Uuid.constant 1, Uuid.constant 2] := by
  obtain ⟨session, a, b, ran, stamps, first, second⟩ :
      ∃ (session : Session freshGroup) (a b : VectorClock 3),
        Machine.run (step (fun _ => 15) fun _ => VectorClock.zero) (start freshCluster)
          [.begin 0 0 .sample, .finish 1 0, .begin 1 0 .sample, .finish 2 0] =
            some session ∧
        session.stamps = [.ok a, .ok b] ∧
        a = crossingStamps (Uuid.constant 1) ∧ b = crossingStamps (Uuid.constant 2) :=
    ⟨_, _, _, rfl, rfl, by decide, by decide⟩
  have stamped : session.stamps = twoPosts.map fun post => .ok (crossingStamps post.id) := by
    rw [stamps, first, second]
    rfl
  exact sequential_publishes_delivered (fun _ => 15) _ freshCluster session
    (Machine.reaches_of_run _ _ _ _ ran) twoPosts (by decide) crossingStamps stamped _

end Session

end Sopmq
