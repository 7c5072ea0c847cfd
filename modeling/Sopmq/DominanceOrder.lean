import Sopmq.QueueRuns

/-!
# Messages whose stamps form a chain

The comparator of the multimap counts components, and is no ordering in general.
Here the stamps of a queue name the same distinct nodes, in any positions, and of
every two stamps one dominates the other: it is at least as late at every node, by
generation and then by clock. On such stamps the comparator agrees with dominance,
and the queue delivers its messages in the order of dominance, whatever the order
in which they were stamped.
-/

namespace Sopmq

/-- The order of generation and clock, whatever the nodes. A later
generation counts more than any clock. -/
def NodeClock.AtMost (lhs rhs : NodeClock) : Prop :=
  lhs.generation < rhs.generation ∨ (lhs.generation = rhs.generation ∧ lhs.clock ≤ rhs.clock)

instance (lhs rhs : NodeClock) : Decidable (lhs.AtMost rhs) :=
  inferInstanceAs (Decidable (_ ∨ _))

/-- It is the order of the ranks. -/
theorem NodeClock.atMost_iff (lhs rhs : NodeClock) : lhs.AtMost rhs ↔ lhs.rank ≤ rhs.rank := by
  have low := lhs.clock.toNat_lt
  have low' := rhs.clock.toNat_lt
  rw [AtMost, UInt32.lt_iff_toNat_lt, UInt64.le_iff_toNat_le, ← UInt32.toNat_inj]
  unfold rank
  omega

namespace VectorClock

variable {RF : Nat}

/-- No node has two components, so that the clock is a map from nodes to
counters. -/
def DistinctNodes (clock : VectorClock RF) : Prop :=
  Function.Injective fun i => (clock.value i).nodeId

/-- The two clocks have components of the same nodes, in any positions. -/
def SameNodeSet (a b : VectorClock RF) : Prop :=
  (∀ i, ∃ j, (a.value i).nodeId = (b.value j).nodeId) ∧
    ∀ j, ∃ i, (b.value j).nodeId = (a.value i).nodeId

/-- The two clocks give every node the same generation and clock, in
whatever positions they have it. -/
def SameMap (a b : VectorClock RF) : Prop :=
  ∀ i j, (a.value i).nodeId = (b.value j).nodeId → a.value i = b.value j

/-- At every node the left clock is at most the right one, in whatever
positions they have the node. -/
def DominatedBy (a b : VectorClock RF) : Prop :=
  ∀ i j, (a.value i).nodeId = (b.value j).nodeId → (a.value i).AtMost (b.value j)

instance (clock : VectorClock RF) : Decidable clock.DistinctNodes :=
  inferInstanceAs (Decidable (∀ i j, (clock.value i).nodeId = (clock.value j).nodeId → i = j))

instance (a b : VectorClock RF) : Decidable (a.SameNodeSet b) :=
  inferInstanceAs (Decidable (_ ∧ _))

instance (a b : VectorClock RF) : Decidable (a.SameMap b) :=
  inferInstanceAs (Decidable (∀ _, _))

instance (a b : VectorClock RF) : Decidable (a.DominatedBy b) :=
  inferInstanceAs (Decidable (∀ _, _))

/-- A clock of distinct nodes is dominated by itself. -/
theorem DominatedBy.refl (a : VectorClock RF) (distinct : a.DistinctNodes) : a.DominatedBy a := by
  intro i j same
  rw [distinct same, NodeClock.atMost_iff]

/-- Dominance is transitive, as long as the clock in the middle has all the
nodes of the first. -/
theorem DominatedBy.trans {a b c : VectorClock RF} (sameSet : a.SameNodeSet b)
    (first : a.DominatedBy b) (second : b.DominatedBy c) : a.DominatedBy c := by
  intro i k same
  obtain ⟨j, middle⟩ := sameSet.1 i
  have lower := (NodeClock.atMost_iff _ _).mp (first i j middle)
  have upper := (NodeClock.atMost_iff _ _).mp (second j k (middle.symm.trans same))
  exact (NodeClock.atMost_iff _ _).mpr (lower.trans upper)

/-- A component of a dominated clock never votes against it: it is at most
the component of its node. -/
theorem vote_nonneg_of_dominated (a b : VectorClock RF) (dominated : a.DominatedBy b)
    (i : Fin RF) : 0 ≤ vote (List.ofFn b.value) (a.value i) := by
  unfold vote
  split
  · exact le_refl 0
  · next right found =>
    obtain ⟨j, rfl⟩ := List.mem_ofFn.mp (List.mem_of_find?_eq_some found)
    have same : (a.value i).nodeId = (b.value j).nodeId := by simpa using List.find?_some found
    rw [Majority.lead_nonneg_iff, ← NodeClock.atMost_iff]
    exact dominated i j same

/-- A component of a dominating clock never votes for it, for the same
reason. -/
theorem vote_nonpos_of_dominating (a b : VectorClock RF) (dominated : a.DominatedBy b)
    (j : Fin RF) : vote (List.ofFn a.value) (b.value j) ≤ 0 := by
  unfold vote
  split
  · exact le_refl 0
  · next right found =>
    obtain ⟨i, rfl⟩ := List.mem_ofFn.mp (List.mem_of_find?_eq_some found)
    have same : (b.value j).nodeId = (a.value i).nodeId := by simpa using List.find?_some found
    rw [Majority.lead_nonpos_iff, ← NodeClock.atMost_iff]
    exact dominated i j same.symm

/-- A dominated clock that differs at some node is less. The votes at that
node differ from zero, and no other vote cancels them. -/
theorem less_of_dominated (a b : VectorClock RF) (distinct : b.DistinctNodes)
    (dominated : a.DominatedBy b) (different : ¬ a.SameMap b) : Less a b := by
  obtain ⟨i, j, same, unequal⟩ : ∃ i j, (a.value i).nodeId = (b.value j).nodeId ∧
      a.value i ≠ b.value j := by
    simpa [SameMap] using different
  have smaller : (a.value i).rank < (b.value j).rank :=
    lt_of_le_of_ne ((NodeClock.atMost_iff _ _).mp (dominated i j same))
      fun equal => unequal (NodeClock.rank_injective _ _ same equal)
  have decisive : vote (List.ofFn b.value) (a.value i) = 1 := by
    rw [vote, find_component b distinct (a.value i) j same]
    exact (Majority.lead_eq_one_iff _ _).mpr smaller
  rw [less_iff_ballot, ballot]
  refine Finset.sum_pos' (fun k _ => vote_nonneg_of_dominated a b dominated k)
    ⟨i, Finset.mem_univ i, ?_⟩
  rw [decisive]
  exact one_pos

/-- A dominating clock is never less, even where the two are the same. -/
theorem not_less_of_dominated (a b : VectorClock RF) (dominated : a.DominatedBy b) :
    ¬ Less b a := by
  rw [less_iff_ballot, ballot, not_lt]
  exact Finset.sum_nonpos fun j _ => vote_nonpos_of_dominating a b dominated j

end VectorClock

/-- The stamps name the same distinct nodes, and any two of them differ at
some node and are comparable by dominance. -/
structure StampChain {RF : Nat} (stamps : List (Uuid × VectorClock RF)) : Prop where
  distinctNodes : ∀ x ∈ stamps, x.2.DistinctNodes
  sameNodes : ∀ x ∈ stamps, ∀ y ∈ stamps, x.2.SameNodeSet y.2
  different : ∀ x ∈ stamps, ∀ y ∈ stamps, x ≠ y → ¬ x.2.SameMap y.2
  comparable : ∀ x ∈ stamps, ∀ y ∈ stamps, x ≠ y →
    x.2.DominatedBy y.2 ∨ y.2.DominatedBy x.2

namespace StampChain

variable {RF : Nat}

/-- Some of the stamps of a chain form a chain. -/
theorem subset {stamps fewer : List (Uuid × VectorClock RF)} (chain : StampChain stamps)
    (included : fewer ⊆ stamps) : StampChain fewer where
  distinctNodes := fun x xIn => chain.distinctNodes x (included xIn)
  sameNodes := fun x xIn y yIn => chain.sameNodes x (included xIn) y (included yIn)
  different := fun x xIn y yIn => chain.different x (included xIn) y (included yIn)
  comparable := fun x xIn y yIn => chain.comparable x (included xIn) y (included yIn)

/-- On a chain the comparator follows dominance, so that what is said of
arrivals by a comparator applies. -/
theorem follows {stamps : List (Uuid × VectorClock RF)} (chain : StampChain stamps) :
    Arrival.Follows MessageQueue.stampLess (fun x y => x.2.DominatedBy y.2) stamps where
  total := by
    intro x xIn y yIn
    by_cases same : x = y
    · exact Or.inl (same ▸ VectorClock.DominatedBy.refl x.2 (chain.distinctNodes x xIn))
    · exact chain.comparable x xIn y yIn same
  transitive := fun x xIn y yIn _ _ => VectorClock.DominatedBy.trans (chain.sameNodes x xIn y yIn)
  smaller := by
    intro x xIn y yIn unequal dominated
    exact decide_eq_true (VectorClock.less_of_dominated x.2 y.2 (chain.distinctNodes y yIn)
      dominated (chain.different x xIn y yIn unequal))
  notGreater := fun x _ y _ dominated =>
    decide_eq_false (VectorClock.not_less_of_dominated x.2 y.2 dominated)

end StampChain

namespace QueueRun

variable {RF : Nat}

/-- The stamps filed are stamps of the run, and in the order of dominance if
they form a chain. Without an erased message they are all of them. -/
structure Sorted (run : QueueRun RF) : Prop where
  included : run.queue.filed ⊆ run.stamped
  ordered : (run.enqueued.map Prod.fst).Nodup → StampChain run.stamped →
    run.queue.filed.Pairwise (fun x y => MessageQueue.stampLess x y = true)
  complete : run.removed = [] → run.queue.filed.Perm run.stamped

/-- The identifiers of the filed stamps are those of the filed contents. -/
theorem filed_ids (queue : MessageQueue RF) :
    queue.filed.map Prod.fst = queue.filedContents.map Prod.fst := by
  simp [MessageQueue.filed, MessageQueue.filedContents, QueuedMessage.content, Function.comp_def]

/-- Stamping keeps the order: the stamp arrives among those filed, and is
one of the run. -/
theorem Sorted.stamp {run : QueueRun RF} (sorted : run.Sorted) (lawful : run.Lawful) (now : Time)
    (id : Uuid) (vclock : VectorClock RF) : (run.perform now (.stamp id vclock)).Sorted := by
  cases found : run.queue.unstampedMessages.find id with
  | none =>
    rw [run.perform_stamp_absent now id vclock found]
    exact sorted
  | some message =>
    have named := lawful.wellFormed.named id message found
    have filed : (run.perform now (.stamp id vclock)).queue.filed =
        Arrival.place MessageQueue.stampLess (id, vclock) run.queue.filed :=
      (run.queue.stamp_found now id vclock message found named).1
    have stamped := run.perform_stamp_stamped now id vclock message found
    have placed := Arrival.place_perm MessageQueue.stampLess (id, vclock) run.queue.filed
    refine ⟨?_, ?_, ?_⟩
    · rw [filed, stamped]
      intro x member
      rcases List.mem_cons.mp (placed.mem_iff.mp member) with rfl | earlier
      · simp
      · exact List.mem_append_left _ (sorted.included earlier)
    · rw [filed, stamped]
      intro distinct chain
      have earlier : run.stamped ⊆ run.stamped ++ [(id, vclock)] := List.subset_append_left _ _
      have follows := chain.follows
      refine Arrival.place_ordered MessageQueue.stampLess _ follows.asymmetric follows.orders
        follows.acyclic (id, vclock) run.queue.filed (by simp)
        (fun x member => earlier (sorted.included member)) ?_
        (sorted.ordered distinct (chain.subset earlier))
      intro member
      have unstamped : id ∈ run.queue.unstampedContents.map Prod.fst := by
        rw [run.queue.unstampedContents_ids lawful.wellFormed.named, ← KeyedMap.find_isSome_iff,
          found, Option.isSome_some]
      have alsoFiled : id ∈ run.queue.filedContents.map Prod.fst := by
        rw [← filed_ids]
        exact List.mem_map_of_mem member
      exact (List.nodup_append.mp (lawful.apart distinct)).2.2 id unstamped id
        (List.mem_append_left _ alsoFiled) rfl
    · rw [filed, stamped]
      intro kept
      exact placed.trans (((sorted.complete kept).cons _).trans
        (List.perm_append_singleton _ _).symm)

/-- Expiry keeps the order, as it takes a front part of the filed
messages. -/
theorem Sorted.expireMessages {run : QueueRun RF} (sorted : run.Sorted) (now : Time) :
    (run.perform now .expireMessages).Sorted := by
  have remaining : (run.queue.expireMessages now).filed =
      (run.queue.queuedMessages.dropWhile
        (fun entry => entry.message.expired run.queue.ttl now)).map
          (fun entry => (entry.message.id, entry.key)) := by
    rw [MessageQueue.filed, MessageQueue.expireMessages, MessageQueue.expireQueued_fst]
  have fewer : (run.queue.expireMessages now).filed.Sublist run.queue.filed := by
    rw [remaining]
    exact (List.dropWhile_sublist _).map _
  refine ⟨fun x member => sorted.included (fewer.mem member),
    fun distinct chain => (sorted.ordered distinct chain).sublist fewer, ?_⟩
  intro kept
  obtain ⟨before, now'⟩ := List.append_eq_nil_iff.mp kept
  have none : run.queue.expiredQueued now = [] :=
    List.map_eq_nil_iff.mp (List.append_eq_nil_iff.mp now').2
  have all := List.takeWhile_append_dropWhile
    (p := fun entry : QueueEntry RF => entry.message.expired run.queue.ttl now)
    (l := run.queue.queuedMessages)
  rw [MessageQueue.expiredQueued] at none
  rw [none, List.nil_append] at all
  have unchanged : (run.queue.expireMessages now).filed = run.queue.filed := by
    rw [remaining, all, MessageQueue.filed]
  simp only [perform, unchanged]
  exact sorted.complete before

/-- Every call keeps the order, since none but a stamp files anything. -/
theorem Sorted.perform {run : QueueRun RF} (sorted : run.Sorted) (lawful : run.Lawful)
    (now : Time) (call : QueueCall RF) : (run.perform now call).Sorted := by
  cases call with
  | enqueue id data ttlSecs =>
    refine ⟨sorted.included, fun distinct => sorted.ordered ?_, sorted.complete⟩
    exact distinct.sublist ((List.sublist_append_left _ _).map _)
  | stamp id vclock => exact sorted.stamp lawful now id vclock
  | expireMessages => exact sorted.expireMessages now

/-- The stamps filed are ordered in this way in every state of a run. -/
theorem step_sorted (createdOn : Time) (queueId : UInt128) (run : QueueRun RF)
    (reached : Machine.Reaches step (start createdOn queueId) run) : run.Sorted := by
  refine (reached.invariant (fun run => run.Lawful ∧ run.Sorted) ?_
    ⟨start_lawful createdOn queueId, ?_⟩).2
  · rintro before ⟨now, call⟩ after ⟨lawful, sorted⟩ moved
    cases moved
    exact ⟨lawful.perform now call, sorted.perform lawful now call⟩
  · exact ⟨List.Subset.refl _, fun _ _ => List.Pairwise.nil, fun _ => List.Perm.refl _⟩

/-- An enqueued message that was neither stamped nor erased is still among
the unstamped ones.

Proof: what was enqueued is held or erased, and what is filed was
stamped. -/
theorem Sorted.find_unstamped {run : QueueRun RF} (sorted : run.Sorted) (lawful : run.Lawful)
    (conserved : (run.queue.contents ++ run.removedContents).Perm run.enqueued) (id : Uuid)
    (enqueued : id ∈ run.enqueued.map Prod.fst) (unstamped : id ∉ run.stamped.map Prod.fst)
    (kept : ¬ run.Removed id) : ∃ message, run.queue.unstampedMessages.find id = some message := by
  have placed := (conserved.map Prod.fst).mem_iff.mpr enqueued
  simp only [MessageQueue.contents, List.map_append, List.mem_append] at placed
  rcases placed with (waiting | filed) | removed
  · rw [run.queue.unstampedContents_ids lawful.wellFormed.named,
      ← KeyedMap.find_isSome_iff] at waiting
    exact Option.isSome_iff_exists.mp waiting
  · rw [← filed_ids] at filed
    exact absurd (List.map_subset _ sorted.included filed) unstamped
  · exact absurd ((count_removed run id).mp (List.count_pos_iff.mpr removed)) kept

/-- In every state of a run in which no identifier is enqueued twice and the
accepted stamps form a chain, `peekAll` returns stamped messages in the
order of dominance, with the payloads they were enqueued with, and it
returns all of them if none has expired. The calls may come in any order,
and the stamp of an identifier that was enqueued and neither stamped nor
erased is always accepted.

Proof: on a chain the comparator follows dominance, and placing an element
by a comparator that follows a chain keeps an ordered list ordered. -/
theorem peekAll_by_dominance (createdOn : Time) (queueId : UInt128) (run : QueueRun RF)
    (reached : Machine.Reaches step (start createdOn queueId) run)
    (distinct : (run.enqueued.map Prod.fst).Nodup) (chain : StampChain run.stamped) :
    (∃ order : List (Uuid × VectorClock RF),
      order ⊆ run.stamped ∧ (run.removed = [] → order.Perm run.stamped) ∧
      order.Pairwise (fun x y => x.2.DominatedBy y.2) ∧
      run.queue.peekAll.map QueuedMessage.id = order.map Prod.fst ∧
      ∀ message ∈ run.queue.peekAll, (message.id, message.data) ∈ run.enqueued) ∧
    ∀ now id vclock, id ∈ run.enqueued.map Prod.fst → id ∉ run.stamped.map Prod.fst →
      ¬ run.Removed id →
      (run.queue.stamp now id vclock).2 = true ∧
        (run.perform now (.stamp id vclock)).stamped = run.stamped ++ [(id, vclock)] := by
  have sorted := step_sorted createdOn queueId run reached
  have conserved := conserved_of_distinct createdOn queueId run reached distinct
  refine ⟨⟨run.queue.filed, sorted.included, sorted.complete, ?_, run.queue.peekAll_ids, ?_⟩, ?_⟩
  · refine (sorted.ordered distinct chain).imp_of_mem fun {x y} xIn yIn smaller => ?_
    exact chain.follows.below_of_less (sorted.included xIn) (sorted.included yIn) smaller
  · intro message member
    obtain ⟨entry, filed, rfl⟩ := List.mem_map.mp member
    refine conserved.mem_iff.mp (List.mem_append_left _ (List.mem_append_right _ ?_))
    exact List.mem_map_of_mem filed
  · intro now id vclock enqueued unstamped kept
    obtain ⟨message, found⟩ := sorted.find_unstamped
      (step_lawful createdOn queueId run reached)
      conserved id enqueued unstamped kept
    exact ⟨by simp [MessageQueue.stamp, found],
      run.perform_stamp_stamped now id vclock message found⟩

/-- A stamp of the nodes 1 and 2, in this order. -/
def earlierStamp : VectorClock 2 where
  value := ![⟨1, 4, 1⟩, ⟨2, 3, 9⟩]

/-- A stamp of the same nodes in other positions, later at node 2 by its
generation. -/
def laterStamp : VectorClock 2 where
  value := ![⟨2, 4, 0⟩, ⟨1, 4, 1⟩]

/-- The message with the later stamp is stamped first, and a third one is
enqueued and not stamped. -/
def chainCalls : List (Time × QueueCall 2) :=
  [(0, .enqueue (Uuid.constant 1) [7] 5), (1, .enqueue (Uuid.constant 2) [8] 5),
    (2, .stamp (Uuid.constant 2) laterStamp), (3, .stamp (Uuid.constant 1) earlierStamp),
    (3, .enqueue (Uuid.constant 3) [9] 5)]

/-- The run of these calls on a new queue, with two messages filed and one
unstamped. -/
def chainRun : QueueRun 2 :=
  chainCalls.foldl (fun run event => run.perform event.1 event.2) (start 0 0)

/-- The two stamps form a chain, though they have their nodes in different
positions. -/
theorem chainRun_stamps : StampChain chainRun.stamped where
  distinctNodes := by decide
  sameNodes := by decide
  different := by decide
  comparable := by decide

/-- The two messages come back in the order of their stamps, although the
later one was stamped first; a third message would be given its stamp. -/
theorem peekAll_by_dominance_chain :
    (∃ order : List (Uuid × VectorClock 2),
      order ⊆ chainRun.stamped ∧ (chainRun.removed = [] → order.Perm chainRun.stamped) ∧
      order.Pairwise (fun x y => x.2.DominatedBy y.2) ∧
      chainRun.queue.peekAll.map QueuedMessage.id = order.map Prod.fst ∧
      ∀ message ∈ chainRun.queue.peekAll, (message.id, message.data) ∈ chainRun.enqueued) ∧
    chainRun.queue.peekAll.map QueuedMessage.id = [Uuid.constant 1, Uuid.constant 2] ∧
    (chainRun.perform 4 (.stamp (Uuid.constant 3) earlierStamp)).stamped =
      chainRun.stamped ++ [(Uuid.constant 3, earlierStamp)] := by
  obtain ⟨ordered, accepted⟩ := peekAll_by_dominance 0 0 chainRun
    (Machine.reaches_of_run step (start 0 0) chainRun chainCalls rfl) (by decide) chainRun_stamps
  refine ⟨ordered, by decide, (accepted 4 (Uuid.constant 3) earlierStamp (by decide) (by decide)
    ?_).2⟩
  rintro ⟨removal, member, -⟩
  cases member

end QueueRun

end Sopmq
