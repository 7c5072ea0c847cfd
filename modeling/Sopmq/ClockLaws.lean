import Mathlib.Algebra.Order.BigOperators.Group.Finset
import Mathlib.Data.Finset.Prod
import Sopmq.DominanceOrder

/-!
# Laws of comparison and join

`operator <` on vector clocks meets each component of the left clock with the first
component of the same node in the right one. In clocks without repeated nodes there is
at most one, and the vote of the comparison is a sum over the set of shared components:
the pairs of components, one from each clock, of one node. Positions no longer occur in
it. So the comparison turns around when the clocks are exchanged, does not depend on the
order of the components, and does not see what the clocks do not share.

`vector_clock::max` is defined for clocks with the same nodes in the same positions. There
it is the least upper bound in every component, for the order of generation and clock.
-/

namespace Sopmq

namespace VectorClock

variable {RF : Nat}

/-- The components of a clock, without their positions. In clocks without
repeated nodes this loses nothing but the order. -/
def components (clock : VectorClock RF) : Finset NodeClock := Finset.univ.image clock.value

/-- The pairs of components that the two clocks have of one node. These are
the pairs that the comparison looks at. -/
def shared (a b : VectorClock RF) : Finset (NodeClock × NodeClock) :=
  (a.components ×ˢ b.components).filter fun pair => pair.1.nodeId = pair.2.nodeId

/-- The clock with its components in other positions, as nodes list their
replicas after a change of the ring. -/
def permute (clock : VectorClock RF) (positions : Equiv.Perm (Fin RF)) : VectorClock RF where
  value i := clock.value (positions i)

/-- A pair is shared when each clock has its part and both parts are of one
node. -/
theorem mem_shared (a b : VectorClock RF) (x y : NodeClock) :
    (x, y) ∈ shared a b ↔ x ∈ a.components ∧ y ∈ b.components ∧ x.nodeId = y.nodeId := by
  simp [shared, and_assoc]

/-- Other positions leave the same components. -/
theorem components_permute (clock : VectorClock RF) (positions : Equiv.Perm (Fin RF)) :
    (clock.permute positions).components = clock.components := by
  ext component
  simp only [components, permute, Finset.mem_image, Finset.mem_univ, true_and]
  exact positions.exists_congr_left.trans (by simp)

/-- Nor does a node occur twice when it did not before. -/
theorem DistinctNodes.permute {clock : VectorClock RF} (distinct : clock.DistinctNodes)
    (positions : Equiv.Perm (Fin RF)) : (clock.permute positions).DistinctNodes :=
  distinct.comp positions.injective

/-- In a clock without repeated nodes no component is repeated. -/
theorem DistinctNodes.value_injective {clock : VectorClock RF} (distinct : clock.DistinctNodes) :
    Function.Injective clock.value := by
  intro i j same
  exact distinct (congrArg NodeClock.nodeId same)

/-- A sum over the components of a clock without repeated nodes is the sum
over its positions. -/
theorem sum_components (clock : VectorClock RF) (distinct : clock.DistinctNodes)
    (f : NodeClock → Int) : ∑ component ∈ clock.components, f component =
      ∑ i, f (clock.value i) :=
  Finset.sum_image fun _ _ _ _ same => distinct.value_injective same

/-- The vote of a component against a clock without repeated nodes. At most
one term of the sum is not zero, that of the component which the loop
finds. -/
theorem vote_eq_sum (clock : VectorClock RF) (distinct : clock.DistinctNodes)
    (left : NodeClock) :
    vote (List.ofFn clock.value) left =
      ∑ right ∈ clock.components,
        if left.nodeId = right.nodeId then Majority.lead left.rank right.rank else 0 := by
  rw [sum_components clock distinct]
  by_cases met : ∃ j, left.nodeId = (clock.value j).nodeId
  · obtain ⟨j, same⟩ := met
    rw [vote, find_component clock distinct left j same, Finset.sum_eq_single j]
    · rw [if_pos same]
    · intro k _ other
      rw [if_neg fun sameToo => other (distinct (sameToo.symm.trans same))]
    · exact fun absent => absurd (Finset.mem_univ j) absent
  · have missed : (List.ofFn clock.value).find? (fun right => decide (left.nodeId = right.nodeId)) =
        none := by
      rw [List.find?_eq_none]
      intro right member
      obtain ⟨j, rfl⟩ := List.mem_ofFn.mp member
      simpa using fun same => met ⟨j, same⟩
    rw [vote, missed, Finset.sum_eq_zero]
    intro j _
    rw [if_neg fun same => met ⟨j, same⟩]

/-- The vote of the comparison is a sum over the shared components. Neither
the order of the loops nor the positions are left in it. -/
theorem ballot_eq_sum (a b : VectorClock RF) (distinct : a.DistinctNodes)
    (distinct' : b.DistinctNodes) :
    ballot a b = ∑ pair ∈ shared a b, Majority.lead pair.1.rank pair.2.rank := by
  calc ballot a b
      = ∑ i, ∑ right ∈ b.components,
          if (a.value i).nodeId = right.nodeId then
            Majority.lead (a.value i).rank right.rank else 0 :=
        Finset.sum_congr rfl fun i _ => vote_eq_sum b distinct' (a.value i)
    _ = ∑ left ∈ a.components, ∑ right ∈ b.components,
          if left.nodeId = right.nodeId then Majority.lead left.rank right.rank else 0 := by
        rw [sum_components a distinct]
    _ = ∑ pair ∈ shared a b, Majority.lead pair.1.rank pair.2.rank := by
        rw [shared, Finset.sum_filter, Finset.sum_product]

/-- Exchanging the clocks turns every vote around, and with the votes their
sum. -/
theorem ballot_swap (a b : VectorClock RF) (distinct : a.DistinctNodes)
    (distinct' : b.DistinctNodes) : ballot b a = -ballot a b := by
  rw [ballot_eq_sum b a distinct' distinct, ballot_eq_sum a b distinct distinct',
    ← Finset.sum_neg_distrib]
  refine Finset.sum_nbij' Prod.swap Prod.swap ?_ ?_ (fun _ _ => rfl) (fun _ _ => rfl) ?_
  · rintro ⟨x, y⟩ member
    obtain ⟨xIn, yIn, same⟩ := (mem_shared b a x y).mp member
    exact (mem_shared a b y x).mpr ⟨yIn, xIn, same.symm⟩
  · rintro ⟨x, y⟩ member
    obtain ⟨xIn, yIn, same⟩ := (mem_shared a b x y).mp member
    exact (mem_shared b a y x).mpr ⟨yIn, xIn, same.symm⟩
  · rintro ⟨x, y⟩ _
    exact Majority.lead_swap y.rank x.rank

/-- Clocks that share the same components compare alike, whatever else they
carry and however many components they have. -/
theorem less_of_shared {RF' : Nat} (a b : VectorClock RF) (a' b' : VectorClock RF')
    (distinct : a.DistinctNodes) (distinct' : b.DistinctNodes) (other : a'.DistinctNodes)
    (other' : b'.DistinctNodes) (same : shared a' b' = shared a b) : less a' b' = less a b := by
  rw [less_eq, less_eq, ballot_eq_sum a' b' other other',
    ballot_eq_sum a b distinct distinct', same]

/-- Comparison of clocks without repeated nodes. It raises nothing, is
irreflexive and asymmetric, does not depend on the positions of the
components, is determined by the components of shared nodes, and follows
dominance on these. -/
theorem comparison_laws (a b : VectorClock RF) (distinct : a.DistinctNodes)
    (distinct' : b.DistinctNodes) :
    (∃ result, less a b = .ok result) ∧ ¬ Less a a ∧ (Less a b → ¬ Less b a) ∧
      (∀ positions positions' : Equiv.Perm (Fin RF),
        less (a.permute positions) (b.permute positions') = less a b) ∧
      (∀ (RF' : Nat) (a' b' : VectorClock RF'), a'.DistinctNodes → b'.DistinctNodes →
        shared a' b' = shared a b → less a' b' = less a b) ∧
      (a.DominatedBy b →
        (∃ i j, (a.value i).nodeId = (b.value j).nodeId ∧
          ¬ (b.value j).AtMost (a.value i)) →
        less a b = .ok true ∧ less b a = .ok false) := by
  refine ⟨⟨_, less_eq a b⟩, ?_, ?_, ?_, ?_, ?_⟩
  · have turned := ballot_swap a a distinct distinct
    rw [less_iff_ballot]
    omega
  · have turned := ballot_swap a b distinct distinct'
    rw [less_iff_ballot, less_iff_ballot]
    omega
  · intro positions positions'
    apply less_of_shared a b _ _ distinct distinct' (distinct.permute positions)
      (distinct'.permute positions')
    rw [shared, components_permute, components_permute, shared]
  · intro RF' a' b' other other' same
    exact less_of_shared a b a' b' distinct distinct' other other' same
  · rintro dominated ⟨i, j, same, strict⟩
    have different : ¬ a.SameMap b := by
      intro equal
      apply strict
      rw [equal i j same, NodeClock.atMost_iff]
    have converse := not_less_of_dominated a b dominated
    rw [Less, less_eq] at converse
    refine ⟨less_of_dominated a b distinct' dominated different, ?_⟩
    rw [less_eq]
    simpa using converse

/-- The clocks of a replica set that has changed: of nodes 1, 2, 3 and of
nodes 3, 4, 1. -/
def beforeJoin : VectorClock 3 := ⟨![⟨1, 1, 5⟩, ⟨2, 1, 9⟩, ⟨3, 1, 2⟩]⟩

/-- The second of these clocks: node 2 has left the set and node 4 has
joined it. -/
def afterJoin : VectorClock 3 := ⟨![⟨3, 1, 3⟩, ⟨4, 1, 1⟩, ⟨1, 1, 5⟩]⟩

/-- Nodes 1 and 3 are shared, and the second clock is later at node 3. -/
theorem comparison_laws_join :
    beforeJoin.DistinctNodes ∧ afterJoin.DistinctNodes ∧
      less beforeJoin afterJoin = .ok true ∧ less afterJoin beforeJoin = .ok false := by
  refine ⟨by decide, by decide, ?_⟩
  exact (comparison_laws beforeJoin afterJoin (by decide) (by decide)).2.2.2.2.2 (by decide)
    ⟨2, 0, by decide, by decide⟩

/-- Having the same nodes in the same positions is symmetric. -/
theorem SameNodes.symm {a b : VectorClock RF} (same : SameNodes a b) : SameNodes b a :=
  fun i => (same i).symm

/-- It is transitive as well, so that a third clock can be joined to a
join. -/
theorem SameNodes.trans {a b c : VectorClock RF} (first : SameNodes a b)
    (second : SameNodes b c) : SameNodes a c :=
  fun i => (first i).trans (second i)

/-- The join has the nodes of its parts, in their positions. -/
theorem sameNodes_join {a b : VectorClock RF} (same : SameNodes a b) :
    SameNodes (join a b) a := by
  intro i
  simp only [join]
  split
  · exact (same i).symm
  · rfl

/-- In every component the join has the greater of the two ranks. -/
theorem rank_join (a b : VectorClock RF) (i : Fin RF) :
    ((join a b).value i).rank = Nat.max (a.value i).rank (b.value i).rank := by
  simp only [join]
  split
  · next smaller => exact (Nat.max_eq_right smaller.le).symm
  · next larger => exact (Nat.max_eq_left (not_lt.mp larger)).symm

/-- The join raises exactly where some position has different nodes. -/
theorem max_error_iff (a b : VectorClock RF) :
    (∃ error, max a b = .error error) ↔ ¬ SameNodes a b := by
  by_cases same : SameNodes a b
  · simp [max_of_same_nodes a b same, same]
  · simp [max_of_other_nodes a b same, same]

/-- The join of two clocks does not depend on their order, and neither does
whether it raises. -/
theorem max_comm (a b : VectorClock RF) : max b a = max a b := by
  by_cases same : SameNodes a b
  · rw [max_of_same_nodes a b same, max_of_same_nodes b a same.symm]
    congr 1
    refine eq_of_ranks ((sameNodes_join same.symm).trans (same.symm.trans
      (sameNodes_join same).symm)) fun i => ?_
    rw [rank_join, rank_join]
    exact Nat.max_comm _ _
  · rw [max_of_other_nodes a b same, max_of_other_nodes b a fun turned => same turned.symm]

/-- The join of a clock with itself is the clock. -/
theorem max_self (a : VectorClock RF) : max a a = .ok a := by
  have same : SameNodes a a := fun _ => rfl
  rw [max_of_same_nodes a a same]
  congr 1
  refine eq_of_ranks (sameNodes_join same) fun i => ?_
  rw [rank_join]
  exact Nat.max_self _

/-- Three clocks have the same join in either bracketing, and none in either
if their nodes differ. -/
theorem max_assoc (a b c : VectorClock RF) :
    ((max a b).bind fun m => max m c) = (max b c).bind fun m => max a m := by
  by_cases first : SameNodes a b
  · rw [max_of_same_nodes a b first]
    by_cases second : SameNodes b c
    · rw [max_of_same_nodes b c second]
      have left : SameNodes (join a b) c := (sameNodes_join first).trans (first.trans second)
      have right : SameNodes a (join b c) := first.trans (sameNodes_join second).symm
      simp only [Except.bind, max_of_same_nodes _ _ left, max_of_same_nodes _ _ right]
      congr 1
      refine eq_of_ranks ((sameNodes_join left).trans ((sameNodes_join first).trans
        (sameNodes_join right).symm)) fun i => ?_
      rw [rank_join, rank_join, rank_join, rank_join]
      exact Nat.max_assoc _ _ _
    · have left : ¬ SameNodes (join a b) c := fun same =>
        second (first.symm.trans ((sameNodes_join first).symm.trans same))
      rw [max_of_other_nodes b c second]
      exact max_of_other_nodes _ _ left
  · rw [max_of_other_nodes a b first]
    by_cases second : SameNodes b c
    · have right : ¬ SameNodes a (join b c) := fun same =>
        first (same.trans (sameNodes_join second))
      rw [max_of_same_nodes b c second]
      exact (max_of_other_nodes _ _ right).symm
    · rw [max_of_other_nodes b c second]
      rfl

/-- A clock without repeated nodes is dominated by what it is joined to:
each of its components is met by one of the same node that is not less. -/
theorem dominatedBy_join {a b : VectorClock RF} (same : SameNodes a b)
    (distinct : a.DistinctNodes) : a.DominatedBy (join a b) := by
  intro i j met
  obtain rfl : i = j := distinct (met.trans (sameNodes_join same j))
  rw [NodeClock.atMost_iff, rank_join]
  exact Nat.le_max_left _ _

/-- `vector_clock::max` raises exactly on clocks with different nodes in
some position. Otherwise it keeps the nodes and is the least upper bound in
every component. It is commutative, associative and idempotent, and the
result never comes before its parts: it is the left clock or greater, if no
node is repeated. -/
theorem max_is_join (a b : VectorClock RF) :
    ((∃ error, max a b = .error error) ↔ ∃ i, (a.value i).nodeId ≠ (b.value i).nodeId) ∧
      (SameNodes a b → ∃ m, max a b = .ok m ∧ SameNodes m a ∧
        (∀ i, (a.value i).AtMost (m.value i) ∧ (b.value i).AtMost (m.value i) ∧
          ∀ bound : NodeClock, (a.value i).AtMost bound → (b.value i).AtMost bound →
            (m.value i).AtMost bound) ∧
        (a.DistinctNodes → (m = a ∨ Less a m) ∧ ¬ Less m a)) ∧
      max b a = max a b ∧ max a a = .ok a ∧
      ∀ c, ((max a b).bind fun m => max m c) = (max b c).bind fun m => max a m := by
  refine ⟨?_, ?_, max_comm a b, max_self a, max_assoc a b⟩
  · rw [max_error_iff]
    simp [SameNodes]
  · intro same
    refine ⟨join a b, max_of_same_nodes a b same, sameNodes_join same, ?_, ?_⟩
    · intro i
      simp only [NodeClock.atMost_iff, rank_join]
      exact ⟨Nat.le_max_left _ _, Nat.le_max_right _ _, fun _ => max_le⟩
    · intro distinct
      have dominated := dominatedBy_join same distinct
      have distinct' : (join a b).DistinctNodes := by
        intro i j repeated
        apply distinct
        simpa only [sameNodes_join same i, sameNodes_join same j] using repeated
      refine ⟨?_, not_less_of_dominated a (join a b) dominated⟩
      by_cases unchanged : a.SameMap (join a b)
      · exact Or.inl (VectorClock.ext fun i => (unchanged i i (sameNodes_join same i).symm).symm)
      · exact Or.inr (less_of_dominated a (join a b) distinct' dominated unchanged)

end VectorClock

end Sopmq
