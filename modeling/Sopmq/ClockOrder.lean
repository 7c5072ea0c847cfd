import Sopmq.VectorClock

/-!
# The comparator of the message queue on clocks of one replica set

Clocks of one replica set carry the same pairwise distinct nodes in the same
positions. On such clocks `operator <` is the majority comparison of the ranks.

The queue files messages in a `std::multimap` under this comparator, which the
container requires to be a strict weak ordering. The comparator is irreflexive
and asymmetric, but neither it nor its ties are transitive. For three replicas
the failing triples are determined exactly, by the ranks in the three positions.
`operator >` is defined as if the order were total, and takes ties for itself.
-/

namespace Sopmq

/-- The nodes that replicate a queue, in the order every one of them lists
them. No node is its own replica, so the identifiers are distinct. -/
structure ReplicaSet (RF : Nat) where
  ids : Fin RF → UInt32
  distinct : Function.Injective ids

/-- A vector clock that carries the nodes of a replica set in their
positions. Clocks that are made by the joins of replies have this form. -/
structure ReplicaClock {RF : Nat} (replicas : ReplicaSet RF) where
  clock : VectorClock RF
  carries : ∀ i, (clock.value i).nodeId = replicas.ids i

namespace VectorClock

variable {RF : Nat}

/-- Generation and clock of every component, as one number each, so that
components of one node compare as numbers. -/
def ranks (clock : VectorClock RF) (i : Fin RF) : Nat := (clock.value i).rank

/-- The comparison holds: `operator >` returns true, without an
exception. -/
def Greater (lhs rhs : VectorClock RF) : Prop := greater lhs rhs = .ok true

instance (lhs rhs : VectorClock RF) : Decidable (Greater lhs rhs) :=
  inferInstanceAs (Decidable (greater lhs rhs = .ok true))

/-- `operator >` holds where `operator <` does not and the clocks differ. It
is written as if one of the three had to be the case. -/
theorem greater_iff (lhs rhs : VectorClock RF) : Greater lhs rhs ↔ ¬ Less lhs rhs ∧ lhs ≠ rhs := by
  simp [Greater, greater, Less, less_eq, bind, Except.bind, pure, Except.pure]

/-- Neither clock is less than the other. In a multimap such keys count as
equivalent. -/
def Incomparable (a b : VectorClock RF) : Prop := ¬ Less a b ∧ ¬ Less b a

/-- The requirements of a strict weak ordering at one triple of clocks, as
`std::multimap` makes them of its comparator. -/
def StrictWeakAt (a b c : VectorClock RF) : Prop :=
  ¬ Less a a ∧
  (Less a b → ¬ Less b a) ∧
  (Less a b → Less b c → Less a c) ∧
  (Incomparable a b → Incomparable b c → Incomparable a c)

end VectorClock

namespace ReplicaClock

open VectorClock Majority

variable {RF : Nat} {replicas : ReplicaSet RF}

/-- A clock of a replica set is determined by the vector clock it is. -/
theorem ext {a b : ReplicaClock replicas} (same : a.clock = b.clock) : a = b := by
  cases a
  cases b
  simp_all only

/-- Any two clocks of one replica set have the same nodes in the same
positions, so that they can be joined. -/
theorem sameNodes (a b : ReplicaClock replicas) : VectorClock.SameNodes a.clock b.clock :=
  fun i => (a.carries i).trans (b.carries i).symm

/-- Clocks of a replica set with equal ranks are equal: the nodes are the
same, and a rank tells generation and clock. -/
theorem eq_of_ranks (a b : ReplicaClock replicas) (same : ∀ i, a.clock.ranks i = b.clock.ranks i) :
    a = b := by
  apply ext
  exact VectorClock.eq_of_ranks (sameNodes a b) same

/-- On clocks of one replica set the comparison is the majority of the
ranks: each component of the left clock meets the one in its own
position. -/
theorem less_iff (a b : ReplicaClock replicas) :
    Less a.clock b.clock ↔ 0 < margin a.clock.ranks b.clock.ranks := by
  have distinct : Function.Injective fun i => (b.clock.value i).nodeId := by
    intro i j same
    exact replicas.distinct (by simpa only [b.carries] using same)
  have votes : ballot a.clock b.clock = margin a.clock.ranks b.clock.ranks := by
    unfold ballot margin
    refine Finset.sum_congr rfl fun i _ => ?_
    rw [vote, find_component b.clock distinct _ i (sameNodes a b i)]
    rfl
  rw [less_iff_ballot, votes]

/-- No clock is less than itself; every component ties with itself. -/
theorem less_irreflexive (a : ReplicaClock replicas) : ¬ Less a.clock a.clock := by
  rw [less_iff, margin_self]
  exact lt_irrefl 0

/-- Of two clocks at most one is less than the other, as exchanging them
turns the margin around. -/
theorem less_asymmetric (a b : ReplicaClock replicas) (less : Less a.clock b.clock) :
    ¬ Less b.clock a.clock := by
  rw [less_iff] at less ⊢
  rw [margin_swap]
  omega

/-- Clocks tie when the votes of their components cancel out. -/
theorem incomparable_iff (a b : ReplicaClock replicas) :
    Incomparable a.clock b.clock ↔ margin a.clock.ranks b.clock.ranks = 0 := by
  rw [Incomparable, less_iff, less_iff, margin_swap a.clock.ranks]
  omega

end ReplicaClock

/-- The three positions, in some order, rank the clocks by the three
rotations of one order: `a < b < c`, `c ≤ a < b` and `b < c ≤ a`, with
`c < a` in one of the last two. -/
def Rotated (a b c : VectorClock 3) : Prop := Majority.Rotated a.ranks b.ranks c.ranks

/-- The clocks differ in exactly two positions, in opposite directions.
These are the concurrent clocks of two publishes. -/
def Crossed (a b : VectorClock 3) : Prop := Majority.Crossed a.ranks b.ranks

/-- A tie of clocks of three replicas is an equality or a crossing: votes
that cancel out are all zero, or one each way and one tie. -/
theorem incomparable_iff_crossed {replicas : ReplicaSet 3} (a b : ReplicaClock replicas) :
    VectorClock.Incomparable a.clock b.clock ↔ a = b ∨ Crossed a.clock b.clock := by
  rw [ReplicaClock.incomparable_iff, Majority.margin_eq_zero_iff]
  refine or_congr ⟨ReplicaClock.eq_of_ranks a b, ?_⟩ Iff.rfl
  rintro rfl i
  rfl

/-- On clocks of three replicas the comparator meets the requirements of a
strict weak ordering at a triple exactly when the triple is not rotated and
two successive crossings leave the outer clocks equal or crossed.

Proof: irreflexivity and asymmetry always hold. Transitivity of the
comparator fails on the rotated triples alone. A tie of clocks is an
equality or a crossing, so transitivity of ties is the second condition.
Rotated triples are no exception to it, since they have no ties on
successive pairs. -/
theorem strict_weak_at_iff (replicas : ReplicaSet 3) (a b c : ReplicaClock replicas) :
    VectorClock.StrictWeakAt a.clock b.clock c.clock ↔
      ¬ Rotated a.clock b.clock c.clock ∧
      (Crossed a.clock b.clock → Crossed b.clock c.clock →
        a = c ∨ Crossed a.clock c.clock) := by
  have tied (x y : ReplicaClock replicas) := incomparable_iff_crossed x y
  constructor
  · rintro ⟨_, _, transitive, ties⟩
    constructor
    · intro rotated
      obtain ⟨first, second⟩ := Majority.Rotated.majorities _ _ _ rotated
      have outer := transitive ((ReplicaClock.less_iff a b).mpr first)
        ((ReplicaClock.less_iff b c).mpr second)
      rw [ReplicaClock.less_iff, Majority.margin_pos_iff_not_rotated _ _ _ first second] at outer
      exact outer rotated
    · intro crossed crossed'
      exact (tied a c).mp
        (ties ((tied a b).mpr (Or.inr crossed)) ((tied b c).mpr (Or.inr crossed')))
  · rintro ⟨ordered, carried⟩
    refine ⟨ReplicaClock.less_irreflexive a, ReplicaClock.less_asymmetric a b, ?_, ?_⟩
    · intro first second
      rw [ReplicaClock.less_iff] at first second ⊢
      exact (Majority.margin_pos_iff_not_rotated _ _ _ first second).mpr ordered
    · intro first second
      rcases (tied a b).mp first with rfl | crossed
      · exact second
      · rcases (tied b c).mp second with rfl | crossed'
        · exact first
        · exact (tied a c).mpr (carried crossed crossed')

/-- The replica set of nodes one, two and three, for clocks on fixed
inputs. -/
def threeReplicas : ReplicaSet 3 where
  ids := ![1, 2, 3]
  distinct := by decide

/-- A clock of these replicas in their first generation, by the three
counters. -/
def threeClock (x y z : UInt64) : ReplicaClock threeReplicas where
  clock := ⟨![⟨1, 1, x⟩, ⟨2, 1, y⟩, ⟨3, 1, z⟩]⟩
  carries := by
    intro i
    fin_cases i <;> rfl

/-- The clocks `1 2 3`, `2 3 1` and `3 1 2` are each less than the next, and
the last is less than the first. -/
theorem comparator_cycles :
    ¬ ∀ (replicas : ReplicaSet 3) (a b c : ReplicaClock replicas),
      VectorClock.StrictWeakAt a.clock b.clock c.clock := by
  intro ordered
  obtain ⟨_, _, transitive, _⟩ :=
    ordered threeReplicas (threeClock 1 2 3) (threeClock 2 3 1) (threeClock 3 1 2)
  have outer := transitive (by decide) (by decide)
  exact absurd outer (by decide)

/-- Crossed clocks are different, since they differ in two positions. -/
theorem Crossed.unequal {a b : VectorClock 3} (crossed : Crossed a b) : a ≠ b := by
  obtain ⟨_, i, _, _, _, _, _, lower, _⟩ := crossed
  rintro rfl
  exact lt_irrefl _ lower

/-- On clocks of three replicas `operator >` is the converse of `operator <`
exactly when the clocks are not crossed. Crossed clocks are each greater
than the other.

Proof: `operator >` takes every tie of different clocks for its own, and
these ties are the crossings. -/
theorem greater_converse_iff (replicas : ReplicaSet 3) (a b : ReplicaClock replicas) :
    ((VectorClock.Greater a.clock b.clock ↔ VectorClock.Less b.clock a.clock) ↔
        ¬ Crossed a.clock b.clock) ∧
      (VectorClock.Greater a.clock b.clock ∧ VectorClock.Greater b.clock a.clock ↔
        Crossed a.clock b.clock) := by
  have tied : VectorClock.Incomparable a.clock b.clock ∧ a.clock ≠ b.clock ↔
      Crossed a.clock b.clock := by
    rw [incomparable_iff_crossed]
    constructor
    · rintro ⟨same | crossed, unequal⟩
      · exact absurd (congrArg ReplicaClock.clock same) unequal
      · exact crossed
    · intro crossed
      exact ⟨Or.inr crossed, crossed.unequal⟩
  rw [VectorClock.greater_iff, VectorClock.greater_iff, ← tied]
  constructor
  · constructor
    · rintro converse ⟨⟨notLess, notGreater⟩, unequal⟩
      exact notGreater (converse.mp ⟨notLess, unequal⟩)
    · intro untied
      constructor
      · rintro ⟨notLess, unequal⟩
        by_contra notGreater
        exact untied ⟨⟨notLess, notGreater⟩, unequal⟩
      · intro greater
        refine ⟨ReplicaClock.less_asymmetric b a greater, fun same => ?_⟩
        rw [same] at greater
        exact ReplicaClock.less_irreflexive b greater
  · constructor
    · rintro ⟨⟨notLess, unequal⟩, notGreater, _⟩
      exact ⟨⟨notLess, notGreater⟩, unequal⟩
    · rintro ⟨⟨notLess, notGreater⟩, unequal⟩
      exact ⟨⟨notLess, unequal⟩, notGreater, Ne.symm unequal⟩

/-- The clocks `1 2 1` and `2 1 1` are each greater than the other, and
neither is less. -/
theorem concurrent_clocks_both_greater :
    VectorClock.Greater (threeClock 1 2 1).clock (threeClock 2 1 1).clock ∧
      VectorClock.Greater (threeClock 2 1 1).clock (threeClock 1 2 1).clock ∧
      ¬ VectorClock.Less (threeClock 2 1 1).clock (threeClock 1 2 1).clock ∧
      ¬ VectorClock.Less (threeClock 1 2 1).clock (threeClock 2 1 1).clock := by
  decide

end Sopmq
