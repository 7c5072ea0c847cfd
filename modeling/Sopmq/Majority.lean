import Mathlib.Algebra.BigOperators.Fin
import Mathlib.Algebra.Order.BigOperators.Group.Finset
import Mathlib.Algebra.Order.Ring.Int
import Mathlib.Data.Fin.VecNotation
import Mathlib.Order.Fin.Basic
import Mathlib.Tactic.FinCases

/-!
# Comparing tuples by the majority of their components

Two tuples over a linear order are compared by a vote. A component votes for
the right tuple when the left value is smaller there, for the left tuple when
the right value is smaller, and abstains at equal values. The margin is the
difference of the two counts, and the left tuple is less when it is positive.

The relation is irreflexive and asymmetric at every width, and it extends
componentwise dominance. It is not transitive: three components may rank three
tuples by the three rotations of one order. The last part determines, for three
components, exactly which triples break transitivity of the relation and which
break transitivity of its ties.
-/

namespace Sopmq.Majority

universe u
variable {α : Type u} [LinearOrder α]

/-- The vote of one component: one for a smaller left value, minus one for a
smaller right value, zero for equal values. -/
def lead (left right : α) : Int :=
  if left < right then 1 else if right < left then -1 else 0

/-- Equal values do not vote. -/
theorem lead_self (value : α) : lead value value = 0 := by
  simp [lead]

/-- A component votes for the right tuple exactly when the left value is
smaller there. -/
theorem lead_eq_one_iff (left right : α) : lead left right = 1 ↔ left < right := by
  unfold lead
  split
  · simp [*]
  · split <;> simp [*]

/-- It votes for the left tuple exactly when the right value is smaller. -/
theorem lead_eq_neg_one_iff (left right : α) : lead left right = -1 ↔ right < left := by
  unfold lead
  split
  · next smaller => simp [smaller.le]
  · split <;> simp [*]

/-- It abstains exactly at equal values, since the order is total. -/
theorem lead_eq_zero_iff (left right : α) : lead left right = 0 ↔ left = right := by
  rcases lt_trichotomy left right with smaller | same | larger
  · simp [lead, smaller, smaller.ne]
  · simp [lead, same]
  · simp [lead, larger, larger.not_gt, larger.ne']

/-- A vote takes one of three values. -/
theorem lead_cases (left right : α) :
    lead left right = -1 ∨ lead left right = 0 ∨ lead left right = 1 := by
  unfold lead
  split
  · simp
  · split <;> simp

/-- Exchanging the tuples turns every vote around. -/
theorem lead_swap (left right : α) : lead right left = -lead left right := by
  rcases lt_trichotomy left right with smaller | same | larger
  · rw [(lead_eq_one_iff left right).mpr smaller, (lead_eq_neg_one_iff right left).mpr smaller]
  · rw [same, lead_self, neg_zero]
  · rw [(lead_eq_neg_one_iff left right).mpr larger, (lead_eq_one_iff right left).mpr larger]
    rfl

/-- A component does not vote against the right tuple when its left value is
not greater. -/
theorem lead_nonneg_iff (left right : α) : 0 ≤ lead left right ↔ left ≤ right := by
  have never : lead left right = -1 ↔ ¬ left ≤ right :=
    (lead_eq_neg_one_iff left right).trans not_le.symm
  have bounds := lead_cases left right
  constructor
  · intro nonneg
    by_contra exceeds
    have value := never.mpr exceeds
    omega
  · intro below
    have excluded : lead left right ≠ -1 := fun value => never.mp value below
    omega

/-- It does not vote for the right tuple when its right value is not
greater. -/
theorem lead_nonpos_iff (left right : α) : lead left right ≤ 0 ↔ right ≤ left := by
  have turned := lead_nonneg_iff right left
  rw [lead_swap left right, neg_nonneg] at turned
  exact turned

/-- Lowering the left value or raising the right one loses no vote for the
right tuple. -/
theorem lead_mono {left left' right right' : α} (lower : left' ≤ left) (upper : right ≤ right') :
    lead left right ≤ lead left' right' := by
  rcases lt_trichotomy left right with smaller | rfl | larger
  · rw [(lead_eq_one_iff _ _).mpr smaller,
      (lead_eq_one_iff _ _).mpr (lower.trans_lt (smaller.trans_le upper))]
  · rw [lead_self]
    exact (lead_nonneg_iff _ _).mpr (lower.trans upper)
  · rw [(lead_eq_neg_one_iff _ _).mpr larger]
    have bounds := lead_cases left' right'
    omega

section Margin

variable {n : Nat}

/-- Votes for the right tuple minus votes for the left one. Positive margins
are what the comparison asks for. -/
def margin (left right : Fin n → α) : Int :=
  ∑ i, lead (left i) (right i)

/-- A tuple ties with itself. -/
theorem margin_self (tuple : Fin n → α) : margin tuple tuple = 0 := by
  simp [margin, lead_self]

/-- Exchanging the tuples turns the margin around, so at most one of two
tuples is less. -/
theorem margin_swap (left right : Fin n → α) : margin right left = -margin left right := by
  unfold margin
  rw [← Finset.sum_neg_distrib]
  exact Finset.sum_congr rfl fun i _ => lead_swap (left i) (right i)

/-- Lowering the left tuple or raising the right one does not lower the
margin, because it lowers no vote. -/
theorem margin_mono {left left' right right' : Fin n → α} (lower : ∀ i, left' i ≤ left i)
    (upper : ∀ i, right i ≤ right' i) : margin left right ≤ margin left' right' :=
  Finset.sum_le_sum fun i _ => lead_mono (lower i) (upper i)

/-- More than half of the components decide the comparison, whatever the
others hold: each of the others costs at most one vote. -/
theorem margin_pos_of_majority (left right : Fin n → α) (voters : Finset (Fin n))
    (many : n < 2 * voters.card) (smaller : ∀ i ∈ voters, left i < right i) :
    0 < margin left right := by
  have inside : ∑ i ∈ voters, lead (left i) (right i) = voters.card := by
    rw [Finset.sum_congr rfl fun i member => (lead_eq_one_iff _ _).mpr (smaller i member)]
    simp
  have outside : -(votersᶜ.card : Int) ≤ ∑ i ∈ votersᶜ, lead (left i) (right i) := by
    have each : ∀ i ∈ votersᶜ, (-1 : Int) ≤ lead (left i) (right i) := by
      intro i _
      have bounds := lead_cases (left i) (right i)
      omega
    have total := Finset.sum_le_sum each
    simpa using total
  have parts : margin left right = ∑ i ∈ voters, lead (left i) (right i) +
      ∑ i ∈ votersᶜ, lead (left i) (right i) := (Finset.sum_add_sum_compl voters _).symm
  have sizes : voters.card + votersᶜ.card = n := by
    rw [Finset.card_add_card_compl, Fintype.card_fin]
  omega

end Margin

section Three

variable (left middle right : Fin 3 → α)

/-- With three components the margin is the sum of three votes, in any order
of the components. -/
theorem margin_three (l i j : Fin 3) (li : l ≠ i) (ij : i ≠ j) (lj : l ≠ j) :
    margin left right =
      lead (left l) (right l) + lead (left i) (right i) + lead (left j) (right j) := by
  have all : (Finset.univ : Finset (Fin 3)) = {l, i, j} := by
    revert l i j
    decide
  rw [margin, all, Finset.sum_insert (by simp [li, lj]), Finset.sum_insert (by simp [ij]),
    Finset.sum_singleton, add_assoc]

/-- Three different components are all there are, so what holds at each of
them holds everywhere. -/
theorem component_cases (l i j k : Fin 3) (li : l ≠ i) (ij : i ≠ j) (lj : l ≠ j) :
    k = l ∨ k = i ∨ k = j := by
  omega

/-- Two components leave a third one, whether they are different or not. -/
theorem third_component (i j : Fin 3) : ∃ l : Fin 3, l ≠ i ∧ l ≠ j := by
  decide +revert

/-- The components, in some order, rank the three tuples by the three
rotations of one order; the right and left tuples may tie in one of the last
two. -/
def Rotated : Prop :=
  ∃ l i j : Fin 3, l ≠ i ∧ i ≠ j ∧ l ≠ j ∧
    (left l < middle l ∧ middle l < right l) ∧
    (right i ≤ left i ∧ left i < middle i) ∧
    (middle j < right j ∧ right j ≤ left j) ∧
    (right i < left i ∨ right j < left j)

/-- Exactly two components differ, and they differ in opposite
directions. -/
def Crossed (left right : Fin 3 → α) : Prop :=
  ∃ l i j : Fin 3, l ≠ i ∧ i ≠ j ∧ l ≠ j ∧
    left l = right l ∧ left i < right i ∧ right j < left j

/-- A tie is an equality of the tuples or a crossing.

Proof: three votes of zero sum cannot all be cast, so some component
abstains. The votes of the other two cancel: both abstain, or they oppose
each other. -/
theorem margin_eq_zero_iff :
    margin left right = 0 ↔ (∀ i, left i = right i) ∨ Crossed left right := by
  constructor
  · intro tied
    obtain ⟨l, i, j, li, ij, lj, abstains⟩ : ∃ l i j : Fin 3, l ≠ i ∧ i ≠ j ∧ l ≠ j ∧
        lead (left l) (right l) = 0 := by
      rw [margin_three left right 0 1 2 (by decide) (by decide) (by decide)] at tied
      have zeroth := lead_cases (left 0) (right 0)
      have first := lead_cases (left 1) (right 1)
      have second := lead_cases (left 2) (right 2)
      have some : lead (left 0) (right 0) = 0 ∨ lead (left 1) (right 1) = 0 ∨
          lead (left 2) (right 2) = 0 := by omega
      rcases some with abstains | abstains | abstains
      · exact ⟨0, 1, 2, by decide, by decide, by decide, abstains⟩
      · exact ⟨1, 0, 2, by decide, by decide, by decide, abstains⟩
      · exact ⟨2, 0, 1, by decide, by decide, by decide, abstains⟩
    rw [margin_three left right l i j li ij lj, abstains] at tied
    have equal : left l = right l := (lead_eq_zero_iff _ _).mp abstains
    rcases lead_cases (left i) (right i) with falls | same | rises
    · have opposite : lead (left j) (right j) = 1 := by omega
      exact Or.inr ⟨l, j, i, lj, ij.symm, li, equal, (lead_eq_one_iff _ _).mp opposite,
        (lead_eq_neg_one_iff _ _).mp falls⟩
    · have other : lead (left j) (right j) = 0 := by omega
      refine Or.inl fun k => ?_
      rcases component_cases l i j k li ij lj with rfl | rfl | rfl
      · exact equal
      · exact (lead_eq_zero_iff _ _).mp same
      · exact (lead_eq_zero_iff _ _).mp other
    · have opposite : lead (left j) (right j) = -1 := by omega
      exact Or.inr ⟨l, i, j, li, ij, lj, equal, (lead_eq_one_iff _ _).mp rises,
        (lead_eq_neg_one_iff _ _).mp opposite⟩
  · rintro (same | ⟨l, i, j, li, ij, lj, equal, rises, falls⟩)
    · simp [margin, same, lead_self]
    · rw [margin_three left right l i j li ij lj, (lead_eq_zero_iff _ _).mpr equal,
        (lead_eq_one_iff _ _).mpr rises, (lead_eq_neg_one_iff _ _).mpr falls]
      rfl

/-- With three components, a majority outvoted at one of them has both
others: one vote against leaves no room for an abstention. -/
theorem majority_elsewhere (less : 0 < margin left right) (j : Fin 3) (against : right j < left j)
    (k : Fin 3) (other : k ≠ j) : left k < right k := by
  obtain ⟨l, lj, lk⟩ := third_component j k
  rw [margin_three left right k l j lk.symm lj other,
    (lead_eq_neg_one_iff _ _).mpr against] at less
  have bounds := lead_cases (left k) (right k)
  have bounds' := lead_cases (left l) (right l)
  exact (lead_eq_one_iff _ _).mp (by omega)

/-- Each successive pair of a rotated triple is a majority of two votes to
one. -/
theorem Rotated.majorities (rotated : Rotated left middle right) :
    0 < margin left middle ∧ 0 < margin middle right := by
  obtain ⟨l, i, j, li, ij, lj, ⟨rises, rises'⟩, ⟨tie, above⟩, ⟨below, tie'⟩, _⟩ := rotated
  rw [margin_three left middle l i j li ij lj, margin_three middle right l i j li ij lj,
    (lead_eq_one_iff _ _).mpr rises, (lead_eq_one_iff _ _).mpr rises',
    (lead_eq_one_iff _ _).mpr above, (lead_eq_one_iff _ _).mpr below,
    (lead_eq_neg_one_iff _ _).mpr (below.trans_le tie'),
    (lead_eq_neg_one_iff _ _).mpr (tie.trans_lt above)]
  decide

/-- Two of three components decide the comparison, whatever the third one
holds. -/
theorem margin_pos_of_others (i : Fin 3) (smaller : ∀ k, k ≠ i → left k < right k) :
    0 < margin left right := by
  refine margin_pos_of_majority left right {i}ᶜ ?_ ?_
  · rw [Finset.card_compl, Finset.card_singleton]
    decide
  · intro k other
    exact smaller k (by simpa using other)

/-- Successive majorities that do not carry over have a component against
each. Without one, a tuple could be lowered or raised to the next, and the
margin would carry over. -/
theorem dissenters (first : 0 < margin left middle) (second : 0 < margin middle right)
    (failed : ¬ 0 < margin left right) :
    (∃ j, middle j < left j) ∧ ∃ i, right i < middle i := by
  constructor
  · by_contra agreed
    push Not at agreed
    have kept := margin_mono agreed (fun i => le_refl (right i))
    omega
  · by_contra agreed
    push Not at agreed
    have kept := margin_mono (fun i => le_refl (left i)) agreed
    omega

/-- Two successive majorities fail to carry over to the outer pair exactly
on the rotated triples.

Proof: by monotonicity a failure needs a component voting against the first
majority and one voting against the second. All other votes on either pair
are then cast for it, so the two components differ and the third ranks the
tuples in order. The outer margin is nonpositive only if both dissenters
refuse it, one of them strictly. -/
theorem margin_pos_iff_not_rotated (first : 0 < margin left middle)
    (second : 0 < margin middle right) :
    0 < margin left right ↔ ¬ Rotated left middle right := by
  constructor
  · rintro outer ⟨l, i, j, li, ij, lj, ⟨rises, rises'⟩, ⟨tie, _⟩, ⟨_, tie'⟩, strict⟩
    rw [margin_three _ _ l i j li ij lj, (lead_eq_one_iff _ _).mpr (rises.trans rises')] at outer
    have refused := (lead_nonpos_iff _ _).mpr tie
    have refused' := (lead_nonpos_iff _ _).mpr tie'
    rcases strict with lost | lost
    · rw [(lead_eq_neg_one_iff _ _).mpr lost] at outer
      omega
    · rw [(lead_eq_neg_one_iff _ _).mpr lost] at outer
      omega
  · intro ordered
    by_contra failed
    obtain ⟨⟨j, falls⟩, ⟨i, falls'⟩⟩ := dissenters left middle right first second failed
    have rises := majority_elsewhere left middle first j falls
    have rises' := majority_elsewhere middle right second i falls'
    have ij : i ≠ j := by
      rintro rfl
      exact failed (margin_pos_of_others left right i fun k ki => (rises k ki).trans (rises' k ki))
    obtain ⟨l, li, lj⟩ := third_component i j
    rw [margin_three left right l i j li ij lj,
      (lead_eq_one_iff _ _).mpr ((rises l lj).trans (rises' l li))] at failed
    have bounds := lead_cases (left i) (right i)
    have bounds' := lead_cases (left j) (right j)
    have strict : lead (left i) (right i) = -1 ∨ lead (left j) (right j) = -1 := by omega
    refine ordered ⟨l, i, j, li, ij, lj, ⟨rises l lj, rises' l li⟩,
      ⟨(lead_nonpos_iff _ _).mp (by omega), rises i ij⟩,
      ⟨rises' j ij.symm, (lead_nonpos_iff _ _).mp (by omega)⟩, ?_⟩
    rcases strict with lost | lost
    · exact Or.inl ((lead_eq_neg_one_iff _ _).mp lost)
    · exact Or.inr ((lead_eq_neg_one_iff _ _).mp lost)

end Three

end Sopmq.Majority
