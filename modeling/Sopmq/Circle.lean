import Mathlib.Order.Bounds.Basic
import Sopmq.SortedMap

/-!
# Points on a circle

A set of points of a linear order is read as a circle: above the greatest point
comes the least one again. Every key belongs to the last point that is not above
it, and a key below all points to the greatest one. A point owns the keys on the arc
from itself up to the next point.

The keys of a sorted map are such a set. The next point is at the next position, the
owner of a key at the position before its upper bound, both with wrap-around. An
insertion shifts the positions from its own on; walking on from a shifted position
leads to the shifted next position, or to the inserted one if that lies between.
-/

namespace Sopmq

universe u v

namespace Circle

variable {K : Type u} [LinearOrder K]

/-- The point that a key belongs to: the greatest one that is not above the
key, or the greatest of all when every point is above it. -/
def Owner (points : Set K) (key owner : K) : Prop :=
  IsGreatest (points ∩ Set.Iic key) owner ∨
    points ∩ Set.Iic key = ∅ ∧ IsGreatest points owner

/-- The point after a given one: the least one above it, or the least of all
after the greatest. A single point is its own next one. -/
def Next (points : Set K) (point next : K) : Prop :=
  IsLeast (points ∩ Set.Ioi point) next ∨
    points ∩ Set.Ioi point = ∅ ∧ IsLeast points next

/-- The key lies on the way from one point up to another, which is excluded.
From a point to itself this is the whole circle. -/
def InArc (first last key : K) : Prop :=
  if first < last then first ≤ key ∧ key < last else first ≤ key ∨ key < last

/-- An owner is one of the points, in both cases of the definition. -/
theorem Owner.mem {points : Set K} {key owner : K} (owns : Owner points key owner) :
    owner ∈ points := by
  rcases owns with greatest | ⟨_, greatest⟩
  · exact greatest.1.1
  · exact greatest.1

/-- A key belongs to one point only, since a set has one greatest element
and the two cases exclude each other. -/
theorem Owner.unique {points : Set K} {key owner other : K} (owns : Owner points key owner)
    (ownsToo : Owner points key other) : owner = other := by
  rcases owns with greatest | ⟨none, greatest⟩ <;>
    rcases ownsToo with greatest' | ⟨none', greatest'⟩
  · exact greatest.unique greatest'
  · exact absurd (none' ▸ greatest.1) (Set.notMem_empty owner)
  · exact absurd (none ▸ greatest'.1) (Set.notMem_empty other)
  · exact greatest.unique greatest'

/-- A point owns the keys on the arc up to the next point. This turns
ownership, which looks at all points, into two comparisons. -/
theorem owner_iff_inArc {points : Set K} {point next : K} (member : point ∈ points)
    (follows : Next points point next) (key : K) :
    Owner points key point ↔ InArc point next key := by
  rcases follows with ⟨⟨nextIn, above⟩, least⟩ | ⟨last, nextIn, least⟩
  · rw [InArc, if_pos (Set.mem_Ioi.mp above)]
    constructor
    · rintro (⟨⟨_, upTo⟩, greatest⟩ | ⟨_, _, greatest⟩)
      · refine ⟨upTo, ?_⟩
        by_contra beyond
        exact absurd (greatest ⟨nextIn, not_lt.mp beyond⟩) (not_le.mpr above)
      · exact absurd (greatest nextIn) (not_le.mpr above)
    · rintro ⟨upTo, below⟩
      refine Or.inl ⟨⟨member, upTo⟩, ?_⟩
      rintro other ⟨otherIn, otherUpTo⟩
      by_contra beyond
      have reached := least ⟨otherIn, not_le.mp beyond⟩
      exact absurd (reached.trans otherUpTo) (not_le.mpr below)
  · have greatest : ∀ other ∈ points, other ≤ point := by
      intro other otherIn
      by_contra beyond
      exact absurd (last ▸ ⟨otherIn, not_le.mp beyond⟩) (Set.notMem_empty other)
    rw [InArc, if_neg (not_lt.mpr (least member))]
    constructor
    · rintro (⟨⟨_, upTo⟩, _⟩ | ⟨none, _⟩)
      · exact Or.inl upTo
      · right
        by_contra beyond
        exact absurd (none ▸ ⟨nextIn, not_lt.mp beyond⟩) (Set.notMem_empty next)
    · rintro (upTo | below)
      · exact Or.inl ⟨⟨member, upTo⟩, fun other otherIn => greatest other otherIn.1⟩
      · refine Or.inr ⟨?_, member, greatest⟩
        rw [Set.eq_empty_iff_forall_notMem]
        rintro other ⟨otherIn, otherUpTo⟩
        exact absurd ((least otherIn).trans otherUpTo) (not_le.mpr below)

/-- A key that a further point does not take stays with its owner. So adding
a point moves keys to that point only. -/
theorem Owner.of_insert {points : Set K} {new key owner : K}
    (owns : Owner (insert new points) key owner) (different : owner ≠ new) :
    Owner points key owner := by
  have ownerIn : owner ∈ points := (Set.mem_insert_iff.mp owns.mem).resolve_left different
  rcases owns with ⟨⟨_, upTo⟩, greatest⟩ | ⟨none, _, greatest⟩
  · refine Or.inl ⟨⟨ownerIn, upTo⟩, ?_⟩
    rintro other ⟨otherIn, otherUpTo⟩
    exact greatest ⟨Set.mem_insert_of_mem new otherIn, otherUpTo⟩
  · refine Or.inr ⟨?_, ownerIn, fun other otherIn => greatest (Set.mem_insert_of_mem new otherIn)⟩
    rw [Set.eq_empty_iff_forall_notMem] at none ⊢
    rintro other ⟨otherIn, otherUpTo⟩
    exact none other ⟨Set.mem_insert_of_mem new otherIn, otherUpTo⟩

/-- The position after a given one, among the given number of positions,
with the first one after the last. -/
def nextPosition (size p : Nat) : Nat := if p + 1 = size then 0 else p + 1

/-- The position of an element after an insertion at the given position:
those from there on move up by one. -/
def shifted (inserted p : Nat) : Nat := if p < inserted then p else p + 1

/-- What is inserted at the position comes right after what was at another
one, which at the front is the last one. -/
def RightAfter (size inserted p : Nat) : Prop := inserted = p + 1 ∨ inserted = 0 ∧ p + 1 = size

/-- A step of the walk stays within the positions. -/
theorem nextPosition_lt {size p : Nat} (inside : p < size) : nextPosition size p < size := by
  unfold nextPosition
  split <;> omega

/-- With two positions or more, a step leads to another position. -/
theorem nextPosition_ne {size p : Nat} (two : 2 ≤ size) : nextPosition size p ≠ p := by
  unfold nextPosition
  split <;> omega

/-- An inserted position comes right after one position only. -/
theorem RightAfter.unique {size inserted p q : Nat} (first : RightAfter size inserted p)
    (second : RightAfter size inserted q) : p = q := by
  unfold RightAfter at first second
  omega

/-- The walk passes the inserted position where that comes right after the
last one, and goes on from it to where it would have gone before. -/
theorem nextPosition_inserted {size inserted p : Nat} (inside : p < size)
    (after : RightAfter size inserted p) :
    nextPosition (size + 1) (shifted inserted p) = inserted ∧
      nextPosition (size + 1) inserted = shifted inserted (nextPosition size p) := by
  unfold nextPosition shifted
  rcases after with rfl | ⟨rfl, last⟩
  · rw [if_pos (Nat.lt_succ_self p)]
    constructor
    · rw [if_neg (by omega)]
    · split_ifs <;> omega
  · constructor
    · rw [if_neg (Nat.not_lt_zero p), if_pos (by omega)]
    · rw [if_neg (by omega), if_pos last, if_neg (Nat.not_lt_zero 0)]

/-- Elsewhere it goes on as before, from shifted to shifted position. -/
theorem nextPosition_shifted {size inserted p : Nat} (inside : p < size)
    (bound : inserted ≤ size) (apart : ¬ RightAfter size inserted p) :
    nextPosition (size + 1) (shifted inserted p) = shifted inserted (nextPosition size p) := by
  unfold RightAfter at apart
  unfold nextPosition shifted
  split_ifs <;> omega

/-- Two steps of the walk after an insertion, from the inserted position or
from an old one. The inserted position comes right after one old position
only, so it is passed at most once. -/
theorem two_steps_after {size inserted p0 p1 p2 q0 q1 q2 : Nat} (two : 2 ≤ size)
    (bound : inserted ≤ size) (inside : p0 < size) (inside' : p1 < size)
    (step : p1 = nextPosition size p0) (step' : p2 = nextPosition size p1)
    (walk : q1 = nextPosition (size + 1) q0) (walk' : q2 = nextPosition (size + 1) q1)
    (begins : q0 = inserted ∧ RightAfter size inserted p0 ∨ q0 = shifted inserted p0) :
    (q0 = inserted ∧ q1 = shifted inserted p1 ∧ q2 = shifted inserted p2) ∨
      (q0 = shifted inserted p0 ∧ q1 = inserted ∧ q2 = shifted inserted p1) ∨
      (q0 = shifted inserted p0 ∧ q1 = shifted inserted p1 ∧ q2 = inserted) ∨
      (q0 = shifted inserted p0 ∧ q1 = shifted inserted p1 ∧ q2 = shifted inserted p2) := by
  subst step step' walk walk'
  rcases begins with ⟨rfl, passed⟩ | rfl
  · have apart : ¬ RightAfter size q0 (nextPosition size p0) := by
      intro again
      exact nextPosition_ne two (again.unique passed)
    have middle := (nextPosition_inserted inside passed).2
    refine Or.inl ⟨rfl, middle, ?_⟩
    rw [middle]
    exact nextPosition_shifted inside' bound apart
  · apply Or.inr
    by_cases passed : RightAfter size inserted p0
    · obtain ⟨middle, last⟩ := nextPosition_inserted inside passed
      refine Or.inl ⟨rfl, middle, ?_⟩
      rw [middle]
      exact last
    · have middle := nextPosition_shifted inside bound passed
      rw [middle]
      apply Or.inr
      by_cases again : RightAfter size inserted (nextPosition size p0)
      · exact Or.inl ⟨rfl, rfl, (nextPosition_inserted inside' again).1⟩
      · exact Or.inr ⟨rfl, rfl, nextPosition_shifted inside' bound again⟩

end Circle

namespace SortedMap

variable {K : Type u} {V : Type v} [LinearOrder K]

/-- The keys of a map, as a set of points. The map itself is sorted by
them. -/
def keys (map : SortedMap K V) : Set K := { key | ∃ entry ∈ map.entries, entry.1 = key }

/-- A key of the map is found at some position. -/
theorem mem_keys_iff (map : SortedMap K V) (key : K) :
    key ∈ map.keys ↔ ∃ i : Nat, ∃ entry, map.entries[i]? = some entry ∧ entry.1 = key := by
  constructor
  · rintro ⟨entry, member, rfl⟩
    obtain ⟨i, located⟩ := List.mem_iff_getElem?.mp member
    exact ⟨i, entry, located, rfl⟩
  · rintro ⟨i, entry, located, rfl⟩
    exact ⟨entry, List.mem_of_getElem? located, rfl⟩

/-- The next key of the circle is that of the next position. The entries are
sorted, so the least key above is the following one, and above the last
there is none. -/
theorem next_key (map : SortedMap K V) {i : Nat} {entry next : K × V}
    (located : map.entries[i]? = some entry)
    (following : map.entries[Circle.nextPosition map.size i]? = some next) :
    Circle.Next map.keys entry.1 next.1 := by
  have nextIn : next.1 ∈ map.keys := (map.mem_keys_iff _).mpr ⟨_, next, following, rfl⟩
  unfold Circle.nextPosition at following
  split at following
  · next last =>
    refine Or.inr ⟨?_, nextIn, ?_⟩
    · rw [Set.eq_empty_iff_forall_notMem]
      rintro key ⟨keyIn, above⟩
      obtain ⟨j, other, atOther, rfl⟩ := (map.mem_keys_iff key).mp keyIn
      have later := (map.key_lt_iff located atOther).mp above
      have inside : j < map.size := (List.getElem?_eq_some_iff.mp atOther).1
      omega
    · intro key keyIn
      obtain ⟨j, other, atOther, rfl⟩ := (map.mem_keys_iff key).mp keyIn
      exact (map.key_le_iff following atOther).mpr (Nat.zero_le j)
  · refine Or.inl ⟨⟨nextIn, (map.key_lt_iff located following).mpr (Nat.lt_succ_self i)⟩, ?_⟩
    rintro key ⟨keyIn, above⟩
    obtain ⟨j, other, atOther, rfl⟩ := (map.mem_keys_iff key).mp keyIn
    exact (map.key_le_iff following atOther).mpr ((map.key_lt_iff located atOther).mp above)

/-- The owner of a key is at the position before its upper bound, or at the
last one when the upper bound is the first. -/
theorem owner_key (map : SortedMap K V) (key : K) {owner : K × V}
    (located : map.entries[(if map.upperBound key = 0 then map.size
      else map.upperBound key) - 1]? = some owner) :
    Circle.Owner map.keys key owner.1 := by
  have ownerIn : owner.1 ∈ map.keys := (map.mem_keys_iff _).mpr ⟨_, owner, located, rfl⟩
  split at located
  · next noneBelow =>
    refine Or.inr ⟨?_, ownerIn, ?_⟩
    · rw [Set.eq_empty_iff_forall_notMem]
      rintro start ⟨startIn, upTo⟩
      obtain ⟨j, other, atOther, rfl⟩ := (map.mem_keys_iff start).mp startIn
      have before := (map.lt_upperBound_iff key atOther).mpr upTo
      omega
    · intro start startIn
      obtain ⟨j, other, atOther, rfl⟩ := (map.mem_keys_iff start).mp startIn
      have inside : j < map.size := (List.getElem?_eq_some_iff.mp atOther).1
      exact (map.key_le_iff atOther located).mpr (by omega)
  · next someBelow =>
    refine Or.inl ⟨⟨ownerIn, (map.lt_upperBound_iff key located).mp (by omega)⟩, ?_⟩
    rintro start ⟨startIn, upTo⟩
    obtain ⟨j, other, atOther, rfl⟩ := (map.mem_keys_iff start).mp startIn
    have before := (map.lt_upperBound_iff key atOther).mpr upTo
    exact (map.key_le_iff atOther located).mpr (by omega)

end SortedMap

end Sopmq
