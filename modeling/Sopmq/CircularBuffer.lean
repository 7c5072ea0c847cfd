import Mathlib.Data.List.DropRight

/-!
# Circular buffers

A buffer of bounded capacity that overwrites its oldest element when it is full, as the list
of its elements from the oldest to the newest. After any number of insertions it holds the
last elements of everything that was put into it.
-/

namespace Sopmq

universe u

/-- The last elements of a list are the last ones of its end. Dropping the
front early, as a full buffer does at every insertion, makes no
difference. -/
theorem rtake_rtake_append {α : Type u} (count : Nat) (front back : List α) :
    (front.rtake count ++ back).rtake count = (front ++ back).rtake count := by
  simp only [List.rtake, List.length_append, List.length_drop]
  rw [← List.drop_append_of_le_length (Nat.sub_le _ _), List.drop_drop]
  congr 1
  omega

/-- A buffer of at most `capacity` elements, the oldest first. The bound is
part of the value, so that no operation can exceed it. -/
structure CircularBuffer (α : Type u) (capacity : Nat) where
  contents : List α
  bounded : contents.length ≤ capacity

namespace CircularBuffer

variable {α : Type u} {capacity : Nat}

/-- A full buffer of equal elements, each of which the first insertions
overwrite. -/
def filled (capacity : Nat) (item : α) : CircularBuffer α capacity where
  contents := List.replicate capacity item
  bounded := List.length_replicate.le

/-- The elements after an insertion at the end. A full buffer drops its
oldest element. -/
def pushed (buffer : CircularBuffer α capacity) (item : α) : List α :=
  if buffer.contents.length < capacity then buffer.contents ++ [item]
  else (buffer.contents ++ [item]).tail

/-- Either way these are the last elements of the old ones and the new one,
as many as fit. -/
theorem pushed_eq_rtake (buffer : CircularBuffer α capacity) (item : α) :
    buffer.pushed item = (buffer.contents ++ [item]).rtake capacity := by
  have bounded := buffer.bounded
  rw [pushed, List.rtake, List.length_append, List.length_singleton]
  split
  · rw [Nat.sub_eq_zero_of_le (by omega), List.drop_zero]
  · rw [show buffer.contents.length + 1 - capacity = 1 by omega, List.drop_one]

/-- An insertion keeps the buffer within its capacity. -/
theorem length_pushed_le (buffer : CircularBuffer α capacity) (item : α) :
    (buffer.pushed item).length ≤ capacity := by
  rw [pushed_eq_rtake, List.rtake, List.length_drop]
  omega

/-- Put an element at the end, as `push_back` of `boost::circular_buffer`
does. -/
def pushBack (buffer : CircularBuffer α capacity) (item : α) : CircularBuffer α capacity where
  contents := buffer.pushed item
  bounded := buffer.length_pushed_le item

/-- The contents after an insertion, without the case distinction on whether
the buffer was full. -/
theorem contents_pushBack (buffer : CircularBuffer α capacity) (item : α) :
    (buffer.pushBack item).contents = (buffer.contents ++ [item]).rtake capacity :=
  buffer.pushed_eq_rtake item

/-- A buffer into which a list of elements is put holds the last elements of
what it held before and the list. -/
theorem contents_foldl_pushBack (buffer : CircularBuffer α capacity) (items : List α) :
    (items.foldl pushBack buffer).contents = (buffer.contents ++ items).rtake capacity := by
  induction items generalizing buffer with
  | nil =>
    rw [List.foldl_nil, List.append_nil, List.rtake, Nat.sub_eq_zero_of_le buffer.bounded,
      List.drop_zero]
  | cons item items inductionHypothesis =>
    rw [List.foldl_cons, inductionHypothesis, contents_pushBack, rtake_rtake_append,
      List.append_assoc, List.singleton_append]

end CircularBuffer

end Sopmq
