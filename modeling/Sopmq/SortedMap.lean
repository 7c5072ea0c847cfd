import Mathlib.Data.List.Nodup
import Mathlib.Order.Lattice

/-!
# Maps sorted by their keys

A finite map over a linearly ordered key type, as the list of its entries in
strictly increasing order of the keys. Iterators are positions in that list; the
position after the last entry is the end.
-/

namespace Sopmq

universe u v

/-- A finite map whose entries are iterated in increasing order of their
keys. The order is part of the value, and with it that keys are distinct. -/
structure SortedMap (K : Type u) (V : Type v) [LinearOrder K] where
  entries : List (K × V)
  sorted : entries.Pairwise (fun left right => left.1 < right.1)

namespace SortedMap

variable {K : Type u} {V : Type v} [LinearOrder K]

/-- A sorted map is determined by its entries. -/
@[ext]
theorem ext {left right : SortedMap K V} (same : left.entries = right.entries) : left = right := by
  cases left
  cases right
  cases same
  rfl

/-- The map without entries, whose end is its beginning. -/
def empty : SortedMap K V where
  entries := []
  sorted := List.Pairwise.nil

/-- The number of entries, which is also the position of the end. -/
def size (map : SortedMap K V) : Nat := map.entries.length

/-- The value filed under a key. -/
def find (map : SortedMap K V) (key : K) : Option V :=
  (map.entries.find? (fun entry => decide (entry.1 = key))).map Prod.snd

/-- The position of the first entry with a greater key, or the end:
`std::map::upper_bound`. -/
def upperBound (map : SortedMap K V) (key : K) : Nat :=
  map.entries.findIdx (fun entry => decide (key < entry.1))

/-- Insert an entry before the first one with a greater key; an existing
entry of the key stays. -/
def emplaceAt (key : K) (value : V) : List (K × V) → List (K × V)
  | [] => [(key, value)]
  | entry :: rest =>
      if key < entry.1 then (key, value) :: entry :: rest
      else if key = entry.1 then entry :: rest
      else entry :: emplaceAt key value rest

/-- Emplacing adds no other entry than its own. -/
theorem mem_emplaceAt (key : K) (value : V) (entries : List (K × V)) (entry : K × V)
    (member : entry ∈ emplaceAt key value entries) : entry = (key, value) ∨ entry ∈ entries := by
  induction entries with
  | nil => exact Or.inl (List.mem_singleton.mp member)
  | cons first rest inductionHypothesis =>
    unfold emplaceAt at member
    split at member
    · exact List.mem_cons.mp member
    · split at member
      · exact Or.inr member
      · rcases List.mem_cons.mp member with rfl | inRest
        · exact Or.inr List.mem_cons_self
        · exact (inductionHypothesis inRest).imp_right (List.mem_cons_of_mem first)

/-- Emplacing keeps the entries sorted. By induction on the entries, where
the new one is greater than all that it passes. -/
theorem emplaceAt_sorted (key : K) (value : V) (entries : List (K × V))
    (sorted : entries.Pairwise (fun left right => left.1 < right.1)) :
    (emplaceAt key value entries).Pairwise (fun left right => left.1 < right.1) := by
  induction entries with
  | nil => exact List.pairwise_singleton _ _
  | cons first rest inductionHypothesis =>
    obtain ⟨above, restSorted⟩ := List.pairwise_cons.mp sorted
    unfold emplaceAt
    split
    · next below =>
      refine List.pairwise_cons.mpr ⟨?_, sorted⟩
      intro entry member
      rcases List.mem_cons.mp member with rfl | inRest
      · exact below
      · exact below.trans (above entry inRest)
    · next notBelow =>
      split
      · exact sorted
      · next different =>
        refine List.pairwise_cons.mpr ⟨?_, inductionHypothesis restSorted⟩
        intro entry member
        rcases mem_emplaceAt key value rest entry member with rfl | inRest
        · exact lt_of_le_of_ne (not_lt.mp notBelow) (Ne.symm different)
        · exact above entry inRest

/-- `std::map::emplace`: an existing entry of the key stays as it is. -/
def emplace (map : SortedMap K V) (key : K) (value : V) : SortedMap K V where
  entries := emplaceAt key value map.entries
  sorted := emplaceAt_sorted key value map.entries map.sorted

/-- No entry has a key under which nothing is found. -/
theorem not_mem_of_find_none (map : SortedMap K V) (key : K) (missing : map.find key = none)
    (entry : K × V) (member : entry ∈ map.entries) : entry.1 ≠ key := by
  have missed := List.find?_eq_none.mp (Option.map_eq_none_iff.mp missing) entry member
  simpa using missed

/-- Emplacing under a new key adds exactly its entry, and loses none. -/
theorem emplaceAt_perm (key : K) (value : V) (entries : List (K × V))
    (absent : ∀ entry ∈ entries, entry.1 ≠ key) :
    (emplaceAt key value entries).Perm ((key, value) :: entries) := by
  induction entries with
  | nil => exact List.Perm.refl _
  | cons first rest inductionHypothesis =>
    unfold emplaceAt
    split
    · exact List.Perm.refl _
    · split
      · next same => exact absurd same.symm (absent first List.mem_cons_self)
      · have placed := inductionHypothesis fun entry member =>
          absent entry (List.mem_cons_of_mem first member)
        exact (placed.cons first).trans (List.Perm.swap (key, value) first rest)

/-- Positions are in the order of the keys, so comparing keys and comparing
positions is the same. -/
theorem key_lt_iff (map : SortedMap K V) {i j : Nat} {first second : K × V}
    (atFirst : map.entries[i]? = some first) (atSecond : map.entries[j]? = some second) :
    first.1 < second.1 ↔ i < j := by
  obtain ⟨firstBound, rfl⟩ := List.getElem?_eq_some_iff.mp atFirst
  obtain ⟨secondBound, rfl⟩ := List.getElem?_eq_some_iff.mp atSecond
  have ordered := List.pairwise_iff_getElem.mp map.sorted
  rcases Nat.lt_trichotomy i j with before | rfl | after
  · exact iff_of_true (ordered i j firstBound secondBound before) before
  · exact iff_of_false (lt_irrefl _) (Nat.lt_irrefl i)
  · exact iff_of_false (ordered j i secondBound firstBound after).not_gt after.not_gt

/-- The same for the comparison that allows equality. -/
theorem key_le_iff (map : SortedMap K V) {i j : Nat} {first second : K × V}
    (atFirst : map.entries[i]? = some first) (atSecond : map.entries[j]? = some second) :
    first.1 ≤ second.1 ↔ i ≤ j := by
  rw [← not_lt, map.key_lt_iff atSecond atFirst, not_lt]

/-- Entries at different positions have different keys, since one of the
keys is less. -/
theorem position_injective (map : SortedMap K V) {i j : Nat} {first second : K × V}
    (atFirst : map.entries[i]? = some first) (atSecond : map.entries[j]? = some second)
    (same : first.1 = second.1) : i = j := by
  have notBefore := (map.key_lt_iff atFirst atSecond).not.mp same.not_lt
  have notAfter := (map.key_lt_iff atSecond atFirst).not.mp same.not_gt
  omega

/-- An upper bound is a position of the map or its end. -/
theorem upperBound_le_size (map : SortedMap K V) (key : K) : map.upperBound key ≤ map.size :=
  List.findIdx_le_length

/-- A greater key has an upper bound that is not before. -/
theorem upperBound_mono (map : SortedMap K V) {key other : K} (upTo : key ≤ other) :
    map.upperBound key ≤ map.upperBound other :=
  List.findIdx_le_findIdx fun _ _ above =>
    decide_eq_true (upTo.trans_lt (of_decide_eq_true above))

/-- The upper bound of a key separates the entries up to the key from those
above it. -/
theorem lt_upperBound_iff (map : SortedMap K V) (key : K) {i : Nat} {entry : K × V}
    (located : map.entries[i]? = some entry) : i < map.upperBound key ↔ entry.1 ≤ key := by
  obtain ⟨bound, here⟩ := List.getElem?_eq_some_iff.mp located
  constructor
  · intro before
    have notAbove := List.not_of_lt_findIdx before
    simpa [here] using notAbove
  · intro upTo
    by_contra beyond
    have inside : map.upperBound key < map.entries.length := by omega
    have above : key < (map.entries[map.upperBound key]).1 :=
      of_decide_eq_true (List.findIdx_getElem (w := inside))
    have smaller : entry.1 < (map.entries[map.upperBound key]).1 := upTo.trans_lt above
    have earlier := (map.key_lt_iff located (List.getElem?_eq_getElem inside)).mp smaller
    omega

/-- A new key is emplaced at its upper bound. So emplacing is an insertion
into the list, and the lemmas about these apply. -/
theorem emplaceAt_eq_insertIdx (key : K) (value : V) (entries : List (K × V))
    (absent : ∀ entry ∈ entries, entry.1 ≠ key) :
    emplaceAt key value entries =
      entries.insertIdx (entries.findIdx fun entry => decide (key < entry.1)) (key, value) := by
  induction entries with
  | nil => rfl
  | cons first rest inductionHypothesis =>
    have different : key ≠ first.1 := (absent first List.mem_cons_self).symm
    have later := inductionHypothesis fun entry member =>
      absent entry (List.mem_cons_of_mem first member)
    by_cases below : key < first.1
    · simp [emplaceAt, below, List.findIdx_cons]
    · simp [emplaceAt, below, different, List.findIdx_cons, later]

/-- A new key moves the upper bounds of the keys from it on by one, and
leaves the others. -/
theorem upperBound_emplaceAt (key : K) (value : V) (entries : List (K × V))
    (absent : ∀ entry ∈ entries, entry.1 ≠ key) (other : K) :
    (emplaceAt key value entries).findIdx (fun entry => decide (other < entry.1)) =
      (entries.findIdx fun entry => decide (other < entry.1)) +
        if key ≤ other then 1 else 0 := by
  induction entries with
  | nil =>
    by_cases upTo : key ≤ other
    · simp [emplaceAt, List.findIdx_cons, upTo, not_lt.mpr upTo]
    · simp [emplaceAt, List.findIdx_cons, upTo, not_le.mp upTo]
  | cons first rest inductionHypothesis =>
    have different : key ≠ first.1 := (absent first List.mem_cons_self).symm
    have later := inductionHypothesis fun entry member =>
      absent entry (List.mem_cons_of_mem first member)
    by_cases below : key < first.1
    · by_cases upTo : key ≤ other
      · simp [emplaceAt, below, List.findIdx_cons, upTo, not_lt.mpr upTo]
      · have above := (not_le.mp upTo).trans below
        simp [emplaceAt, below, List.findIdx_cons, upTo, not_le.mp upTo, above]
    · have greater : first.1 < key := lt_of_le_of_ne (not_lt.mp below) different.symm
      by_cases above : other < first.1
      · simp [emplaceAt, below, different, List.findIdx_cons, above,
          not_le.mpr (above.trans greater)]
      · simp only [emplaceAt, below, different, List.findIdx_cons, above, later, if_false,
          decide_false, cond_false]
        omega

/-- The keys in their order, for a map that is used as a set. -/
def keyList (map : SortedMap K V) : List K := map.entries.map Prod.fst

/-- Remove the entry of a key. What is left is sorted as before. -/
def erase (map : SortedMap K V) (key : K) : SortedMap K V where
  entries := map.entries.filter (fun entry => decide (entry.1 ≠ key))
  sorted := map.sorted.sublist List.filter_sublist

/-- No key is listed twice. -/
theorem keyList_nodup (map : SortedMap K V) : map.keyList.Nodup :=
  List.pairwise_map.mpr (map.sorted.imp fun below => below.ne)

/-- Nothing is found under a key exactly when it is not listed. -/
theorem find_eq_none_iff (map : SortedMap K V) (key : K) :
    map.find key = none ↔ key ∉ map.keyList := by
  constructor
  · intro missing member
    obtain ⟨entry, present, same⟩ := List.mem_map.mp member
    exact map.not_mem_of_find_none key missing entry present same
  · intro absent
    refine Option.map_eq_none_iff.mpr (List.find?_eq_none.mpr fun entry present => ?_)
    have different : entry.1 ≠ key := fun same => absent (List.mem_map.mpr ⟨entry, present, same⟩)
    simpa using different

/-- Emplacing under a new key adds the key, at some place. -/
theorem keyList_emplace (map : SortedMap K V) (key : K) (value : V)
    (missing : map.find key = none) : (map.emplace key value).keyList.Perm (key :: map.keyList) :=
  (emplaceAt_perm key value map.entries (map.not_mem_of_find_none key missing)).map Prod.fst

/-- An erasure takes its key out of the list and leaves the others in their
order. -/
theorem keyList_erase (map : SortedMap K V) (key : K) :
    (map.erase key).keyList = map.keyList.filter (fun other => decide (other ≠ key)) := by
  rw [keyList, erase, keyList, List.filter_map]
  rfl

end SortedMap

end Sopmq
