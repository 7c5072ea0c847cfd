import Mathlib.Data.List.Nodup

/-!
# Maps with unique keys

A finite map as the list of its entries, with the distinctness of the keys as a
field. Insertion leaves an existing entry alone, as `emplace` and `insert` of the
standard associative containers do, and assignment replaces it. The order of the list
carries no meaning: where a program goes through an unordered container, the order is a
parameter.
-/

namespace Sopmq

universe u v

/-- Among items with distinct keys, removing a key removes the one item that
a search for the key finds. -/
theorem perm_filter_key {K : Type u} {V : Type v} [DecidableEq K] (keyOf : V → K) (key : K)
    (items : List V) (item : V) (distinct : (items.map keyOf).Nodup)
    (located : items.find? (fun other => decide (keyOf other = key)) = some item) :
    items.Perm (item :: items.filter (fun other => decide (keyOf other ≠ key))) := by
  induction items with
  | nil => exact absurd located (by simp)
  | cons first rest inductionHypothesis =>
    rw [List.map_cons, List.nodup_cons] at distinct
    obtain ⟨fresh, restDistinct⟩ := distinct
    by_cases same : keyOf first = key
    · have equal : first = item := by simpa [same] using located
      have others : ∀ other ∈ rest, decide (keyOf other ≠ key) = true := by
        intro other member
        have different : keyOf other ≠ key := by
          rintro rfl
          exact fresh (same ▸ List.mem_map_of_mem member)
        simpa using different
      rw [← equal, List.filter_cons_of_neg (by simpa using same), List.filter_eq_self.mpr others]
    · have later : rest.find? (fun other => decide (keyOf other = key)) = some item := by
        simpa [same] using located
      have moved := (inductionHypothesis restDistinct later).cons first
      simpa [same] using moved.trans (List.Perm.swap item first _)

/-- A finite map from keys to values. That no key has two entries is part of
the value. -/
structure KeyedMap (K : Type u) (V : Type v) where
  entries : List (K × V)
  distinct : (entries.map Prod.fst).Nodup

namespace KeyedMap

variable {K : Type u} {V : Type v}

/-- The map without entries. -/
def empty : KeyedMap K V where
  entries := []
  distinct := List.nodup_nil

/-- An order in which the entries of a map are visited. The standard leaves
that of an unordered container open; all that is known is that every entry
is visited once. -/
structure Iteration (K : Type u) (V : Type v) where
  visit : KeyedMap K V → List (K × V)
  each : ∀ map, (visit map).Perm map.entries

/-- The order of the list of entries, as one possible order, for runs on
fixed inputs. -/
def Iteration.listed : Iteration K V where
  visit := entries
  each _ := List.Perm.refl _

variable [DecidableEq K]

/-- The value filed under a key. As the keys are distinct, it does not
matter which entry is looked at first. -/
def find (map : KeyedMap K V) (key : K) : Option V :=
  (map.entries.find? (fun entry => decide (entry.1 = key))).map Prod.snd

/-- Keep the entries whose key and value satisfy a test. Fewer entries have
distinct keys still. -/
def filter (map : KeyedMap K V) (test : K × V → Bool) : KeyedMap K V where
  entries := map.entries.filter test
  distinct := map.distinct.sublist ((List.filter_sublist).map _)

/-- Remove the entry of a key, if there is one. -/
def erase (map : KeyedMap K V) (key : K) : KeyedMap K V :=
  map.filter (fun entry => decide (entry.1 ≠ key))

/-- The entries of a map are the keys with the values that are found under
them. -/
theorem mem_entries_iff (map : KeyedMap K V) (key : K) (value : V) :
    (key, value) ∈ map.entries ↔ map.find key = some value := by
  constructor
  · intro member
    cases found : map.entries.find? (fun entry => decide (entry.1 = key)) with
    | none =>
      have missed := List.find?_eq_none.mp found _ member
      simp at missed
    | some entry =>
      have same : entry.1 = key := by simpa using List.find?_some found
      have shared := List.inj_on_of_nodup_map map.distinct (List.mem_of_find?_eq_some found) member
        same
      simp [find, found, shared]
  · intro found
    obtain ⟨entry, located, rfl⟩ := Option.map_eq_some_iff.mp found
    have same : entry.1 = key := by simpa using List.find?_some located
    rw [← same]
    exact List.mem_of_find?_eq_some located

/-- Nothing is found under a key exactly when no entry has it. -/
theorem find_eq_none_iff (map : KeyedMap K V) (key : K) :
    map.find key = none ↔ key ∉ map.entries.map Prod.fst := by
  constructor
  · intro missing member
    obtain ⟨⟨key', value⟩, present, rfl⟩ := List.mem_map.mp member
    rw [(map.mem_entries_iff key' value).mp present] at missing
    exact Option.some_ne_none _ missing
  · intro absent
    cases found : map.find key with
    | none => rfl
    | some value =>
      exact absurd (List.mem_map.mpr ⟨_, (map.mem_entries_iff key value).mpr found, rfl⟩) absent

/-- Something is found under a key exactly when some entry has it. -/
theorem find_isSome_iff (map : KeyedMap K V) (key : K) :
    (map.find key).isSome ↔ key ∈ map.entries.map Prod.fst := by
  rw [Option.isSome_iff_ne_none, ne_eq, find_eq_none_iff, not_not]

/-- Add an entry under a key that has none; an existing entry stays. -/
def insert (map : KeyedMap K V) (key : K) (value : V) : KeyedMap K V :=
  if absent : key ∉ map.entries.map Prod.fst then
    { entries := map.entries ++ [(key, value)]
      distinct := by
        rw [List.map_append]
        refine List.nodup_append.mpr ⟨map.distinct, List.nodup_singleton _, ?_⟩
        intro key' member other single same
        have equal : other = key := by simpa using single
        exact absent ((same.trans equal) ▸ member) }
  else
    map

/-- A change of values leaves every entry its key. -/
theorem adjusted_key (key : K) (change : V → V) (entry : K × V) :
    (if entry.1 = key then (entry.1, change entry.2) else entry).1 = entry.1 := by
  split <;> rfl

/-- Change the value of a key that has an entry. A key without one gets
none. -/
def adjust (map : KeyedMap K V) (key : K) (change : V → V) : KeyedMap K V where
  entries := map.entries.map fun entry =>
    if entry.1 = key then (entry.1, change entry.2) else entry
  distinct := by
    rw [List.map_map]
    refine (List.map_congr_left fun entry _ => ?_) ▸ map.distinct
    exact (adjusted_key key change entry).symm

/-- A change leaves the keys as they are, in their order. -/
theorem keys_adjust (map : KeyedMap K V) (key : K) (change : V → V) :
    (map.adjust key change).entries.map Prod.fst = map.entries.map Prod.fst := by
  rw [adjust, List.map_map]
  exact List.map_congr_left fun entry _ => adjusted_key key change entry

/-- A change affects only the value of its own key, and everything else is
found as before. -/
theorem find_adjust (map : KeyedMap K V) (key other : K) (change : V → V) :
    (map.adjust key change).find other =
      if other = key then (map.find other).map change else map.find other := by
  simp only [find, adjust, List.find?_map, Function.comp_def, adjusted_key]
  cases located : map.entries.find? (fun entry => decide (entry.1 = other)) with
  | none => simp
  | some entry =>
    have here : entry.1 = other := by simpa using List.find?_some located
    by_cases same : other = key <;> simp [here, same]

/-- An insertion under a new key puts the entry behind the others. -/
theorem insert_entries_of_absent (map : KeyedMap K V) (key : K) (value : V)
    (missing : map.find key = none) :
    (map.insert key value).entries = map.entries ++ [(key, value)] := by
  have absent := (map.find_eq_none_iff key).mp missing
  rw [insert, dif_pos absent]

/-- Nothing is found in an empty map. -/
theorem find_empty (key : K) : (empty : KeyedMap K V).find key = none := rfl

/-- What is found after a filter is what was found before, if it passes the
test. -/
theorem find_filter (map : KeyedMap K V) (test : K × V → Bool) (key : K) :
    (map.filter test).find key = (map.find key).filter (fun value => test (key, value)) := by
  apply Option.ext
  intro value
  rw [← mem_entries_iff, Option.filter_eq_some_iff, ← mem_entries_iff]
  exact List.mem_filter

/-- After an erasure nothing is found under that key, and everything else as
before. -/
theorem find_erase (map : KeyedMap K V) (key other : K) :
    (map.erase key).find other = if other = key then none else map.find other := by
  rw [erase, find_filter]
  split
  · next same => simp [same]
  · next different => cases map.find other <;> simp [different]

/-- Erasing takes away the one entry of the key, and no other. -/
theorem entries_perm_erase (map : KeyedMap K V) (key : K) (value : V)
    (found : map.find key = some value) :
    map.entries.Perm ((key, value) :: (map.erase key).entries) := by
  obtain ⟨entry, located, rfl⟩ := Option.map_eq_some_iff.mp found
  have same : entry.1 = key := by simpa using List.find?_some located
  have taken := perm_filter_key Prod.fst key map.entries entry map.distinct located
  rw [← same] at taken ⊢
  exact taken

/-- Insertion affects only its own key, and only when that key has no
entry. -/
theorem find_insert (map : KeyedMap K V) (key other : K) (value : V) :
    (map.insert key value).find other =
      if other = key then some ((map.find key).getD value) else map.find other := by
  unfold insert
  split
  · next absent =>
    have missing := (map.find_eq_none_iff key).mpr absent
    apply Option.ext
    intro found
    rw [← mem_entries_iff, List.mem_append, List.mem_singleton, mem_entries_iff]
    split
    · next same =>
      rw [same, missing]
      simp [eq_comm]
    · next different => simp [different]
  · next present =>
    split
    · next same =>
      rw [same]
      cases found : map.find key with
      | none => exact absurd ((map.find_eq_none_iff key).mp found) present
      | some old => rfl
    · rfl

/-- Assignment to a key, whether or not it has an entry. -/
def set (map : KeyedMap K V) (key : K) (value : V) : KeyedMap K V :=
  (map.erase key).insert key value

/-- After an assignment the key has the new value, and everything else is
found as before. -/
theorem find_set (map : KeyedMap K V) (key other : K) (value : V) :
    (map.set key value).find other = if other = key then some value else map.find other := by
  rw [set, find_insert, find_erase, find_erase]
  split <;> simp

end KeyedMap

end Sopmq
