import Mathlib.Data.Fin.VecNotation
import Mathlib.Data.Fintype.Perm
import Mathlib.Data.List.FinRange
import Mathlib.Data.List.OfFn
import Mathlib.Tactic.FinCases
import Sopmq.Basic
import Sopmq.KeyedMap
import Sopmq.SortedMap

/-!
# The ring of nodes

`ring` holds every node in two maps, by the start of its range and by its
identifier. The replicas of a key are found from the first range start above the
key by stepping back and forth with wrap-around, through iterators, which here
are positions in the sorted map.

A node pointer is a node of the ring or null. The liveness of nodes and the
permutation drawn by the shuffle are parameters of the quorum selection.
-/

namespace Sopmq

/-- What the ring reads of a `node`: its identifier and the start of its
range. Its endpoint and its liveness are no part of the ring. -/
structure Node where
  nodeId : UInt32
  rangeStart : UInt128
deriving DecidableEq, Repr

/-- The errors raised by the ring, with their texts. The last one stands for
dereferencing the end of the map, which the source does not check. -/
inductive RingError where
  | idConflict (what : String)
  | rangeConflict (what : String)
  | unavailable (what : String)
  | endDereferenced
deriving DecidableEq, Repr

/-- `ring`. Both maps hold the same nodes, each filed under its own key. The
three conditions are part of the value, and `addNode` keeps them. -/
structure Ring where
  ringByRange : SortedMap UInt128 Node
  nodesById : KeyedMap UInt32 Node
  filedByRange : ∀ entry ∈ ringByRange.entries, entry.1 = entry.2.rangeStart
  filedById : ∀ entry ∈ nodesById.entries, entry.1 = entry.2.nodeId
  sameNodes : ∀ node, node ∈ ringByRange.entries.map Prod.snd ↔
    node ∈ nodesById.entries.map Prod.snd

namespace Ring

/-- `ring::ring`: both maps are empty. -/
def empty : Ring where
  ringByRange := SortedMap.empty
  nodesById := KeyedMap.empty
  filedByRange := fun _ member => absurd member List.not_mem_nil
  filedById := fun _ member => absurd member List.not_mem_nil
  sameNodes := fun _ => Iff.rfl

/-- `ring::check_no_conflict`: the error to raise, if any. The identifier is
looked at first, and the start of the range only if it is free. -/
def checkNoConflict (ring : Ring) (newNode : Node) : Option RingError :=
  match ring.nodesById.find newNode.nodeId with
  | some _ =>
      some (.idConflict ("the node id " ++ toString newNode.nodeId ++ " is already taken"))
  | none =>
      match ring.ringByRange.find newNode.rangeStart with
      | some holder =>
          some (.rangeConflict ("the range " ++ toString newNode.rangeStart.val ++ " which node " ++
            toString newNode.nodeId ++ " is proposing to handle " ++
            " is already handled by node " ++ toString holder.nodeId))
      | none => none

/-- There is no conflict exactly when both keys of the new node are free. -/
theorem checkNoConflict_eq_none_iff (ring : Ring) (newNode : Node) :
    ring.checkNoConflict newNode = none ↔
      ring.nodesById.find newNode.nodeId = none ∧
        ring.ringByRange.find newNode.rangeStart = none := by
  unfold checkNoConflict
  split
  · next taken => simp [taken]
  · next free =>
    split
    · next taken => simp [taken]
    · next unclaimed => simp [free, unclaimed]

/-- Both maps gain the accepted node, filed under its own keys, and lose
nothing. -/
theorem accepted_entries (ring : Ring) (node : Node)
    (accepted : ring.checkNoConflict node = none) :
    (ring.ringByRange.emplace node.rangeStart node).entries.Perm
        ((node.rangeStart, node) :: ring.ringByRange.entries) ∧
      (ring.nodesById.insert node.nodeId node).entries.Perm
        ((node.nodeId, node) :: ring.nodesById.entries) := by
  obtain ⟨free, unclaimed⟩ := (ring.checkNoConflict_eq_none_iff node).mp accepted
  constructor
  · exact SortedMap.emplaceAt_perm _ _ _ (ring.ringByRange.not_mem_of_find_none _ unclaimed)
  · rw [KeyedMap.insert_entries_of_absent _ _ _ free]
    exact List.perm_append_comm

/-- `ring::add_node`: the check may raise, and afterwards both insertions
succeed. -/
def addNode (ring : Ring) (node : Node) : Except RingError Ring :=
  match checked : ring.checkNoConflict node with
  | some error => .error error
  | none =>
      .ok
        { ringByRange := ring.ringByRange.emplace node.rangeStart node
          nodesById := ring.nodesById.insert node.nodeId node
          filedByRange := by
            intro entry member
            rw [(ring.accepted_entries node checked).1.mem_iff] at member
            rcases List.mem_cons.mp member with rfl | old
            · rfl
            · exact ring.filedByRange entry old
          filedById := by
            intro entry member
            rw [(ring.accepted_entries node checked).2.mem_iff] at member
            rcases List.mem_cons.mp member with rfl | old
            · rfl
            · exact ring.filedById entry old
          sameNodes := by
            intro other
            obtain ⟨byRange, byId⟩ := ring.accepted_entries node checked
            rw [(byRange.map Prod.snd).mem_iff, (byId.map Prod.snd).mem_iff, List.map_cons,
              List.map_cons, List.mem_cons, List.mem_cons, ring.sameNodes other] }

/-- The ring after adding the nodes one after the other, or the error of the
first that conflicts. -/
def build (nodes : List Node) : Except RingError Ring := nodes.foldlM addNode empty

/-- Three nodes that own the keys from 10, from 20 and from 30 on. Runs on
fixed inputs use this ring. -/
def sample : Ring := (build [⟨1, 10⟩, ⟨2, 20⟩, ⟨3, 30⟩]).toOption.getD empty

/-- `ring::find_secondary_node`: the first node above the key, with
wrap-around. -/
def findSecondaryNode (ring : Ring) (key : UInt128) : Nat :=
  let iter := ring.ringByRange.upperBound key
  if iter = ring.ringByRange.size then 0 else iter

/-- `ring::find_primary_node`: the node before the secondary, with
wrap-around. -/
def findPrimaryNode (ring : Ring) (secondaryIter : Nat) : Nat :=
  (if secondaryIter = 0 then ring.ringByRange.size else secondaryIter) - 1

/-- `ring::find_tertiary_node`: the node after the secondary, with
wrap-around. -/
def findTertiaryNode (ring : Ring) (secondaryIter : Nat) : Nat :=
  if secondaryIter + 1 = ring.ringByRange.size then 0 else secondaryIter + 1

/-- `ring::find_primary_node_for_key`, which raises on an empty ring before
it looks at an iterator. -/
def findPrimaryNodeForKey (ring : Ring) (key : UInt128) : Except RingError Node :=
  if ring.ringByRange.entries.isEmpty then
    .error (.unavailable "There are no nodes in the ring")
  else
    let secondaryIter := ring.findSecondaryNode key
    let primaryIter := ring.findPrimaryNode secondaryIter
    match ring.ringByRange.entries[primaryIter]? with
    | some primary => .ok primary.2
    | none => .error .endDereferenced

/-- `ring::find_nodes_for_key`: primary, secondary and tertiary of the key.
On a ring of one or two nodes some of them are the same. -/
def findNodesForKey (ring : Ring) (key : UInt128) : Except RingError (Fin 3 → Node) :=
  if ring.ringByRange.entries.isEmpty then
    .error (.unavailable "There are no nodes in the ring")
  else
    let secondaryIter := ring.findSecondaryNode key
    let primaryIter := ring.findPrimaryNode secondaryIter
    let tertiaryIter := ring.findTertiaryNode secondaryIter
    match ring.ringByRange.entries[primaryIter]?, ring.ringByRange.entries[secondaryIter]?,
      ring.ringByRange.entries[tertiaryIter]? with
    | some primary, some secondary, some tertiary =>
        .ok ![primary.2, secondary.2, tertiary.2]
    | _, _, _ => .error .endDereferenced

/-- The selection loop: live nodes are written to consecutive slots, and
counted. -/
def selectLive (isAlive : Node → Bool) :
    List Node → (Fin 3 → Option Node) → Nat → (Fin 3 → Option Node) × Nat
  | [], outNodes, i => (outNodes, i)
  | node :: rest, outNodes, i =>
      if isAlive node then
        selectLive isAlive rest (fun slot => if slot.val = i then some node else outNodes slot)
          (i + 1)
      else
        selectLive isAlive rest outNodes i

/-- The comparisons that blank repeated nodes, one after the other. A later
one may meet a slot that an earlier one has blanked. -/
def compress (outNodes : Fin 3 → Option Node) : Fin 3 → Option Node :=
  let outNodes := if outNodes 0 = outNodes 1 then Function.update outNodes 1 none else outNodes
  let outNodes := if outNodes 1 = outNodes 2 then Function.update outNodes 2 none else outNodes
  if outNodes 0 = outNodes 2 then Function.update outNodes 2 none else outNodes

/-- `ring::find_quorum_for_operation`, for the permutation the shuffle
applies. The live positions are counted before repeated nodes are
blanked. -/
def findQuorumForOperation (ring : Ring) (isAlive : Node → Bool) (shuffle : Equiv.Perm (Fin 3))
    (key : UInt128) : Except RingError (Fin 3 → Option Node) := do
  let nodes ← ring.findNodesForKey key
  let (outNodes, i) := selectLive isAlive (List.ofFn (nodes ∘ shuffle)) (fun _ => none) 0
  if i < 2 then
    .error (.unavailable ("No quorum of nodes is up and available for key " ++ toString key.val))
  else
    .ok (compress outNodes)

section Lookup

variable (ring : Ring) (key : UInt128)

/-- On a nonempty ring the three iterators point at nodes: the secondary is
not the end, the decrement starts above the beginning and the increment
wraps. -/
theorem iterators_valid (nonempty : 0 < ring.ringByRange.size) :
    ring.findSecondaryNode key < ring.ringByRange.size ∧
      ring.findPrimaryNode (ring.findSecondaryNode key) < ring.ringByRange.size ∧
      ring.findTertiaryNode (ring.findSecondaryNode key) < ring.ringByRange.size := by
  have bound := ring.ringByRange.upperBound_le_size key
  have valid : ring.findSecondaryNode key < ring.ringByRange.size := by
    unfold findSecondaryNode
    dsimp only
    split <;> omega
  refine ⟨valid, ?_, ?_⟩
  · unfold findPrimaryNode
    split <;> omega
  · unfold findTertiaryNode
    split <;> omega

/-- The position in the ring of each of the three replicas of the key. -/
def position : Fin 3 → Nat :=
  ![ring.findPrimaryNode (ring.findSecondaryNode key), ring.findSecondaryNode key,
    ring.findTertiaryNode (ring.findSecondaryNode key)]

/-- On a nonempty ring the lookup returns the nodes at its three positions,
so that no end is dereferenced. -/
theorem findNodesForKey_eq (nonempty : 0 < ring.ringByRange.size) :
    ∃ replicas, ring.findNodesForKey key = .ok replicas ∧
      ∀ p, (ring.ringByRange.entries[ring.position key p]?).map Prod.snd = some (replicas p) := by
  obtain ⟨secondaryValid, primaryValid, tertiaryValid⟩ := ring.iterators_valid key nonempty
  obtain ⟨primary, atPrimary⟩ : ∃ entry, ring.ringByRange.entries[
      ring.findPrimaryNode (ring.findSecondaryNode key)]? = some entry :=
    ⟨_, List.getElem?_eq_getElem primaryValid⟩
  obtain ⟨secondary, atSecondary⟩ : ∃ entry, ring.ringByRange.entries[
      ring.findSecondaryNode key]? = some entry :=
    ⟨_, List.getElem?_eq_getElem secondaryValid⟩
  obtain ⟨tertiary, atTertiary⟩ : ∃ entry, ring.ringByRange.entries[
      ring.findTertiaryNode (ring.findSecondaryNode key)]? = some entry :=
    ⟨_, List.getElem?_eq_getElem tertiaryValid⟩
  have occupied : ring.ringByRange.entries.isEmpty = false := by
    cases stored : ring.ringByRange.entries with
    | nil => simp [SortedMap.size, stored] at nonempty
    | cons _ _ => rfl
  refine ⟨![primary.2, secondary.2, tertiary.2], ?_, ?_⟩
  · simp [findNodesForKey, occupied, atPrimary, atSecondary, atTertiary]
  · intro p
    fin_cases p
    · simp [position, atPrimary]
    · simp [position, atSecondary]
    · simp [position, atTertiary]

/-- A lookup that returns was made on a nonempty ring, since it raises on an
empty one. -/
theorem size_pos_of_found (replicas : Fin 3 → Node)
    (found : ring.findNodesForKey key = .ok replicas) : 0 < ring.ringByRange.size := by
  cases stored : ring.ringByRange.entries with
  | nil => simp [findNodesForKey, stored] at found
  | cons _ _ => simp [SortedMap.size, stored]

/-- A quorum is found among replicas: where the lookup of these raises,
there is none. -/
theorem exists_replicas (isAlive : Node → Bool) (shuffle : Equiv.Perm (Fin 3))
    (outNodes : Fin 3 → Option Node)
    (returned : ring.findQuorumForOperation isAlive shuffle key = .ok outNodes) :
    ∃ replicas, ring.findNodesForKey key = .ok replicas := by
  cases found : ring.findNodesForKey key with
  | ok replicas => exact ⟨replicas, rfl⟩
  | error error =>
    rw [findQuorumForOperation, found] at returned
    cases returned

/-- Replicas coincide exactly when their positions do: nodes at different
positions have different range starts. -/
theorem replicas_eq_iff (replicas : Fin 3 → Node)
    (found : ring.findNodesForKey key = .ok replicas) (p q : Fin 3) :
    replicas p = replicas q ↔ ring.position key p = ring.position key q := by
  obtain ⟨replicas', found', located⟩ :=
    ring.findNodesForKey_eq key (ring.size_pos_of_found key replicas found)
  obtain rfl : replicas = replicas' := Except.ok.inj (found.symm.trans found')
  obtain ⟨first, atFirst, same⟩ := Option.map_eq_some_iff.mp (located p)
  obtain ⟨second, atSecond, same'⟩ := Option.map_eq_some_iff.mp (located q)
  constructor
  · intro equal
    refine ring.ringByRange.position_injective atFirst atSecond ?_
    rw [ring.filedByRange first (List.mem_of_getElem? atFirst),
      ring.filedByRange second (List.mem_of_getElem? atSecond), same, same', equal]
  · intro equal
    rw [equal, atSecond] at atFirst
    rw [← same, ← same', Option.some.inj atFirst]

/-- How often a node repeats among the three positions is a matter of the
size of the ring alone. -/
theorem position_eq_iff (nonempty : 0 < ring.ringByRange.size) :
    (ring.position key 0 = ring.position key 1 ↔ ring.ringByRange.size = 1) ∧
      (ring.position key 1 = ring.position key 2 ↔ ring.ringByRange.size = 1) ∧
      (ring.position key 0 = ring.position key 2 ↔ ring.ringByRange.size ≤ 2) := by
  obtain ⟨secondaryValid, _, _⟩ := ring.iterators_valid key nonempty
  simp only [position, findPrimaryNode, findTertiaryNode, Matrix.cons_val]
  refine ⟨?_, ?_, ?_⟩
  · split <;> omega
  · split <;> omega
  · split <;> split <;> omega

/-- Two positions hold one node on a ring of one node, and otherwise only as
primary and tertiary on a ring of two. -/
theorem repeated_position (nonempty : 0 < ring.ringByRange.size) (p q : Fin 3)
    (different : p ≠ q) (same : ring.position key p = ring.position key q) :
    ring.ringByRange.size = 1 ∨ ring.ringByRange.size = 2 ∧ p ≠ 1 ∧ q ≠ 1 := by
  obtain ⟨firstSame, lastSame, wraps⟩ := ring.position_eq_iff key nonempty
  match p, q with
  | 0, 0 | 1, 1 | 2, 2 => exact absurd rfl different
  | 0, 1 => exact Or.inl (firstSame.mp same)
  | 1, 0 => exact Or.inl (firstSame.mp same.symm)
  | 1, 2 => exact Or.inl (lastSame.mp same)
  | 2, 1 => exact Or.inl (lastSame.mp same.symm)
  | 0, 2 =>
    have small := wraps.mp same
    exact (show _ ∨ _ by omega).imp_right (fun two => ⟨two, by decide, by decide⟩)
  | 2, 0 =>
    have small := wraps.mp same.symm
    exact (show _ ∨ _ by omega).imp_right (fun two => ⟨two, by decide, by decide⟩)

/-- On a ring of one node all replicas of a key are that node. -/
theorem replicas_of_one (replicas : Fin 3 → Node)
    (found : ring.findNodesForKey key = .ok replicas) (one : ring.ringByRange.size = 1)
    (p : Fin 3) : replicas p = replicas 0 := by
  obtain ⟨firstSame, _, wraps⟩ := ring.position_eq_iff key (by omega)
  rw [ring.replicas_eq_iff key replicas found]
  match p with
  | 0 => rfl
  | 1 => exact (firstSame.mpr one).symm
  | 2 => exact (wraps.mpr (by omega)).symm

end Lookup

end Ring

end Sopmq
