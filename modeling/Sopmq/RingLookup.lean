import Mathlib.Data.Set.Insert
import Sopmq.Circle
import Sopmq.RingAdditions

/-!
# The replicas of a key

The range starts of a ring are points on the circle of 128-bit keys. The lookup
finds the secondary by an upper bound and steps back and forth from it; what it
returns is the owner of the key on that circle and the two points after the owner,
for rings of every size and keys on both sides of the wrap-around.

A node that is added takes the keys on the arc from its range start up to the next
one and leaves the primaries of all others. Among the three replicas it appears in
one place at most, and pushes out one of the nodes that were there.
-/

namespace Sopmq

namespace Ring

/-- The range starts of the nodes of a ring, as points on the circle of
keys. -/
def rangeStarts (ring : Ring) : Set UInt128 :=
  { start | ∃ node ∈ ring.nodes, node.rangeStart = start }

/-- They are the keys of the map by range, because each node is filed under
its own. -/
theorem rangeStarts_eq_keys (ring : Ring) : ring.rangeStarts = ring.ringByRange.keys := by
  ext start
  constructor
  · rintro ⟨node, member, rfl⟩
    obtain ⟨entry, stored, rfl⟩ := List.mem_map.mp member
    exact ⟨entry, stored, ring.filedByRange entry stored⟩
  · rintro ⟨entry, stored, rfl⟩
    exact ⟨entry.2, List.mem_map_of_mem stored, (ring.filedByRange entry stored).symm⟩

section Replicas

variable (ring : Ring) (key : UInt128)

/-- The entry at the position of a replica has the replica, under its range
start. -/
theorem entry_of_replica (replicas : Fin 3 → Node)
    (found : ring.findNodesForKey key = .ok replicas) (p : Fin 3) :
    ring.ringByRange.entries[ring.position key p]? =
      some ((replicas p).rangeStart, replicas p) := by
  obtain ⟨replicas', found', located⟩ :=
    ring.findNodesForKey_eq key (ring.size_pos_of_found key replicas found)
  obtain rfl : replicas = replicas' := Except.ok.inj (found.symm.trans found')
  obtain ⟨entry, stored, same⟩ := Option.map_eq_some_iff.mp (located p)
  rw [stored, ← same, ← ring.filedByRange entry (List.mem_of_getElem? stored)]

/-- A replica of a key is a node of the ring. -/
theorem replica_mem (replicas : Fin 3 → Node) (found : ring.findNodesForKey key = .ok replicas)
    (p : Fin 3) : replicas p ∈ ring.nodes :=
  List.mem_map.mpr ⟨_, List.mem_of_getElem? (ring.entry_of_replica key replicas found p), rfl⟩

/-- Stepping back from the secondary ends before the upper bound of the key,
and the three positions follow each other. -/
theorem position_steps (nonempty : 0 < ring.ringByRange.size) :
    ring.position key 0 = (if ring.ringByRange.upperBound key = 0 then ring.ringByRange.size
        else ring.ringByRange.upperBound key) - 1 ∧
      ring.position key 1 =
        Circle.nextPosition ring.ringByRange.size (ring.position key 0) ∧
      ring.position key 2 =
        Circle.nextPosition ring.ringByRange.size (ring.position key 1) := by
  have bound := ring.ringByRange.upperBound_le_size key
  simp only [position, findPrimaryNode, findTertiaryNode, findSecondaryNode, Matrix.cons_val,
    Circle.nextPosition]
  refine ⟨?_, ?_, rfl⟩
  · split_ifs <;> omega
  · split_ifs <;> omega

/-- The first replica owns the key, and each of the others follows the one
before it. This is the placement on the circle, without iterators. -/
theorem replicas_cyclic (replicas : Fin 3 → Node)
    (found : ring.findNodesForKey key = .ok replicas) :
    Circle.Owner ring.rangeStarts key (replicas 0).rangeStart ∧
      Circle.Next ring.rangeStarts (replicas 0).rangeStart (replicas 1).rangeStart ∧
      Circle.Next ring.rangeStarts (replicas 1).rangeStart (replicas 2).rangeStart := by
  obtain ⟨first, second, third⟩ :=
    ring.position_steps key (ring.size_pos_of_found key replicas found)
  have primary := ring.entry_of_replica key replicas found 0
  have secondary := ring.entry_of_replica key replicas found 1
  have tertiary := ring.entry_of_replica key replicas found 2
  rw [ring.rangeStarts_eq_keys]
  refine ⟨?_, ?_, ?_⟩
  · rw [first] at primary
    exact ring.ringByRange.owner_key key primary
  · rw [second] at secondary
    exact ring.ringByRange.next_key primary secondary
  · rw [third] at tertiary
    exact ring.ringByRange.next_key secondary tertiary

/-- The primary alone is found as the first of the three, by the same
steps. -/
theorem findPrimaryNodeForKey_eq (replicas : Fin 3 → Node)
    (found : ring.findNodesForKey key = .ok replicas) :
    ring.findPrimaryNodeForKey key = .ok (replicas 0) := by
  have primary := ring.entry_of_replica key replicas found 0
  have occupied : ring.ringByRange.entries.isEmpty = false :=
    List.isEmpty_eq_false_iff_exists_mem.mpr ⟨_, List.mem_of_getElem? primary⟩
  simp only [position, Matrix.cons_val] at primary
  simp [findPrimaryNodeForKey, occupied, primary]

/-- On a ring with nodes the lookup returns the owner of the key and the two
nodes after it. They are distinct on a ring of at least three nodes; on two
nodes the tertiary is the primary again, and on one node all are the same.
`find_primary_node_for_key` returns the first of them. The iterator that is
decremented is above the beginning, and those that are dereferenced are
before the end. -/
theorem findNodesForKey_cyclic (nonempty : ring.nodes ≠ []) :
    ∃ primary ∈ ring.nodes, ∃ secondary ∈ ring.nodes, ∃ tertiary ∈ ring.nodes,
      ring.findNodesForKey key = .ok ![primary, secondary, tertiary] ∧
      Circle.Owner ring.rangeStarts key primary.rangeStart ∧
      Circle.Next ring.rangeStarts primary.rangeStart secondary.rangeStart ∧
      Circle.Next ring.rangeStarts secondary.rangeStart tertiary.rangeStart ∧
      (3 ≤ ring.nodes.length →
        primary ≠ secondary ∧ secondary ≠ tertiary ∧ primary ≠ tertiary) ∧
      (ring.nodes.length = 2 → tertiary = primary) ∧
      (ring.nodes.length = 1 → secondary = primary ∧ tertiary = primary) ∧
      ring.findPrimaryNodeForKey key = .ok primary ∧
      ring.findPrimaryNode (ring.findSecondaryNode key) + 1 =
        (if ring.findSecondaryNode key = 0 then ring.ringByRange.size
          else ring.findSecondaryNode key) ∧
      ∀ p, ring.position key p < ring.ringByRange.size := by
  have positive := ring.size_pos nonempty
  obtain ⟨replicas, found, _⟩ := ring.findNodesForKey_eq key positive
  obtain ⟨owner, second, third⟩ := ring.replicas_cyclic key replicas found
  obtain ⟨firstSame, lastSame, wraps⟩ := ring.position_eq_iff key positive
  have same := ring.replicas_eq_iff key replicas found
  have listed : ![replicas 0, replicas 1, replicas 2] = replicas := by
    funext p
    fin_cases p <;> rfl
  refine ⟨replicas 0, ring.replica_mem key replicas found 0, replicas 1,
    ring.replica_mem key replicas found 1, replicas 2, ring.replica_mem key replicas found 2,
    listed ▸ found, owner, second, third, ?_, ?_, ?_,
    ring.findPrimaryNodeForKey_eq key replicas found, ?_, ?_⟩
  · rw [ring.nodes_length, ne_eq, ne_eq, ne_eq, same, same, same, firstSame, lastSame, wraps]
    omega
  · rw [ring.nodes_length]
    intro two
    exact ((same 0 2).mpr (wraps.mpr two.le)).symm
  · rw [ring.nodes_length]
    intro one
    exact ⟨((same 0 1).mpr (firstSame.mpr one)).symm,
      ((same 0 2).mpr (wraps.mpr (by omega))).symm⟩
  · unfold findPrimaryNode
    split <;> omega
  · intro p
    exact (List.getElem?_eq_some_iff.mp (ring.entry_of_replica key replicas found p)).1

end Replicas

/-- A ring of four nodes, added in another order than that of their
ranges. -/
def fourNodes : Ring := (Additions.after [⟨3, 30⟩, ⟨1, 10⟩, ⟨4, 40⟩, ⟨2, 20⟩]).ring

/-- A key below all range starts belongs to the node with the greatest one,
around the end of the circle. -/
theorem findNodesForKey_cyclic_below :
    ∃ primary ∈ fourNodes.nodes, Circle.Owner fourNodes.rangeStarts 5 primary.rangeStart ∧
      fourNodes.findPrimaryNodeForKey 5 = .ok primary ∧ primary = ⟨4, 40⟩ := by
  obtain ⟨primary, member, _, _, _, _, _, owner, _, _, _, _, _, found, _⟩ :=
    findNodesForKey_cyclic fourNodes 5 (by decide)
  have evaluated : fourNodes.findPrimaryNodeForKey 5 = .ok ⟨4, 40⟩ := rfl
  exact ⟨primary, member, owner, found, Except.ok.inj (found.symm.trans evaluated)⟩

section Growth

variable (ring after : Ring) (node : Node) (key : UInt128)

/-- The position that a new node takes: before the first node with a greater
range start. -/
def insertedAt : Nat := ring.ringByRange.upperBound node.rangeStart

/-- This is a position of the ring or the one after its last. -/
theorem insertedAt_le : ring.insertedAt node ≤ ring.ringByRange.size :=
  ring.ringByRange.upperBound_le_size node.rangeStart

/-- The range start of an accepted node was free. -/
theorem absent_of_added (added : ring.addNode node = .ok after) :
    ∀ entry ∈ ring.ringByRange.entries, entry.1 ≠ node.rangeStart := by
  obtain ⟨free, _, _⟩ := ring.addNode_ok after node added
  exact ring.ringByRange.not_mem_of_find_none _
    ((ring.checkNoConflict_eq_none_iff node).mp free).2

/-- The entries after an addition are those before it, with the new one
among them. -/
theorem entries_after (added : ring.addNode node = .ok after) :
    after.ringByRange.entries =
      ring.ringByRange.entries.insertIdx (ring.insertedAt node) (node.rangeStart, node) := by
  obtain ⟨_, byRange, _⟩ := ring.addNode_ok after node added
  rw [byRange]
  exact SortedMap.emplaceAt_eq_insertIdx _ _ _ (ring.absent_of_added after node added)

/-- An addition makes the ring larger by one node. -/
theorem size_after (added : ring.addNode node = .ok after) :
    after.ringByRange.size = ring.ringByRange.size + 1 := by
  rw [SortedMap.size, ring.entries_after after node added,
    List.length_insertIdx_of_le_length (ring.insertedAt_le node)]
  rfl

/-- It moves the upper bound of a key by one where its range start is not
above the key. -/
theorem upperBound_after (added : ring.addNode node = .ok after) :
    after.ringByRange.upperBound key =
      ring.ringByRange.upperBound key + if node.rangeStart ≤ key then 1 else 0 := by
  obtain ⟨_, byRange, _⟩ := ring.addNode_ok after node added
  rw [byRange]
  exact SortedMap.upperBound_emplaceAt _ _ _ (ring.absent_of_added after node added) key

/-- The new entry and the old ones are found at their positions, the old
ones shifted where they come after the new one. -/
theorem getElem_after (added : ring.addNode node = .ok after) :
    after.ringByRange.entries[ring.insertedAt node]? = some (node.rangeStart, node) ∧
      ∀ p, after.ringByRange.entries[Circle.shifted (ring.insertedAt node) p]? =
        ring.ringByRange.entries[p]? := by
  have bound : ring.insertedAt node ≤ ring.ringByRange.entries.length := ring.insertedAt_le node
  rw [ring.entries_after after node added]
  constructor
  · simp [List.getElem?_insertIdx, bound]
  · intro p
    rw [Circle.shifted, List.getElem?_insertIdx]
    split_ifs <;> first | rfl | omega

/-- The new node is the primary and comes right after the old one, or the
old primary stays. -/
theorem primary_after (added : ring.addNode node = .ok after)
    (nonempty : 0 < ring.ringByRange.size) :
    after.position key 0 = ring.insertedAt node ∧
        Circle.RightAfter ring.ringByRange.size (ring.insertedAt node) (ring.position key 0) ∨
      after.position key 0 = Circle.shifted (ring.insertedAt node) (ring.position key 0) := by
  have first := (ring.position_steps key nonempty).1
  have larger := ring.size_after after node added
  have first' := (after.position_steps key (by omega)).1
  have bound := ring.ringByRange.upperBound_le_size key
  have inside := ring.insertedAt_le node
  rw [ring.upperBound_after after node key added, larger] at first'
  rw [first, first', Circle.RightAfter, Circle.shifted]
  by_cases upTo : node.rangeStart ≤ key
  · have order : ring.insertedAt node ≤ ring.ringByRange.upperBound key :=
      ring.ringByRange.upperBound_mono upTo
    rw [if_pos upTo, if_neg (Nat.succ_ne_zero _)]
    split_ifs <;> omega
  · have order : ring.ringByRange.upperBound key ≤ ring.insertedAt node :=
      ring.ringByRange.upperBound_mono (le_of_not_ge upTo)
    rw [if_neg upTo, Nat.add_zero]
    split_ifs <;> omega

variable (replicas replicas' : Fin 3 → Node)

/-- The replica at the position of the new node is the new node. -/
theorem replica_inserted (added : ring.addNode node = .ok after)
    (found' : after.findNodesForKey key = .ok replicas') (q : Fin 3)
    (here : after.position key q = ring.insertedAt node) : replicas' q = node := by
  have entry := after.entry_of_replica key replicas' found' q
  rw [here, (ring.getElem_after after node added).1] at entry
  exact (Prod.ext_iff.mp (Option.some.inj entry)).2.symm

/-- A replica at the shifted position of an old one is the old one. -/
theorem replica_shifted (added : ring.addNode node = .ok after)
    (found : ring.findNodesForKey key = .ok replicas)
    (found' : after.findNodesForKey key = .ok replicas') (p q : Fin 3)
    (here : after.position key q = Circle.shifted (ring.insertedAt node) (ring.position key p)) :
    replicas' q = replicas p := by
  have entry := after.entry_of_replica key replicas' found' q
  rw [here, (ring.getElem_after after node added).2,
    ring.entry_of_replica key replicas found p] at entry
  exact (Prod.ext_iff.mp (Option.some.inj entry)).2.symm

/-- The replicas after an addition are the old ones, unless the new node is
among them. As primary it takes the place of the old primary, and as
secondary or tertiary it pushes the old tertiary out. -/
theorem replicas_after (added : ring.addNode node = .ok after)
    (two : 2 ≤ ring.ringByRange.size) (found : ring.findNodesForKey key = .ok replicas)
    (found' : after.findNodesForKey key = .ok replicas') :
    replicas' = ![node, replicas 1, replicas 2] ∨
      replicas' = ![replicas 0, node, replicas 1] ∨
      replicas' = ![replicas 0, replicas 1, node] ∨ replicas' = replicas := by
  have larger := ring.size_after after node added
  obtain ⟨_, second, third⟩ := ring.position_steps key (by omega)
  obtain ⟨_, second', third'⟩ := after.position_steps key (by omega)
  rw [larger] at second' third'
  have inside (p : Fin 3) : ring.position key p < ring.ringByRange.size :=
    (List.getElem?_eq_some_iff.mp (ring.entry_of_replica key replicas found p)).1
  have new := ring.replica_inserted after node key replicas' added found'
  have old := ring.replica_shifted after node key replicas replicas' added found found'
  have listed : replicas' = ![replicas' 0, replicas' 1, replicas' 2] := by
    funext p
    fin_cases p <;> rfl
  rcases Circle.two_steps_after two (ring.insertedAt_le node) (inside 0) (inside 1) second third
      second' third' (ring.primary_after after node key added (by omega)) with
    ⟨at0, at1, at2⟩ | ⟨at0, at1, at2⟩ | ⟨at0, at1, at2⟩ | ⟨at0, at1, at2⟩
  · rw [listed, new 0 at0, old 1 1 at1, old 2 2 at2]
    exact Or.inl rfl
  · rw [listed, old 0 0 at0, new 1 at1, old 1 2 at2]
    exact Or.inr (Or.inl rfl)
  · rw [listed, old 0 0 at0, old 1 1 at1, new 2 at2]
    exact Or.inr (Or.inr (Or.inl rfl))
  · refine Or.inr (Or.inr (Or.inr (funext fun p => ?_)))
    fin_cases p
    · exact old 0 0 at0
    · exact old 1 1 at1
    · exact old 2 2 at2

/-- The nodes after an addition are those before it and the new one. -/
theorem nodes_after (added : ring.addNode node = .ok after) :
    after.nodes.Perm (node :: ring.nodes) := by
  obtain ⟨free, byRange, _⟩ := ring.addNode_ok after node added
  rw [nodes, byRange]
  exact (ring.accepted_entries node free).1.map Prod.snd

/-- The range starts after an addition are those before it and that of the
new node. -/
theorem rangeStarts_after (added : ring.addNode node = .ok after) :
    after.rangeStarts = insert node.rangeStart ring.rangeStarts := by
  ext start
  simp only [rangeStarts, Set.mem_ofPred_eq, Set.mem_insert_iff,
    (ring.nodes_after after node added).mem_iff, List.mem_cons, exists_eq_or_imp]
  exact or_congr_left eq_comm

/-- A node is determined by its range start, since no two nodes of a ring
share one. -/
theorem eq_of_rangeStart {first second : Node} (firstIn : first ∈ ring.nodes)
    (secondIn : second ∈ ring.nodes) (same : first.rangeStart = second.rangeStart) :
    first = second := by
  obtain ⟨entry, stored, rfl⟩ := List.mem_map.mp firstIn
  obtain ⟨other, stored', rfl⟩ := List.mem_map.mp secondIn
  obtain ⟨i, located⟩ := List.mem_iff_getElem?.mp stored
  obtain ⟨j, located'⟩ := List.mem_iff_getElem?.mp stored'
  have keys : entry.1 = other.1 := by
    rw [ring.filedByRange entry stored, ring.filedByRange other stored', same]
  obtain rfl := ring.ringByRange.position_injective located located' keys
  rw [Option.some.inj (located.symm.trans located')]

/-- The set of the replicas, written out for the three of them. -/
theorem mem_range_replicas (replicas : Fin 3 → Node) (node : Node) :
    node ∈ Set.range replicas ↔ node = replicas 0 ∨ node = replicas 1 ∨ node = replicas 2 := by
  constructor
  · rintro ⟨p, rfl⟩
    fin_cases p <;> simp
  · rintro (rfl | rfl | rfl) <;> exact ⟨_, rfl⟩

/-- The replicas of a key when a node takes the place of one of them, as
sets. -/
theorem range_replaced (replicas replicas' : Fin 3 → Node) (node : Node) (gone : Fin 3)
    (members : ∀ other, (other = replicas' 0 ∨ other = replicas' 1 ∨ other = replicas' 2) ↔
      other = node ∨ (other = replicas 0 ∨ other = replicas 1 ∨ other = replicas 2) ∧
        other ≠ replicas gone) :
    ∃ lost ∈ Set.range replicas,
      Set.range replicas' = insert node (Set.range replicas \ {lost}) := by
  refine ⟨replicas gone, ⟨gone, rfl⟩, Set.ext fun other => ?_⟩
  rw [Set.mem_insert_iff, Set.mem_sdiff, mem_range_replicas, mem_range_replicas,
    Set.mem_singleton_iff]
  exact members other

/-- On a ring of three nodes or more the set of the replicas changes in one
node at most: the new one comes in, and one of the old ones goes. -/
theorem replica_set_after (added : ring.addNode node = .ok after)
    (three : 3 ≤ ring.ringByRange.size) (found : ring.findNodesForKey key = .ok replicas)
    (found' : after.findNodesForKey key = .ok replicas') :
    Set.range replicas' = Set.range replicas ∨
      ∃ gone ∈ Set.range replicas,
        Set.range replicas' = insert node (Set.range replicas \ {gone}) := by
  obtain ⟨firstSame, lastSame, wraps⟩ := ring.position_eq_iff key (by omega)
  have same := ring.replicas_eq_iff key replicas found
  have apart01 : replicas 0 ≠ replicas 1 := by
    rw [ne_eq, same, firstSame]
    omega
  have apart12 : replicas 1 ≠ replicas 2 := by
    rw [ne_eq, same, lastSame]
    omega
  have apart02 : replicas 0 ≠ replicas 2 := by
    rw [ne_eq, same, wraps]
    omega
  rcases ring.replicas_after after node key replicas replicas' added (by omega) found found' with
    rfl | rfl | rfl | rfl
  · refine Or.inr (range_replaced _ _ node 0 fun other => ?_)
    simp only [Matrix.cons_val]
    grind
  · refine Or.inr (range_replaced _ _ node 2 fun other => ?_)
    simp only [Matrix.cons_val]
    grind
  · refine Or.inr (range_replaced _ _ node 2 fun other => ?_)
    simp only [Matrix.cons_val]
    grind
  · exact Or.inl rfl

/-- A node that is added becomes the primary of the keys on the arc from its
range start up to the next one, and all other keys keep their primary. On a
ring that had three nodes or more, the replicas of a key are the same nodes
as before, or the new node has taken the place of one of them. -/
theorem addNode_moves_own_range (nonempty : ring.nodes ≠ [])
    (added : ring.addNode node = .ok after) :
    ∃ next, Circle.Next after.rangeStarts node.rangeStart next ∧
      (Circle.InArc node.rangeStart next key → after.findPrimaryNodeForKey key = .ok node) ∧
      (¬ Circle.InArc node.rangeStart next key →
        after.findPrimaryNodeForKey key = ring.findPrimaryNodeForKey key) ∧
      (3 ≤ ring.nodes.length → ∃ replicas replicas',
        ring.findNodesForKey key = .ok replicas ∧ after.findNodesForKey key = .ok replicas' ∧
        (Set.range replicas' = Set.range replicas ∨
          ∃ gone ∈ Set.range replicas,
            Set.range replicas' = insert node (Set.range replicas \ {gone}))) := by
  have positive := ring.size_pos nonempty
  have larger := ring.size_after after node added
  obtain ⟨replicas, found, _⟩ := ring.findNodesForKey_eq key positive
  obtain ⟨replicas', found', _⟩ := after.findNodesForKey_eq key (by omega)
  have owns := (ring.replicas_cyclic key replicas found).1
  have owns' := (after.replicas_cyclic key replicas' found').1
  have starts := ring.rangeStarts_after after node added
  have members (other : Node) : other ∈ after.nodes ↔ other ∈ node :: ring.nodes :=
    (ring.nodes_after after node added).mem_iff
  have newIn : node ∈ after.nodes := (members node).mpr List.mem_cons_self
  have startIn : node.rangeStart ∈ after.rangeStarts := ⟨node, newIn, rfl⟩
  have here := (ring.getElem_after after node added).1
  obtain ⟨next, following⟩ : ∃ next, after.ringByRange.entries[
      Circle.nextPosition after.ringByRange.size (ring.insertedAt node)]? = some next :=
    ⟨_, List.getElem?_eq_getElem
      (Circle.nextPosition_lt (List.getElem?_eq_some_iff.mp here).1)⟩
  have follows : Circle.Next after.rangeStarts node.rangeStart next.1 := by
    rw [after.rangeStarts_eq_keys]
    exact after.ringByRange.next_key here following
  have inArc := Circle.owner_iff_inArc startIn follows key
  have replicaIn := after.replica_mem key replicas' found' 0
  refine ⟨next.1, follows, ?_, ?_, ?_⟩
  · intro arc
    rw [after.findPrimaryNodeForKey_eq key replicas' found']
    exact congrArg _ (after.eq_of_rangeStart replicaIn newIn (owns'.unique (inArc.mpr arc)))
  · intro outside
    have different : (replicas' 0).rangeStart ≠ node.rangeStart :=
      fun same => outside (inArc.mp (same ▸ owns'))
    have kept := owns.unique ((starts ▸ owns').of_insert different)
    have oldIn : replicas 0 ∈ after.nodes :=
      (members _).mpr (List.mem_cons_of_mem node (ring.replica_mem key replicas found 0))
    rw [after.findPrimaryNodeForKey_eq key replicas' found',
      ring.findPrimaryNodeForKey_eq key replicas found]
    exact congrArg _ (after.eq_of_rangeStart replicaIn oldIn kept.symm)
  · rw [ring.nodes_length]
    intro three
    exact ⟨replicas, replicas', found, found',
      ring.replica_set_after after node key replicas replicas' added three found found'⟩

end Growth

/-- A fifth node between the third and the fourth takes the keys of the
third from its own range start on. -/
theorem addNode_moves_own_range_fifth :
    ∃ after, fourNodes.addNode ⟨5, 35⟩ = .ok after ∧
      ∃ next, Circle.Next after.rangeStarts 35 next ∧
        (Circle.InArc 35 next 37 → after.findPrimaryNodeForKey 37 = .ok ⟨5, 35⟩) ∧
        (¬ Circle.InArc 35 next 37 →
          after.findPrimaryNodeForKey 37 = fourNodes.findPrimaryNodeForKey 37) ∧
        after.findPrimaryNodeForKey 37 = .ok ⟨5, 35⟩ := by
  obtain ⟨after, added, evaluated⟩ : ∃ after, fourNodes.addNode ⟨5, 35⟩ = .ok after ∧
      after.findPrimaryNodeForKey 37 = .ok ⟨5, 35⟩ := ⟨_, rfl, rfl⟩
  obtain ⟨next, follows, inside, outside, _⟩ :=
    addNode_moves_own_range fourNodes after ⟨5, 35⟩ 37 (by decide) added
  exact ⟨after, added, next, follows, inside, outside, evaluated⟩

end Ring

end Sopmq
