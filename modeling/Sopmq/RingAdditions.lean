import Sopmq.Ring

/-!
# Additions to a ring

`add_node` checks for conflicts and then inserts into both maps; a node that
conflicts raises before anything is inserted. Any sequence of attempts, accepted or
not, leaves a ring that represents the accepted nodes: both maps hold them and
nothing else, each under its own key, and no two of them share an identifier or a
range start. As a sorted map is determined by its entries, lookups do not depend on
the order of the additions.
-/

namespace Sopmq

namespace Ring

/-- The nodes of a ring, in the order of their range starts. -/
def nodes (ring : Ring) : List Node := ring.ringByRange.entries.map Prod.snd

/-- There are as many nodes as entries in the map by range. -/
theorem nodes_length (ring : Ring) : ring.nodes.length = ring.ringByRange.size := by
  simp [nodes, SortedMap.size]

/-- A ring with a node has an entry, which the lookups need. -/
theorem size_pos (ring : Ring) (nonempty : ring.nodes ≠ []) : 0 < ring.ringByRange.size := by
  rw [← ring.nodes_length]
  exact List.length_pos_iff.mpr nonempty

/-- The two nodes can be in one ring: they share neither the identifier nor
the start of the range. -/
def Apart (first second : Node) : Prop :=
  first.nodeId ≠ second.nodeId ∧ first.rangeStart ≠ second.rangeStart

/-- Both maps hold the given nodes and nothing else, and the nodes are
apart. The order of the list does not matter. -/
structure Represents (ring : Ring) (nodes : List Node) : Prop where
  byRange : ring.ringByRange.entries.Perm (nodes.map fun node => (node.rangeStart, node))
  byId : ring.nodesById.entries.Perm (nodes.map fun node => (node.nodeId, node))
  apart : nodes.Pairwise Apart

/-- An accepted node had no conflict and was put into both maps. -/
theorem addNode_ok (ring after : Ring) (node : Node) (added : ring.addNode node = .ok after) :
    ring.checkNoConflict node = none ∧
      after.ringByRange = ring.ringByRange.emplace node.rangeStart node ∧
      after.nodesById = ring.nodesById.insert node.nodeId node := by
  unfold addNode at added
  split at added
  · exact absurd added (by simp)
  · next checked =>
    cases added
    exact ⟨checked, rfl, rfl⟩

/-- `add_node` raises exactly when the check reports a conflict. -/
theorem addNode_error_iff (ring : Ring) (node : Node) :
    (∃ error, ring.addNode node = .error error) ↔ ring.checkNoConflict node ≠ none := by
  unfold addNode
  split
  · next error checked => simp [checked]
  · next checked => simp [checked]

namespace Represents

variable {ring : Ring} {nodes : List Node}

/-- An identifier is free in the map exactly when no node of the ring has
it. -/
theorem mem_byId (represents : ring.Represents nodes) (id : UInt32) :
    ring.nodesById.find id = none ↔ ∀ node ∈ nodes, node.nodeId ≠ id := by
  rw [KeyedMap.find_eq_none_iff, (represents.byId.map Prod.fst).mem_iff]
  simp

/-- A range start is free in the map exactly when no node of the ring has
it. -/
theorem mem_byRange (represents : ring.Represents nodes) (start : UInt128) :
    ring.ringByRange.find start = none ↔ ∀ node ∈ nodes, node.rangeStart ≠ start := by
  rw [SortedMap.find, Option.map_eq_none_iff, List.find?_eq_none]
  simp [represents.byRange.mem_iff]

/-- The check finds no conflict exactly for nodes that are apart from all
others. -/
theorem checkNoConflict_iff (represents : ring.Represents nodes) (node : Node) :
    ring.checkNoConflict node = none ↔ ∀ other ∈ nodes, Apart other node := by
  rw [ring.checkNoConflict_eq_none_iff node, represents.mem_byId, represents.mem_byRange]
  exact ⟨fun free other member => ⟨free.1 other member, free.2 other member⟩,
    fun apart => ⟨fun other member => (apart other member).1,
      fun other member => (apart other member).2⟩⟩

/-- An accepted node is added to what the ring represents, at the end of the
list. -/
theorem addNode (represents : ring.Represents nodes) {after : Ring} {node : Node}
    (added : ring.addNode node = .ok after) : after.Represents (nodes ++ [node]) := by
  obtain ⟨free, byRange, byId⟩ := ring.addNode_ok after node added
  obtain ⟨emplaced, inserted⟩ := ring.accepted_entries node free
  refine ⟨?_, ?_, ?_⟩
  · rw [byRange, List.map_append]
    exact (emplaced.trans (represents.byRange.cons _)).trans
      (List.perm_append_singleton _ _).symm
  · rw [byId, List.map_append]
    exact (inserted.trans (represents.byId.cons _)).trans (List.perm_append_singleton _ _).symm
  · refine List.pairwise_append.mpr ⟨represents.apart, List.pairwise_singleton _ _, ?_⟩
    intro other member last single
    rw [List.mem_singleton.mp single]
    exact (represents.checkNoConflict_iff node).mp free other member

/-- A ring does not represent a node twice, since no node is apart from
itself. -/
theorem nodup (represents : ring.Represents nodes) : nodes.Nodup :=
  represents.apart.imp fun apart same => apart.1 (congrArg Node.nodeId same)

/-- Rings that represent the same nodes have the same map by range. The
entries are the same up to their order, and the order is that of the
keys. -/
theorem ringByRange_eq {other : Ring} {others : List Node} (represents : ring.Represents nodes)
    (representsToo : other.Represents others) (same : ∀ node, node ∈ others ↔ node ∈ nodes) :
    other.ringByRange = ring.ringByRange := by
  have reordered : others.Perm nodes :=
    (List.perm_ext_iff_of_nodup representsToo.nodup represents.nodup).mpr same
  have entries : other.ringByRange.entries.Perm ring.ringByRange.entries :=
    (representsToo.byRange.trans (reordered.map _)).trans represents.byRange.symm
  apply SortedMap.ext
  refine List.Perm.eq_of_pairwise ?_ other.ringByRange.sorted ring.ringByRange.sorted entries
  intro left right _ _ below above
  exact absurd below above.not_gt

end Represents

/-- A lookup reads the map by range only, so rings that agree in this map
have the same replicas. -/
theorem findNodesForKey_congr {ring other : Ring} (same : other.ringByRange = ring.ringByRange)
    (key : UInt128) : other.findNodesForKey key = ring.findNodesForKey key := by
  unfold findNodesForKey findSecondaryNode findPrimaryNode findTertiaryNode
  rw [same]

end Ring

/-- A ring and the nodes it has accepted so far, in the order in which they
came. -/
structure Additions where
  ring : Ring
  accepted : List Node

namespace Additions

/-- A new ring, which has accepted nothing. -/
def start : Additions where
  ring := Ring.empty
  accepted := []

/-- An attempt to add a node. When it raises, the ring stays as it was. -/
def attempt (additions : Additions) (node : Node) : Additions :=
  match additions.ring.addNode node with
  | .ok ring => { ring := ring, accepted := additions.accepted ++ [node] }
  | .error _ => additions

/-- A new ring after the attempts to add the given nodes, whatever came of
each. -/
def after (nodes : List Node) : Additions := nodes.foldl attempt start

/-- The last of several attempts is made on what the others have left. -/
theorem after_append (nodes : List Node) (node : Node) :
    after (nodes ++ [node]) = (after nodes).attempt node := by
  simp [after, List.foldl_append]

/-- An attempt keeps the ring and its record in step: an accepted node is in
both, and one that raises is in neither. -/
theorem attempt_represents (additions : Additions) (node : Node)
    (represents : additions.ring.Represents additions.accepted) :
    (additions.attempt node).ring.Represents (additions.attempt node).accepted := by
  unfold attempt
  cases added : additions.ring.addNode node with
  | error error => exact represents
  | ok ring => exact represents.addNode added

/-- So does a sequence of attempts, from wherever they start. By induction
on the attempts. -/
theorem foldl_represents (nodes : List Node) (additions : Additions)
    (represents : additions.ring.Represents additions.accepted) :
    (nodes.foldl attempt additions).ring.Represents (nodes.foldl attempt additions).accepted := by
  induction nodes generalizing additions with
  | nil => exact represents
  | cons node rest inductionHypothesis =>
    exact inductionHypothesis _ (additions.attempt_represents node represents)

/-- After any attempts the ring represents the accepted nodes. -/
theorem after_represents (nodes : List Node) :
    (after nodes).ring.Represents (after nodes).accepted :=
  foldl_represents nodes start ⟨List.Perm.refl _, List.Perm.refl _, List.Pairwise.nil⟩

/-- After any sequence of attempts both maps hold exactly the accepted
nodes, each under its own key, and no two of these share an identifier or a
range start. A further attempt raises exactly when it conflicts with an
accepted node, and then changes nothing; one that does not raise is
accepted, and leaves the ring that it returns. Two sequences of attempts
with the same accepted nodes give rings with the same replicas for every
key. -/
theorem ring_after_attempts (nodes : List Node) :
    (after nodes).ring.ringByRange.entries.Perm
        ((after nodes).accepted.map fun node => (node.rangeStart, node)) ∧
      (after nodes).ring.nodesById.entries.Perm
        ((after nodes).accepted.map fun node => (node.nodeId, node)) ∧
      (after nodes).accepted.Pairwise Ring.Apart ∧
      (∀ node,
        ((∃ error, (after nodes).ring.addNode node = .error error) ↔
          ∃ other ∈ (after nodes).accepted,
            other.nodeId = node.nodeId ∨ other.rangeStart = node.rangeStart) ∧
        ((∃ error, (after nodes).ring.addNode node = .error error) →
          after (nodes ++ [node]) = after nodes) ∧
        ∀ ring, (after nodes).ring.addNode node = .ok ring →
          after (nodes ++ [node]) = ⟨ring, (after nodes).accepted ++ [node]⟩) ∧
      ∀ others, (∀ node, node ∈ (after others).accepted ↔ node ∈ (after nodes).accepted) →
        ∀ key,
          (after others).ring.findNodesForKey key = (after nodes).ring.findNodesForKey key := by
  have represents := after_represents nodes
  refine ⟨represents.byRange, represents.byId, represents.apart, ?_, ?_⟩
  · intro node
    refine ⟨?_, ?_, ?_⟩
    · rw [Ring.addNode_error_iff, ne_eq, represents.checkNoConflict_iff]
      simp only [Ring.Apart, not_forall, not_and_or, not_not, exists_prop]
    · rintro ⟨error, raised⟩
      rw [after_append, attempt, raised]
    · intro ring added
      rw [after_append, attempt, added]
  · intro others same key
    exact Ring.findNodesForKey_congr
      (represents.ringByRange_eq (after_represents others) same) key

end Additions

end Sopmq
