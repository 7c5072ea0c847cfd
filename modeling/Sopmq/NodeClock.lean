import Mathlib.Algebra.Order.Ring.Nat

/-!
# Per-node clocks

`node_clock` carries a node's identifier, its generation (number of restarts)
and its message clock. Clocks of one node are ordered by generation and then by
clock; comparing clocks of different nodes raises `comparison_error`.

The order is read through a single natural number, the rank, in which the
generation occupies the digits above the sixty-four bits of the clock.
-/

namespace Sopmq

/-- `comparison_error`, with the text it is raised with. It is the only
exception that clocks raise. -/
structure ComparisonError where
  what : String
deriving DecidableEq, Repr

/-- The `NodeClock` protobuf message, as it stands in the clocks that nodes
send each other. -/
structure NodeClockMessage where
  nodeId : UInt32
  generation : UInt32
  clock : UInt64
deriving DecidableEq, Repr

/-- The value used for the current per-node state in vector clocks: which
node, how often it has been started, and how many messages it has handled
since. -/
structure NodeClock where
  nodeId : UInt32
  generation : UInt32
  clock : UInt64
deriving DecidableEq, Repr

namespace NodeClock

/-- `node_clock::to_protobuf`, field by field. -/
def toProtobuf (clock : NodeClock) : NodeClockMessage where
  nodeId := clock.nodeId
  generation := clock.generation
  clock := clock.clock

/-- The component a network clock entry is read into, field by field. -/
def ofProtobuf (message : NodeClockMessage) : NodeClock where
  nodeId := message.nodeId
  generation := message.generation
  clock := message.clock

/-- A clock that is sent is read back as it was. -/
theorem ofProtobuf_toProtobuf (clock : NodeClock) : ofProtobuf clock.toProtobuf = clock := rfl

/-- `operator <` on node clocks, which raises for clocks of different nodes
before it compares anything. -/
def less (lhs rhs : NodeClock) : Except ComparisonError Bool :=
  if lhs.nodeId ≠ rhs.nodeId then
    .error ⟨"< and > not valid for node_clocks on different servers"⟩
  else if lhs.generation < rhs.generation ∨
      (lhs.generation = rhs.generation ∧ lhs.clock < rhs.clock) then
    .ok true
  else
    .ok false

/-- `std::max` on node clocks: the right one if the left one is less, else
the left one. -/
def max (a b : NodeClock) : Except ComparisonError NodeClock := do
  if ← less a b then pure b else pure a

/-- Generation and clock read as one number. The clock has 64 bits, so a
higher generation outweighs it. -/
def rank (clock : NodeClock) : Nat :=
  2 ^ 64 * clock.generation.toNat + clock.clock.toNat

/-- Ranks compare as the code does: by generation first, and by clock within
one generation. -/
theorem rank_lt_iff (lhs rhs : NodeClock) :
    lhs.rank < rhs.rank ↔ lhs.generation < rhs.generation ∨
      (lhs.generation = rhs.generation ∧ lhs.clock < rhs.clock) := by
  have low := lhs.clock.toNat_lt
  have low' := rhs.clock.toNat_lt
  rw [UInt32.lt_iff_toNat_lt, UInt64.lt_iff_toNat_lt, ← UInt32.toNat_inj]
  unfold rank
  omega

/-- A node's clock is determined by its rank, as both fields are within
their width. -/
theorem rank_injective (lhs rhs : NodeClock) (same : lhs.nodeId = rhs.nodeId)
    (equal : lhs.rank = rhs.rank) : lhs = rhs := by
  have low := lhs.clock.toNat_lt
  have low' := rhs.clock.toNat_lt
  unfold rank at equal
  have generations : lhs.generation = rhs.generation := UInt32.toNat_inj.mp (by omega)
  have clocks : lhs.clock = rhs.clock := UInt64.toNat_inj.mp (by omega)
  cases lhs
  cases rhs
  simp_all only

/-- Clocks of one node compare as their ranks, without raising. -/
theorem less_of_same_node (lhs rhs : NodeClock) (same : lhs.nodeId = rhs.nodeId) :
    less lhs rhs = .ok (decide (lhs.rank < rhs.rank)) := by
  by_cases smaller : lhs.rank < rhs.rank
  · have ordered := (rank_lt_iff lhs rhs).mp smaller
    simp [less, same, smaller, ordered]
  · have unordered := (rank_lt_iff lhs rhs).not.mp smaller
    simp only [less, same, ne_eq, not_true, unordered, smaller, if_false, decide_false]

/-- The maximum of clocks of one node is the one of the higher rank. -/
theorem max_of_same_node (a b : NodeClock) (same : a.nodeId = b.nodeId) :
    max a b = .ok (if a.rank < b.rank then b else a) := by
  by_cases smaller : a.rank < b.rank <;>
    simp [max, less_of_same_node a b same, smaller, bind, Except.bind, pure, Except.pure]

end NodeClock

end Sopmq
