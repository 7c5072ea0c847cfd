import Mathlib.Algebra.BigOperators.Fin
import Mathlib.Data.Fintype.Pi
import Mathlib.Data.List.FinRange
import Mathlib.Data.List.OfFn
import Sopmq.Majority
import Sopmq.NodeClock

/-!
# Vector clocks

`vector_clock<RF>` is an array of `RF` node clocks. This module embeds its
construction from a network clock, its join and its comparison operators as the
source computes them, loops and early exits included.

The comparison searches, for each component of the left clock, the first
component of the right clock with the same node, and counts on which side the
smaller value stands. The counts are natural numbers: they are bounded by `RF`,
far below the range of the source's `int`.
-/

namespace Sopmq

/-- The `VectorClock` protobuf message: any number of entries, in the order
of the message. -/
structure VectorClockMessage where
  clocks : List NodeClockMessage
deriving DecidableEq, Repr

/-- Vector clock of the given replication factor: one node clock for each
position, with no condition on the nodes. -/
structure VectorClock (RF : Nat) where
  value : Fin RF → NodeClock

namespace VectorClock

variable {RF : Nat}

/-- A vector clock is determined by its components. -/
@[ext]
theorem ext {a b : VectorClock RF} (same : ∀ i, a.value i = b.value i) : a = b := by
  cases a
  cases b
  exact congrArg VectorClock.mk (funext same)

instance : DecidableEq (VectorClock RF) := fun a b =>
  decidable_of_iff (∀ i, a.value i = b.value i)
    ⟨VectorClock.ext, fun same _ => same ▸ rfl⟩

/-- The default constructor value-initialises every component, so that all
nodes are number zero. -/
def zero : VectorClock RF where
  value _ := ⟨0, 0, 0⟩

/-- `vector_clock::set`, of the component at a position within the clock. -/
def set (clock : VectorClock RF) (pos : Fin RF) (component : NodeClock) : VectorClock RF where
  value i := if i = pos then component else clock.value i

/-- The conversion loop: entry `i` of the network clock is written to
component `i`, and components beyond the last entry are not written. -/
def assign (value : Fin RF → NodeClock) : Nat → List NodeClockMessage → Fin RF → NodeClock
  | _, [] => value
  | i, clock :: rest =>
      assign (fun k => if k.val = i then .ofProtobuf clock else value k) (i + 1) rest

/-- `vector_clock(const VectorClock&)`. The constructor does not initialise
the array, so what the storage held before is a parameter. -/
def ofMessage (storage : VectorClock RF) (netClock : VectorClockMessage) :
    Except ComparisonError (VectorClock RF) :=
  if netClock.clocks.length > RF then
    .error ⟨"Network clock size of " ++ toString netClock.clocks.length ++
      " is greater than RF of " ++ toString RF⟩
  else
    .ok ⟨assign storage.value 0 netClock.clocks⟩

/-- What the conversion loop leaves in each component: those before the
index and those beyond the last entry keep what they had. -/
theorem assign_eq (value : Fin RF → NodeClock) (i : Nat) (clocks : List NodeClockMessage)
    (k : Fin RF) :
    assign value i clocks k =
      if k.val < i then value k
      else ((clocks[k.val - i]?).map NodeClock.ofProtobuf).getD (value k) := by
  induction clocks generalizing value i with
  | nil => simp [assign]
  | cons clock rest inductionHypothesis =>
    rw [assign, inductionHypothesis]
    rcases Nat.lt_trichotomy k.val i with before | here | after
    · rw [if_pos (by omega), if_neg (by omega), if_pos before]
    · rw [if_pos (by omega), if_pos here, if_neg (by omega)]
      simp [here]
    · rw [if_neg (by omega), if_neg (by omega), if_neg (by omega),
        show k.val - i = k.val - (i + 1) + 1 by omega]
      rfl

/-- The conversion is as it is meant to be: it raises on more than `RF`
entries, and otherwise takes its first components from the message and
leaves the others zero. -/
def Converts (storage : VectorClock RF) (netClock : VectorClockMessage) : Prop :=
  ((∃ error, ofMessage storage netClock = .error error) ↔ RF < netClock.clocks.length) ∧
    (netClock.clocks.length ≤ RF → ∃ clock, ofMessage storage netClock = .ok clock ∧
      ∀ i : Fin RF, clock.value i =
        ((netClock.clocks[i.val]?).map NodeClock.ofProtobuf).getD ⟨0, 0, 0⟩)

/-- The conversion raises exactly on more entries than there are
components. -/
theorem ofMessage_error_iff (storage : VectorClock RF) (netClock : VectorClockMessage) :
    (∃ error, ofMessage storage netClock = .error error) ↔ RF < netClock.clocks.length := by
  unfold ofMessage
  split
  · next large => simpa using large
  · next fits => simpa using fits

/-- A component beyond the last entry keeps what the storage held, and the
others are those of the message. -/
theorem ofMessage_value (storage : VectorClock RF) (netClock : VectorClockMessage)
    (fits : netClock.clocks.length ≤ RF) :
    ofMessage storage netClock = .ok ⟨fun i =>
      ((netClock.clocks[i.val]?).map NodeClock.ofProtobuf).getD (storage.value i)⟩ := by
  rw [ofMessage, if_neg (by omega)]
  congr 2
  funext i
  simp [assign_eq]

/-- A full network clock is read back whatever the storage held, since every
component is written. -/
theorem ofMessage_ofFn (storage : VectorClock RF) (value : Fin RF → NodeClock) :
    ofMessage storage ⟨List.ofFn fun i => (value i).toProtobuf⟩ = .ok ⟨value⟩ := by
  rw [ofMessage_value _ _ (by simp)]
  simp [NodeClock.ofProtobuf_toProtobuf]

/-- The conversion is as meant exactly when the storage was zero beyond the
last entry of the message. It depends on the message alone exactly when the
message fills the clock. A clock that is encoded in full is read back. -/
theorem network_clock_iff (storage : VectorClock RF) (netClock : VectorClockMessage) :
    (Converts storage netClock ↔
        ∀ i : Fin RF, netClock.clocks.length ≤ i.val → storage.value i = ⟨0, 0, 0⟩) ∧
      ((∀ storage', ofMessage storage' netClock = ofMessage storage netClock) ↔
        RF ≤ netClock.clocks.length) ∧
      ∀ clock : VectorClock RF,
        ofMessage storage ⟨List.ofFn fun i => (clock.value i).toProtobuf⟩ = .ok clock := by
  refine ⟨?_, ?_, fun clock => ofMessage_ofFn storage clock.value⟩
  · constructor
    · rintro ⟨_, converted⟩ i beyond
      have fits : netClock.clocks.length ≤ RF := beyond.trans i.isLt.le
      obtain ⟨clock, read, components⟩ := converted fits
      rw [ofMessage_value storage netClock fits] at read
      obtain rfl := Except.ok.inj read
      simpa [List.getElem?_eq_none beyond] using components i
    · intro cleared
      refine ⟨ofMessage_error_iff storage netClock, fun fits => ?_⟩
      refine ⟨_, ofMessage_value storage netClock fits, fun i => ?_⟩
      by_cases inside : i.val < netClock.clocks.length
      · simp [List.getElem?_eq_getElem inside]
      · simp only [cleared i (not_lt.mp inside)]
  · constructor
    · intro independent
      by_contra short
      have beyond : netClock.clocks.length < RF := not_le.mp short
      have same := independent ⟨fun i => ⟨(storage.value i).nodeId + 1, 0, 0⟩⟩
      rw [ofMessage_value _ netClock beyond.le, ofMessage_value _ netClock beyond.le] at same
      have held := congrFun (congrArg VectorClock.value (Except.ok.inj same))
        ⟨netClock.clocks.length, beyond⟩
      simpa using congrArg NodeClock.nodeId held
    · intro full storage'
      by_cases large : netClock.clocks.length > RF
      · simp [ofMessage, large]
      · rw [ofMessage_value _ netClock (not_lt.mp large),
          ofMessage_value _ netClock (not_lt.mp large)]
        congr 2
        funext i
        have inside : i.val < netClock.clocks.length := i.isLt.trans_le full
        simp [List.getElem?_eq_getElem inside]

/-- The storage of a clock that held the nodes 7, 8 and 9. -/
def usedStorage : VectorClock 3 := ⟨![⟨7, 1, 1⟩, ⟨8, 1, 1⟩, ⟨9, 1, 1⟩]⟩

/-- A network clock of two entries, one less than the clock has
components. -/
def shortMessage : VectorClockMessage := ⟨[⟨1, 1, 4⟩, ⟨2, 1, 6⟩]⟩

/-- The third component is what the storage held, and not zero. Over storage
that was zero it would be. -/
theorem short_clock_keeps_storage :
    ofMessage usedStorage shortMessage = .ok ⟨![⟨1, 1, 4⟩, ⟨2, 1, 6⟩, ⟨9, 1, 1⟩]⟩ ∧
      ofMessage zero shortMessage = .ok (⟨![⟨1, 1, 4⟩, ⟨2, 1, 6⟩, ⟨0, 0, 0⟩]⟩ : VectorClock 3) ∧
      ¬ Converts usedStorage shortMessage := by
  have read (storage : VectorClock 3) : ofMessage storage shortMessage =
      .ok ⟨![⟨1, 1, 4⟩, ⟨2, 1, 6⟩, storage.value 2]⟩ := by
    rw [ofMessage_value storage shortMessage (by decide)]
    congr 2
    funext i
    fin_cases i <;> rfl
  refine ⟨read usedStorage, read zero, ?_⟩
  rintro ⟨_, converted⟩
  obtain ⟨clock, readToo, components⟩ := converted (by decide)
  obtain rfl := Except.ok.inj ((read usedStorage).symm.trans readToo)
  exact absurd (components 2) (by decide)

/-- The second loop of `max`, over the components still to be set. A
comparison of different nodes would raise in it. -/
def maxLoop (a b : VectorClock RF) :
    List (Fin RF) → VectorClock RF → Except ComparisonError (VectorClock RF)
  | [], result => .ok result
  | i :: rest, result => do
      let component ← NodeClock.max (a.value i) (b.value i)
      maxLoop a b rest (result.set i component)

/-- `vector_clock::max`: verify that the clocks have the same nodes, then
take the higher value in every component. -/
def max (a b : VectorClock RF) : Except ComparisonError (VectorClock RF) :=
  if ∃ i, (a.value i).nodeId ≠ (b.value i).nodeId then
    .error ⟨"max() not valid for vector clocks with different quorums"⟩
  else
    maxLoop a b (List.finRange RF) zero

/-- The two counters of the comparison, which are declared in front of its
loops. -/
structure Counts where
  numLeftLess : Nat
  numRightLess : Nat
deriving DecidableEq, Repr

/-- The inner loop: stop at the first component of the same node, and count
for the side that has the smaller value. -/
def compareWith (left : NodeClock) :
    List NodeClock → Counts → Except ComparisonError Counts
  | [], counts => .ok counts
  | right :: rest, counts =>
      if left.nodeId = right.nodeId then do
        if ← left.less right then
          pure { counts with numLeftLess := counts.numLeftLess + 1 }
        else if ← right.less left then
          pure { counts with numRightLess := counts.numRightLess + 1 }
        else
          pure counts
      else
        compareWith left rest counts

/-- The outer loop, over the components of the left clock. The counters go
through it. -/
def compareLoop (rhs : List NodeClock) :
    List NodeClock → Counts → Except ComparisonError Counts
  | [], counts => .ok counts
  | left :: rest, counts => do
      let counts ← compareWith left rhs counts
      compareLoop rhs rest counts

/-- `operator <` on vector clocks: more components are less on the left than
on the right. -/
def less (lhs rhs : VectorClock RF) : Except ComparisonError Bool := do
  let counts ← compareLoop (List.ofFn rhs.value) (List.ofFn lhs.value) ⟨0, 0⟩
  pure (counts.numLeftLess > counts.numRightLess)

/-- `operator >` on vector clocks: neither less nor equal. -/
def greater (lhs rhs : VectorClock RF) : Except ComparisonError Bool := do
  let lower ← less lhs rhs
  pure (!lower && lhs ≠ rhs)

/-- The comparison holds: `operator <` returns true, without an
exception. -/
def Less (lhs rhs : VectorClock RF) : Prop := less lhs rhs = .ok true

instance (lhs rhs : VectorClock RF) : Decidable (Less lhs rhs) :=
  inferInstanceAs (Decidable (less lhs rhs = .ok true))

/-- The node ids of the two clocks agree in every component. This is what
`max` checks first. -/
def SameNodes (a b : VectorClock RF) : Prop := ∀ i, (a.value i).nodeId = (b.value i).nodeId

/-- Clocks with the same nodes are equal when their ranks are, since a rank
tells generation and clock. -/
theorem eq_of_ranks {a b : VectorClock RF} (same : SameNodes a b)
    (ranks : ∀ i, (a.value i).rank = (b.value i).rank) : a = b :=
  VectorClock.ext fun i => NodeClock.rank_injective _ _ (same i) (ranks i)

/-- The higher of the two components at each position, and the left one of
two equal ones. -/
def join (a b : VectorClock RF) : VectorClock RF where
  value i := if (a.value i).rank < (b.value i).rank then b.value i else a.value i

/-- The loop of `max` sets its components to those of the join. By induction
on the components still to be set, none of which raises for the same
nodes. -/
theorem maxLoop_eq (a b : VectorClock RF) (same : SameNodes a b) (rest : List (Fin RF))
    (result : VectorClock RF) :
    maxLoop a b rest result =
      .ok ⟨fun i => if i ∈ rest then (join a b).value i else result.value i⟩ := by
  induction rest generalizing result with
  | nil => simp [maxLoop]
  | cons i rest inductionHypothesis =>
    simp only [maxLoop, NodeClock.max_of_same_node _ _ (same i), bind, Except.bind,
      inductionHypothesis]
    congr 2
    funext k
    by_cases later : k ∈ rest
    · simp [later]
    · by_cases here : k = i
      · subst here
        simp [set, join]
      · simp [later, here, set]

/-- Clocks of the same nodes have a join, the higher component at each
position. -/
theorem max_of_same_nodes (a b : VectorClock RF) (same : SameNodes a b) :
    max a b = .ok (join a b) := by
  have verified : ¬ ∃ i, (a.value i).nodeId ≠ (b.value i).nodeId := by simpa [SameNodes] using same
  rw [max, if_neg verified, maxLoop_eq a b same]
  simp

/-- Clocks of different nodes have none: the check raises before the
loop. -/
theorem max_of_other_nodes (a b : VectorClock RF) (other : ¬ SameNodes a b) :
    max a b = .error ⟨"max() not valid for vector clocks with different quorums"⟩ := by
  have found : ∃ i, (a.value i).nodeId ≠ (b.value i).nodeId := by simpa [SameNodes] using other
  rw [max, if_pos found]

/-- The vote of one component of the left clock: the lead against the first
component of the same node in the right clock, zero if there is none. -/
def vote (rhs : List NodeClock) (left : NodeClock) : Int :=
  match rhs.find? (fun right => decide (left.nodeId = right.nodeId)) with
  | none => 0
  | some right => Majority.lead left.rank right.rank

/-- In a clock of distinct nodes the search finds the only component of the
node, at whichever position it is. -/
theorem find_component (clock : VectorClock RF)
    (distinct : Function.Injective fun i => (clock.value i).nodeId) (left : NodeClock) (j : Fin RF)
    (same : left.nodeId = (clock.value j).nodeId) :
    (List.ofFn clock.value).find? (fun right => decide (left.nodeId = right.nodeId)) =
      some (clock.value j) := by
  cases found :
    (List.ofFn clock.value).find? (fun right => decide (left.nodeId = right.nodeId)) with
  | none =>
    have missed := List.find?_eq_none.mp found (clock.value j) (List.mem_ofFn.mpr ⟨j, rfl⟩)
    simp [same] at missed
  | some right =>
    obtain ⟨k, rfl⟩ := List.mem_ofFn.mp (List.mem_of_find?_eq_some found)
    have matched : left.nodeId = (clock.value k).nodeId := by
      simpa using List.find?_some found
    have position : k = j := distinct (matched.symm.trans same)
    rw [position]

/-- Difference of the two counters, whose sign is the result of the
comparison. -/
def Counts.balance (counts : Counts) : Int := counts.numLeftLess - counts.numRightLess

/-- The inner loop never raises, since it compares only clocks of one node,
and moves the balance by the component's vote. -/
theorem compareWith_balance (left : NodeClock) (rhs : List NodeClock) (counts : Counts) :
    ∃ after, compareWith left rhs counts = .ok after ∧
      after.balance = counts.balance + vote rhs left := by
  induction rhs with
  | nil => exact ⟨counts, rfl, by simp [vote]⟩
  | cons right rest inductionHypothesis =>
    by_cases same : left.nodeId = right.nodeId
    · have voted : vote (right :: rest) left = Majority.lead left.rank right.rank := by
        simp [vote, same]
      simp only [compareWith, same, if_true, NodeClock.less_of_same_node left right same,
        NodeClock.less_of_same_node right left same.symm, voted]
      rcases lt_trichotomy left.rank right.rank with smaller | equal | larger
      · refine ⟨{ counts with numLeftLess := counts.numLeftLess + 1 }, ?_, ?_⟩
        · simp [smaller, bind, Except.bind, pure, Except.pure]
        · simp only [Counts.balance, (Majority.lead_eq_one_iff _ _).mpr smaller]
          omega
      · exact ⟨counts, by simp [equal, bind, Except.bind, pure, Except.pure],
          by simp [equal, Majority.lead_self]⟩
      · refine ⟨{ counts with numRightLess := counts.numRightLess + 1 }, ?_, ?_⟩
        · simp [larger, larger.not_gt, bind, Except.bind, pure, Except.pure]
        · simp only [Counts.balance, (Majority.lead_eq_neg_one_iff _ _).mpr larger]
          omega
    · obtain ⟨after, compared, moved⟩ := inductionHypothesis
      refine ⟨after, by simpa [compareWith, same] using compared, ?_⟩
      rw [moved]
      simp [vote, same]

/-- The outer loop adds up the votes. By induction on the components of the
left clock. -/
theorem compareLoop_balance (rhs lhs : List NodeClock) (counts : Counts) :
    ∃ after, compareLoop rhs lhs counts = .ok after ∧
      after.balance = counts.balance + (lhs.map (vote rhs)).sum := by
  induction lhs generalizing counts with
  | nil => exact ⟨counts, rfl, by simp⟩
  | cons left rest inductionHypothesis =>
    obtain ⟨middle, compared, moved⟩ := compareWith_balance left rhs counts
    obtain ⟨after, continued, total⟩ := inductionHypothesis middle
    refine ⟨after, ?_, ?_⟩
    · simpa [compareLoop, compared, bind, Except.bind] using continued
    · rw [total, moved, List.map_cons, List.sum_cons]
      omega

/-- The total vote of the components of the left clock. -/
def ballot (lhs rhs : VectorClock RF) : Int :=
  ∑ i, vote (List.ofFn rhs.value) (lhs.value i)

/-- The comparison never raises; it returns whether the total vote is
positive. -/
theorem less_eq (lhs rhs : VectorClock RF) :
    less lhs rhs = .ok (decide (0 < ballot lhs rhs)) := by
  obtain ⟨counts, compared, total⟩ :=
    compareLoop_balance (List.ofFn rhs.value) (List.ofFn lhs.value) ⟨0, 0⟩
  have summed : (counts.numLeftLess : Int) - counts.numRightLess = ballot lhs rhs := by
    have votes : ((List.ofFn lhs.value).map (vote (List.ofFn rhs.value))).sum =
        ballot lhs rhs := by
      rw [List.map_ofFn, List.sum_ofFn]
      rfl
    rw [votes] at total
    simpa [Counts.balance] using total
  have decided : counts.numLeftLess > counts.numRightLess ↔ 0 < ballot lhs rhs := by omega
  simp only [less, compared, bind, Except.bind, pure, Except.pure, decided]

/-- The comparison holds exactly for a positive total vote. -/
theorem less_iff_ballot (lhs rhs : VectorClock RF) : Less lhs rhs ↔ 0 < ballot lhs rhs := by
  simp [Less, less_eq]

end VectorClock

end Sopmq
