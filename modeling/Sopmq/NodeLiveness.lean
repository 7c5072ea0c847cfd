import Sopmq.FailureDetector

/-!
# Whether a node is alive

A `node` is alive by the verdict of its failure detector, unless it is the local node, which is
always alive, or `set_failed` has been called on it. By its documentation `set_failed` marks the
node down until the next heartbeat; but `heartbeat` only reaches the failure detector, and
nothing takes the mark back.
-/

namespace Sopmq

/-- The settings of a process that the liveness of its nodes depends on: its
own identifier, and the threshold of its failure detectors. -/
structure LivenessSettings where
  nodeId : UInt32
  phiFailureThreshold : Int
deriving DecidableEq, Repr

/-- What `node::is_alive` reads of a `node`: its identifier, its failure
detector and the mark of `set_failed`. -/
structure MonitoredNode where
  nodeId : UInt32
  failureDetector : FailureDetector
  forcedFailure : Bool

/-- The calls that a node gets in the course of time and that change its
liveness. -/
inductive NodeCall where
  | heartbeat
  | setFailed
deriving DecidableEq, Repr

namespace MonitoredNode

/-- `gossiper::GOSSIP_INTERVAL_MS`, which is the interval that a new failure
detector starts from. -/
def gossipIntervalMs : Int := 1000

/-- `node(nodeId, rangeStart, endPoint)`, at a time. Range and endpoint play
no part in the liveness. -/
def create (settings : LivenessSettings) (nodeId : UInt32) (now : Time) : MonitoredNode where
  nodeId := nodeId
  failureDetector := FailureDetector.create settings.phiFailureThreshold gossipIntervalMs now
  forcedFailure := false

/-- `node::is_self`, by the identifier in the settings. -/
def isSelf (settings : LivenessSettings) (node : MonitoredNode) : Bool :=
  node.nodeId = settings.nodeId

/-- `node::is_alive`, at a time: the local node always, a node marked as
failed never, another one by its failure detector. -/
def isAlive (float : FloatOps) (settings : LivenessSettings) (node : MonitoredNode) (now : Time) :
    Bool :=
  if node.isSelf settings then true
  else if node.forcedFailure then false
  else node.failureDetector.interpret float now = .up

/-- `node::heartbeat`, at a time. It goes to the failure detector and leaves
the mark of `set_failed`. -/
def heartbeat (node : MonitoredNode) (now : Time) : MonitoredNode :=
  { node with failureDetector := node.failureDetector.heartbeat now }

/-- `node::set_failed`. No function sets the mark back. -/
def setFailed (node : MonitoredNode) : MonitoredNode := { node with forcedFailure := true }

/-- A node after one of these calls, at a time. -/
def perform (node : MonitoredNode) : Time × NodeCall → MonitoredNode
  | (now, .heartbeat) => node.heartbeat now
  | (_, .setFailed) => node.setFailed

/-- A new node after a sequence of calls, each at its own time. -/
def after (settings : LivenessSettings) (nodeId : UInt32) (createdOn : Time)
    (calls : List (Time × NodeCall)) : MonitoredNode :=
  calls.foldl perform (create settings nodeId createdOn)

/-- The times of the heartbeats among the calls, in their order. -/
def heartbeatTimes (calls : List (Time × NodeCall)) : List Time :=
  (calls.filter fun call => call.2 = .heartbeat).map Prod.fst

/-- The verdict of a failure detector that has seen the heartbeats among the
calls, and knows nothing of the others. -/
def verdict (float : FloatOps) (settings : LivenessSettings) (createdOn : Time)
    (calls : List (Time × NodeCall)) (now : Time) : FailureDetector.State :=
  ((FailureDetector.create settings.phiFailureThreshold gossipIntervalMs createdOn).heartbeats
    (heartbeatTimes calls)).interpret float now

/-- The documented liveness: down while the last call was `set_failed`, and
left to the failure detector once it was a heartbeat. -/
structure AsDocumented (float : FloatOps) (settings : LivenessSettings) (nodeId : UInt32)
    (createdOn : Time) (calls : List (Time × NodeCall)) (now : Time) : Prop where
  failed : ∀ time, calls.getLast? = some (time, .setFailed) →
    (after settings nodeId createdOn calls).isAlive float settings now = false
  recovered : ∀ time, calls.getLast? = some (time, .heartbeat) →
    ((after settings nodeId createdOn calls).isAlive float settings now = true ↔
      verdict float settings createdOn calls now = .up)

/-- What a sequence of calls leaves: the identifier as it was, the failure
detector after the heartbeats, and the mark if it was set at any time. By
induction on the calls. -/
theorem foldl_perform (node : MonitoredNode) (calls : List (Time × NodeCall)) :
    (calls.foldl perform node).nodeId = node.nodeId ∧
    (calls.foldl perform node).failureDetector =
      node.failureDetector.heartbeats (heartbeatTimes calls) ∧
    ((calls.foldl perform node).forcedFailure = true ↔
      node.forcedFailure = true ∨ ∃ call ∈ calls, call.2 = .setFailed) := by
  induction calls generalizing node with
  | nil => exact ⟨rfl, rfl, by simp⟩
  | cons call calls inductionHypothesis =>
    obtain ⟨time, call⟩ := call
    obtain ⟨sameId, sameDetector, forced⟩ := inductionHypothesis (node.perform (time, call))
    cases call with
    | heartbeat =>
      refine ⟨sameId, sameDetector, forced.trans ?_⟩
      simp [perform, heartbeat]
    | setFailed =>
      refine ⟨sameId, sameDetector, forced.trans ?_⟩
      simp [perform, setFailed]

/-- A remote node is alive when the failure detector says so and no call was
`set_failed`, whenever that was. -/
theorem isAlive_after_iff (float : FloatOps) (settings : LivenessSettings) (nodeId : UInt32)
    (remote : nodeId ≠ settings.nodeId) (createdOn : Time) (calls : List (Time × NodeCall))
    (now : Time) :
    (after settings nodeId createdOn calls).isAlive float settings now = true ↔
      (∀ call ∈ calls, call.2 ≠ .setFailed) ∧
        verdict float settings createdOn calls now = .up := by
  obtain ⟨sameId, sameDetector, forced⟩ := foldl_perform (create settings nodeId createdOn) calls
  have other : (after settings nodeId createdOn calls).isSelf settings = false :=
    decide_eq_false fun same => remote (sameId.symm.trans same)
  have marked : (after settings nodeId createdOn calls).forcedFailure = true ↔
      ∃ call ∈ calls, call.2 = .setFailed :=
    forced.trans (or_iff_right Bool.false_ne_true)
  have detector : (after settings nodeId createdOn calls).failureDetector.interpret float now =
      verdict float settings createdOn calls now := by
    rw [after, sameDetector]
    rfl
  rw [isAlive, other, detector]
  cases forcedly : (after settings nodeId createdOn calls).forcedFailure with
  | false =>
    have unmarked : ∀ call ∈ calls, call.2 ≠ .setFailed := by
      intro call member failure
      exact absurd (marked.mpr ⟨call, member, failure⟩) (by simp [forcedly])
    simp only [Bool.false_eq_true, if_false, decide_eq_true_eq]
    exact (and_iff_right unmarked).symm
  | true =>
    obtain ⟨call, member, failure⟩ := marked.mp forcedly
    simp only [Bool.false_eq_true, if_false, if_true, false_iff]
    exact fun alive => alive.1 call member failure

/-- The liveness of a remote node is the documented one, after any calls at
any times and whatever the arithmetic, unless the last call was a heartbeat,
an earlier one was `set_failed`, and the failure detector finds the node
up. -/
theorem forced_failure_iff (float : FloatOps) (settings : LivenessSettings) (nodeId : UInt32)
    (remote : nodeId ≠ settings.nodeId) (createdOn : Time) (calls : List (Time × NodeCall))
    (now : Time) :
    AsDocumented float settings nodeId createdOn calls now ↔
      ¬ ((∃ time, calls.getLast? = some (time, .heartbeat)) ∧
        (∃ call ∈ calls, call.2 = .setFailed) ∧
        verdict float settings createdOn calls now = .up) := by
  have alive := isAlive_after_iff float settings nodeId remote createdOn calls now
  constructor
  · rintro documented ⟨⟨time, last⟩, ⟨call, member, failure⟩, up⟩
    exact (alive.mp ((documented.recovered time last).mpr up)).1 call member failure
  · intro unaffected
    constructor
    · intro time last
      rw [← Bool.not_eq_true, alive]
      exact fun both => both.1 _ (List.mem_of_getLast? last) rfl
    · intro time last
      rw [alive]
      refine and_iff_right_of_imp fun up call member failure => ?_
      exact unaffected ⟨⟨time, last⟩, ⟨call, member, failure⟩, up⟩

/-- Once `set_failed` has been called on a remote node, it is never alive
again, whatever calls follow. -/
theorem never_alive_again (float : FloatOps) (settings : LivenessSettings) (nodeId : UInt32)
    (remote : nodeId ≠ settings.nodeId) (createdOn failedOn : Time)
    (before later : List (Time × NodeCall)) (now : Time) :
    (after settings nodeId createdOn (before ++ (failedOn, .setFailed) :: later)).isAlive float
      settings now = false := by
  rw [← Bool.not_eq_true, isAlive_after_iff float settings nodeId remote]
  intro alive
  exact alive.1 (failedOn, .setFailed) (by simp) rfl

/-- The process is node 1 and tolerates a phi below 8. -/
def someSettings : LivenessSettings := ⟨1, 8⟩

/-- Node 2 is marked as failed, and a heartbeat comes in a second later. -/
def failedThenHeard : List (Time × NodeCall) := [(0, .setFailed), (1000000000, .heartbeat)]

/-- The statement at these calls, whose right side is false. -/
theorem forced_failure_iff_heard :
    (2 : UInt32) ≠ someSettings.nodeId ∧
      (AsDocumented FloatOps.exact someSettings 2 0 failedThenHeard 1000000000 ↔
        ¬ ((∃ time, failedThenHeard.getLast? = some (time, .heartbeat)) ∧
          (∃ call ∈ failedThenHeard, call.2 = .setFailed) ∧
          verdict FloatOps.exact someSettings 0 failedThenHeard 1000000000 = .up)) :=
  ⟨by decide,
    forced_failure_iff FloatOps.exact someSettings 2 (by decide) 0 failedThenHeard 1000000000⟩

/-- When the heartbeat comes in, the failure detector finds the node up, and
it is not alive. -/
theorem heartbeat_does_not_revive :
    verdict FloatOps.exact someSettings 0 failedThenHeard 1000000000 = .up ∧
      (after someSettings 2 0 failedThenHeard).isAlive FloatOps.exact someSettings 1000000000 =
        false ∧
      ¬ AsDocumented FloatOps.exact someSettings 2 0 failedThenHeard 1000000000 := by
  have up : verdict FloatOps.exact someSettings 0 failedThenHeard 1000000000 = .up :=
    FailureDetector.interpret_lastHeartbeat _ (by decide)
  have down :
      (after someSettings 2 0 failedThenHeard).isAlive FloatOps.exact someSettings 1000000000 =
      false := rfl
  refine ⟨up, down, fun documented => ?_⟩
  have alive := (documented.recovered 1000000000 rfl).mpr up
  exact absurd (down.symm.trans alive) (by decide)

end MonitoredNode

end Sopmq
