import Sopmq.ClockOrder
import Sopmq.LocalNode
import Sopmq.Machine

/-!
# Stamps of successive publishes

Three replicas of a queue handle its publishes, each publish by two of them, one after
the other. Between the steps a replica may learn any value of another one's clock that
does not exceed what that one has reached. The stamp of a publish is the join of the two
replies, which may be lower in some component than the stamp before it.

Counters do not wrap and generations are fixed: a publish is only taken up below the
largest counter, and no step changes the generation of a replica's own clock.
-/

namespace Sopmq

/-- A queue and its three replicas, in the order in which each of them finds
them. They are three different nodes. -/
structure ReplicaGroup where
  key : UInt128
  node : Fin 3 → Node
  distinct : Function.Injective fun p => (node p).nodeId

namespace ReplicaGroup

/-- The replica set that the clocks of the group carry, in the order of the
group. -/
def replicaSet (group : ReplicaGroup) : ReplicaSet 3 where
  ids p := (group.node p).nodeId
  distinct := group.distinct

/-- The replicas are different nodes, as their identifiers differ. -/
theorem node_injective (group : ReplicaGroup) : Function.Injective group.node :=
  fun _ _ same => group.distinct (congrArg Node.nodeId same)

end ReplicaGroup

/-- The three replicas at one time. Each has on record a clock of every
replica that carries that replica's identifier and does not exceed that
replica's own clock. -/
structure Cluster (group : ReplicaGroup) where
  nodes : Fin 3 → LocalNode
  named : ∀ p, (nodes p).self = group.node p
  located : ∀ p, (nodes p).ring.findNodesForKey group.key = .ok group.node
  carries : ∀ p q, ((nodes p).clock (group.node q)).nodeId = (group.node q).nodeId
  bounded : ∀ p q, ((nodes p).clock (group.node q)).rank ≤
    ((nodes q).clock (group.node q)).rank

namespace Cluster

variable {group : ReplicaGroup}

/-- A replica's own clock, which no other replica ever exceeds in its record
of it. -/
def own (cluster : Cluster group) (p : Fin 3) : NodeClock :=
  (cluster.nodes p).clock (group.node p)

/-- Handling a publish moves a replica's own clock by one, as long as the
counter does not wrap. -/
theorem rank_own_tick (cluster : Cluster group) (p : Fin 3)
    (fits : (cluster.own p).clock.toNat + 1 < 2 ^ 64) :
    ((cluster.nodes p).tick.clock (group.node p)).rank = (cluster.own p).rank + 1 := by
  unfold own at fits ⊢
  rw [← cluster.named p] at fits ⊢
  exact (cluster.nodes p).rank_tick fits

/-- The cluster after a change of one replica that keeps its place, does not
lower its own clock and keeps its other records below the clocks of their
replicas. -/
def replace (cluster : Cluster group) (p : Fin 3) (after : LocalNode)
    (named : after.self = group.node p)
    (located : after.ring.findNodesForKey group.key = .ok group.node)
    (carries : ∀ q, (after.clock (group.node q)).nodeId = (group.node q).nodeId)
    (grows : (cluster.own p).rank ≤ (after.clock (group.node p)).rank)
    (below : ∀ q, q ≠ p → (after.clock (group.node q)).rank ≤ (cluster.own q).rank) :
    Cluster group where
  nodes := Function.update cluster.nodes p after
  named := (Function.forall_update_iff _ fun q (node : LocalNode) => node.self = group.node q).mpr
    ⟨named, fun q _ => cluster.named q⟩
  located := (Function.forall_update_iff _ fun _ (node : LocalNode) =>
    node.ring.findNodesForKey group.key = .ok group.node).mpr
    ⟨located, fun q _ => cluster.located q⟩
  carries := (Function.forall_update_iff _ fun _ (node : LocalNode) => ∀ r,
    (node.clock (group.node r)).nodeId = (group.node r).nodeId).mpr
    ⟨carries, fun q _ => cluster.carries q⟩
  bounded q r := by
    by_cases same : q = p <;> by_cases other : r = p
    · subst same
      subst other
      exact Nat.le_refl _
    · subst same
      simpa [own, Function.update_of_ne other] using below r other
    · subst other
      simpa [Function.update_of_ne same] using Nat.le_trans (cluster.bounded q r) grows
    · simpa [Function.update_of_ne same, Function.update_of_ne other] using cluster.bounded q r

/-- The own clock of the replica that was changed, and those of the
others. -/
theorem own_replace (cluster : Cluster group) (p r : Fin 3) (after : LocalNode) (named) (located)
    (carries) (grows) (below) :
    (cluster.replace p after named located carries grows below).own r =
      if r = p then after.clock (group.node p) else cluster.own r := by
  by_cases same : r = p
  · subst same
    simp [own, replace]
  · simp [own, replace, same]

/-- No change of a replica lowers any replica's own clock. This is what
bounds the stamps for ever. -/
theorem own_le_replace (cluster : Cluster group) (p r : Fin 3) (after : LocalNode) (named) (located)
    (carries) (grows) (below) :
    (cluster.own r).rank ≤
      ((cluster.replace p after named located carries grows below).own r).rank := by
  rw [own_replace]
  split
  · next same => exact same ▸ grows
  · exact Nat.le_refl _

/-- A replica learns a clock of another one, which that one has reached at
some time. -/
def learn (cluster : Cluster group) (p q : Fin 3) (record : NodeClock) (other : q ≠ p)
    (named : record.nodeId = (group.node q).nodeId)
    (bound : record.rank ≤ (cluster.own q).rank) : Cluster group :=
  cluster.replace p
    { cluster.nodes p with
      clock := Function.update (cluster.nodes p).clock (group.node q) record }
    (cluster.named p) (cluster.located p)
    (by
      intro r
      by_cases same : r = q
      · subst same
        simpa using named
      · simpa [Function.update_of_ne (group.node_injective.ne same)] using cluster.carries p r)
    (by simp [own, Function.update_of_ne (group.node_injective.ne other.symm)])
    (by
      intro r _
      by_cases same : r = q
      · subst same
        simpa using bound
      · simpa [own, Function.update_of_ne (group.node_injective.ne same)] using cluster.bounded p r)

/-- What a publish makes of the clocks of a replica: its own clock does not
go down, its other records stay, and all of them keep their identifiers. -/
theorem handled_clock (cluster : Cluster group) (p : Fin 3) (murmurHash3 : String → UInt128)
    (now : Time) (message : PublishMessage) (fits : (cluster.own p).clock.toNat + 1 < 2 ^ 64) :
    (∀ q, ((((cluster.nodes p).sendProxyPublish murmurHash3 now message).1.clock
      (group.node q)).nodeId = (group.node q).nodeId)) ∧
    (cluster.own p).rank ≤ (((cluster.nodes p).sendProxyPublish murmurHash3 now message).1.clock
      (group.node p)).rank ∧
    ∀ q, q ≠ p → ((cluster.nodes p).sendProxyPublish murmurHash3 now message).1.clock
      (group.node q) = (cluster.nodes p).clock (group.node q) := by
  obtain ⟨_, _, same | ticked⟩ := (cluster.nodes p).sendProxyPublish_kept murmurHash3 now message
  · rw [same]
    exact ⟨cluster.carries p, Nat.le_refl _, fun _ _ => rfl⟩
  · rw [ticked]
    refine ⟨fun q => ?_, ?_, fun q other => ?_⟩
    · rw [LocalNode.nodeId_tick, cluster.carries p q]
    · rw [cluster.rank_own_tick p fits]
      exact Nat.le_succ _
    · refine (cluster.nodes p).tick_other _ ?_
      rw [cluster.named p]
      exact group.node_injective.ne other

/-- A replica handles a publish: the cluster after `send_proxy_publish` to
itself. -/
def handle (cluster : Cluster group) (p : Fin 3) (murmurHash3 : String → UInt128) (now : Time)
    (message : PublishMessage) (fits : (cluster.own p).clock.toNat + 1 < 2 ^ 64) : Cluster group :=
  cluster.replace p ((cluster.nodes p).sendProxyPublish murmurHash3 now message).1
    (by rw [((cluster.nodes p).sendProxyPublish_kept murmurHash3 now message).1, cluster.named p])
    (by rw [((cluster.nodes p).sendProxyPublish_kept murmurHash3 now message).2.1,
      cluster.located p])
    (cluster.handled_clock p murmurHash3 now message fits).1
    (cluster.handled_clock p murmurHash3 now message fits).2.1
    (by
      intro q other
      rw [(cluster.handled_clock p murmurHash3 now message fits).2.2 q other]
      exact cluster.bounded p q)

/-- A publish taken up by a replica: the cluster afterwards and the clock of
the reply, if the message is for the group's queue, the counter does not
wrap and nothing is raised. -/
def publish (cluster : Cluster group) (p : Fin 3) (murmurHash3 : String → UInt128) (now : Time)
    (message : PublishMessage) : Option (Cluster group × VectorClockMessage) :=
  if fits : (cluster.own p).clock.toNat + 1 < 2 ^ 64 then
    if murmurHash3 message.queueId = group.key then
      match ((cluster.nodes p).sendProxyPublish murmurHash3 now message).2.2 with
      | .ok response => some (cluster.handle p murmurHash3 now message fits, response.clock)
      | .error _ => none
    else none
  else none

/-- The reply to a publish is a clock of the group, whatever storage it is
read into. In the replica's own component it is above everything the replica
had reached, and it does not exceed what the replicas have reached
afterwards. -/
theorem publish_reply (cluster after : Cluster group) (p : Fin 3) (murmurHash3 : String → UInt128)
    (now : Time) (message : PublishMessage) (clock : VectorClockMessage)
    (published : cluster.publish p murmurHash3 now message = some (after, clock)) :
    (∀ r, (cluster.own r).rank ≤ (after.own r).rank) ∧
    ∃ reply : ReplicaClock group.replicaSet,
      (∀ storage, VectorClock.ofMessage storage clock = .ok reply.clock) ∧
      (cluster.own p).rank < reply.clock.ranks p ∧
      ∀ r, reply.clock.ranks r ≤ (after.own r).rank := by
  unfold publish at published
  split at published
  · next fits =>
    split at published
    · next queue =>
      split at published
      · next response answered =>
        obtain ⟨rfl, rfl⟩ : cluster.handle p murmurHash3 now message fits = after ∧
            response.clock = clock := by simpa using published
        obtain ⟨reported, ticked⟩ := (cluster.nodes p).sendProxyPublish_answered murmurHash3 now
          message group.node response (queue ▸ cluster.located p) answered
        refine ⟨fun r => own_le_replace .., ⟨⟨fun q => (cluster.nodes p).tick.clock (group.node q)⟩,
          fun q => ?_⟩, fun storage => ?_, ?_, fun r => ?_⟩
        · simpa [ReplicaGroup.replicaSet] using
            ((cluster.nodes p).nodeId_tick _).trans (cluster.carries p q)
        · rw [reported]
          exact VectorClock.ofMessage_ofFn storage _
        · simp only [VectorClock.ranks, cluster.rank_own_tick p fits]
          exact Nat.lt_succ_self _
        · have bound := (cluster.handle p murmurHash3 now message fits).bounded p r
          simpa [handle, replace, own, ticked, VectorClock.ranks] using bound
      · cases published
    · cases published
  · cases published

end Cluster

/-- A run of publishes: the replicas, the reply to a publish that one
replica has handled, and the stamps so far, in order. -/
structure Session (group : ReplicaGroup) where
  cluster : Cluster group
  reply : Option (Fin 3 × PublishMessage × VectorClockMessage)
  stamps : List (Except ComparisonError (VectorClock 3))

namespace Session

variable {group : ReplicaGroup}

/-- The replicas as they are before the first publish, with no stamps. -/
def start (cluster : Cluster group) : Session group where
  cluster := cluster
  reply := none
  stamps := []

/-- A replica learns a clock, takes up a publish, or is the second one to
handle it. -/
inductive Event where
  | learn (p q : Fin 3) (record : NodeClock)
  | begin (p : Fin 3) (now : Time) (message : PublishMessage)
  | finish (q : Fin 3) (now : Time)

/-- The stamp of a publish: the join of the two replies, each read into its
own storage. -/
def stampOf (storage : Fin 3 → VectorClock 3) (p q : Fin 3) (first second : VectorClockMessage) :
    Except ComparisonError (VectorClock 3) := do
  let a ← VectorClock.ofMessage (storage p) first
  let b ← VectorClock.ofMessage (storage q) second
  VectorClock.max a b

/-- One event of a session. A publish begins when none is in progress, and
ends when another replica has handled it. -/
def step (murmurHash3 : String → UInt128) (storage : Fin 3 → VectorClock 3)
    (session : Session group) : Event → Option (Session group)
  | .learn p q record =>
      if allowed : q ≠ p ∧ record.nodeId = (group.node q).nodeId ∧
          record.rank ≤ (session.cluster.own q).rank then
        some { session with
          cluster := session.cluster.learn p q record allowed.1 allowed.2.1 allowed.2.2 }
      else none
  | .begin p now message =>
      match session.reply with
      | some _ => none
      | none =>
          (session.cluster.publish p murmurHash3 now message).map fun published =>
            { session with
              cluster := published.1
              reply := some (p, message, published.2) }
  | .finish q now =>
      match session.reply with
      | none => none
      | some (p, message, first) =>
          if q = p then none
          else
            (session.cluster.publish q murmurHash3 now message).map fun published =>
              { cluster := published.1
                reply := none
                stamps := session.stamps ++ [stampOf storage p q first published.2] }

/-- A stamp that two replies join to, as a clock of the group that does not
exceed what the replicas have reached. -/
structure Stamped (cluster : Cluster group) (stamp : Except ComparisonError (VectorClock 3))
    (clock : ReplicaClock group.replicaSet) : Prop where
  joined : stamp = .ok clock.clock
  reached : ∀ r, clock.clock.ranks r ≤ (cluster.own r).rank

/-- Every stamp is a clock of the group below what the replicas have
reached, an open reply is above all stamps in the component of its replica,
and the stamps increase. -/
structure Ordered (session : Session group) : Prop where
  stamped : ∀ stamp ∈ session.stamps, ∃ clock, Stamped session.cluster stamp clock
  replied : ∀ p message first, session.reply = some (p, message, first) →
    ∃ reply : ReplicaClock group.replicaSet,
      (∀ storage, VectorClock.ofMessage storage first = .ok reply.clock) ∧
      (∀ r, reply.clock.ranks r ≤ (session.cluster.own r).rank) ∧
      ∀ stamp ∈ session.stamps, ∀ clock : ReplicaClock group.replicaSet, stamp = .ok clock.clock →
        clock.clock.ranks p < reply.clock.ranks p
  increasing : session.stamps.Pairwise fun first second =>
    ∀ a b : ReplicaClock group.replicaSet, first = .ok a.clock → second = .ok b.clock →
      VectorClock.Less a.clock b.clock

/-- The join of two clocks of the group is one, with the higher rank in each
component. What the storage held before does not matter. -/
theorem stampOf_eq (storage : Fin 3 → VectorClock 3) (p q : Fin 3)
    (first second : VectorClockMessage) (a b : ReplicaClock group.replicaSet)
    (readFirst : ∀ storage, VectorClock.ofMessage storage first = .ok a.clock)
    (readSecond : ∀ storage, VectorClock.ofMessage storage second = .ok b.clock) :
    ∃ joined : ReplicaClock group.replicaSet,
      stampOf storage p q first second = .ok joined.clock ∧
      ∀ r, joined.clock.ranks r = Nat.max (a.clock.ranks r) (b.clock.ranks r) := by
  have same := ReplicaClock.sameNodes a b
  refine ⟨⟨VectorClock.join a.clock b.clock, fun i => ?_⟩, ?_, fun r => ?_⟩
  · simp only [VectorClock.join]
    split
    · exact b.carries i
    · exact a.carries i
  · simp [stampOf, readFirst, readSecond, bind, Except.bind, VectorClock.max_of_same_nodes _ _ same]
  · simp only [VectorClock.ranks, VectorClock.join]
    split
    · next lower => exact (Nat.max_eq_right (Nat.le_of_lt lower)).symm
    · next higher => exact (Nat.max_eq_left (Nat.le_of_not_lt higher)).symm

/-- What the replicas reach later bounds the stamps as well, so learning and
handling keep the order of what is there. -/
theorem Ordered.grow {session : Session group} (ordered : session.Ordered) (after : Cluster group)
    (grows : ∀ r, (session.cluster.own r).rank ≤ (after.own r).rank) :
    Ordered { session with cluster := after } where
  stamped := by
    intro stamp member
    obtain ⟨clock, joined, reached⟩ := ordered.stamped stamp member
    exact ⟨clock, joined, fun r => Nat.le_trans (reached r) (grows r)⟩
  replied := by
    intro p message first open'
    obtain ⟨reply, read, reached, above⟩ := ordered.replied p message first open'
    exact ⟨reply, read, fun r => Nat.le_trans (reached r) (grows r), above⟩
  increasing := ordered.increasing

/-- No stamp exceeds what a replica has reached, in the component of that
replica. -/
theorem Ordered.stamp_le {session : Session group} (ordered : session.Ordered)
    {stamp : Except ComparisonError (VectorClock 3)} (member : stamp ∈ session.stamps)
    (clock : ReplicaClock group.replicaSet) (same : stamp = .ok clock.clock) (r : Fin 3) :
    clock.clock.ranks r ≤ (session.cluster.own r).rank := by
  obtain ⟨other, joined, reached⟩ := ordered.stamped stamp member
  have equal : clock.clock = other.clock := Except.ok.inj (same.symm.trans joined)
  exact equal ▸ reached r

/-- A clock that is higher in two of the three components is greater,
whatever the third says. -/
theorem less_of_two (a b : ReplicaClock group.replicaSet) (p q : Fin 3) (different : p ≠ q)
    (atP : a.clock.ranks p < b.clock.ranks p) (atQ : a.clock.ranks q < b.clock.ranks q) :
    VectorClock.Less a.clock b.clock := by
  rw [ReplicaClock.less_iff]
  refine Majority.margin_pos_of_majority _ _ {p, q} ?_ ?_
  · rw [Finset.card_pair different]
    decide
  · intro i member
    rcases Finset.mem_insert.mp member with rfl | last
    · exact atP
    · exact Finset.mem_singleton.mp last ▸ atQ

/-- The first replica of a publish moves past every stamp in its own
component, and its reply says so. -/
theorem Ordered.begun {session : Session group} (ordered : session.Ordered) (after : Cluster group)
    (p : Fin 3) (murmurHash3 : String → UInt128) (now : Time) (message : PublishMessage)
    (first : VectorClockMessage)
    (published : session.cluster.publish p murmurHash3 now message = some (after, first)) :
    Ordered { session with cluster := after, reply := some (p, message, first) } := by
  obtain ⟨grows, reply, read, above, reached⟩ :=
    session.cluster.publish_reply after p murmurHash3 now message first published
  obtain ⟨stamped, _, increasing⟩ := ordered.grow after grows
  refine ⟨stamped, ?_, increasing⟩
  intro p' message' first' same
  cases same
  refine ⟨reply, read, reached, fun stamp member clock joined => ?_⟩
  exact Nat.lt_of_le_of_lt (ordered.stamp_le member clock joined p) above

/-- A stamp that is a clock of the group, below what the replicas have
reached and greater than all stamps before it, keeps the session ordered. -/
theorem Ordered.stamp {session : Session group} (ordered : session.Ordered)
    (stamp : Except ComparisonError (VectorClock 3)) (joined : ReplicaClock group.replicaSet)
    (stamped : Stamped session.cluster stamp joined)
    (greater : ∀ other ∈ session.stamps, ∀ clock : ReplicaClock group.replicaSet,
      other = .ok clock.clock → VectorClock.Less clock.clock joined.clock) :
    Ordered { session with reply := none, stamps := session.stamps ++ [stamp] } := by
  constructor
  · intro other member
    rcases List.mem_append.mp member with before | here
    · exact ordered.stamped other before
    · exact ⟨joined, List.mem_singleton.mp here ▸ stamped⟩
  · intro _ _ _ none
    cases none
  · refine List.pairwise_append.mpr ⟨ordered.increasing, List.pairwise_singleton _ _, ?_⟩
    intro other member last here a b sameA sameB
    have equal : b.clock = joined.clock := by
      rw [List.mem_singleton.mp here, stamped.joined] at sameB
      exact (Except.ok.inj sameB).symm
    rw [equal]
    exact greater other member a sameA

/-- The second replica moves past every stamp in its component as well, so
the join of the two replies is higher than every stamp in two components. -/
theorem Ordered.finished {session : Session group} (ordered : session.Ordered)
    (storage : Fin 3 → VectorClock 3) (after : Cluster group) (p q : Fin 3) (different : p ≠ q)
    (murmurHash3 : String → UInt128) (now : Time) (message : PublishMessage)
    (first second : VectorClockMessage) (pending : session.reply = some (p, message, first))
    (published : session.cluster.publish q murmurHash3 now message = some (after, second)) :
    Ordered ⟨after, none, session.stamps ++ [stampOf storage p q first second]⟩ := by
  obtain ⟨grows, reply, read, above, reached⟩ :=
    session.cluster.publish_reply after q murmurHash3 now message second published
  obtain ⟨earlier, readFirst, reachedFirst, aboveFirst⟩ := ordered.replied p message first pending
  obtain ⟨joined, stamp, ranks⟩ := stampOf_eq storage p q first second earlier reply readFirst read
  refine (ordered.grow after grows).stamp _ joined ⟨stamp, fun r => ?_⟩ ?_
  · rw [ranks]
    exact Nat.max_le.mpr ⟨Nat.le_trans (reachedFirst r) (grows r), reached r⟩
  · intro other member clock same
    refine less_of_two clock joined p q different ?_ ?_
    · rw [ranks]
      exact Nat.lt_of_lt_of_le (aboveFirst other member clock same) (Nat.le_max_left _ _)
    · rw [ranks]
      exact Nat.lt_of_le_of_lt (ordered.stamp_le member clock same q)
        (Nat.lt_of_lt_of_le above (Nat.le_max_right _ _))

/-- Every event of a session keeps its stamps ordered. -/
theorem Ordered.step (murmurHash3 : String → UInt128) (storage : Fin 3 → VectorClock 3)
    (session after : Session group) (event : Event) (ordered : session.Ordered)
    (enabled : session.step murmurHash3 storage event = some after) : after.Ordered := by
  cases event with
  | learn p q record =>
    simp only [Session.step] at enabled
    split at enabled
    · next allowed =>
      cases enabled
      exact ordered.grow _ fun r => Cluster.own_le_replace ..
    · cases enabled
  | begin p now message =>
    cases open' : session.reply with
    | some reply => simp [Session.step, open'] at enabled
    | none =>
      simp only [Session.step, open'] at enabled
      obtain ⟨⟨cluster, first⟩, published, rfl⟩ := Option.map_eq_some_iff.mp enabled
      exact ordered.begun cluster p murmurHash3 now message first published
  | finish q now =>
    cases open' : session.reply with
    | none => simp [Session.step, open'] at enabled
    | some pending =>
      obtain ⟨p, message, first⟩ := pending
      simp only [Session.step, open'] at enabled
      split at enabled
      · cases enabled
      · next different =>
        obtain ⟨⟨cluster, second⟩, published, rfl⟩ := Option.map_eq_some_iff.mp enabled
        exact ordered.finished storage cluster p q (Ne.symm different) murmurHash3 now message first
          second open' published

/-- In every state that a session reaches its stamps are ordered: before the
first publish there are none, and each event keeps the order. -/
theorem ordered_of_reached {murmurHash3 : String → UInt128} {storage : Fin 3 → VectorClock 3}
    {cluster : Cluster group} {session : Session group}
    (reached : Machine.Reaches (step murmurHash3 storage) (start cluster) session) :
    session.Ordered := by
  refine reached.invariant Ordered ?_ ⟨?_, ?_, List.Pairwise.nil⟩
  · intro before event after holds enabled
    exact Ordered.step murmurHash3 storage before after event holds enabled
  · intro stamp member
    cases member
  · intro _ _ _ none
    cases none

/-- The stamps of successive publishes are totally ordered: every publish is
stamped, and of two stamps the earlier one is less than the later one and
not the other way around.

Proof: the two replicas that handle the later publish move past everything
they had reached, hence past the earlier stamp, so the later stamp is higher
in two of the three components. The third one may be lower, and costs one
vote. -/
theorem sequential_stamps_ordered (group : ReplicaGroup) (murmurHash3 : String → UInt128)
    (storage : Fin 3 → VectorClock 3) (cluster : Cluster group) (session : Session group)
    (reached : Machine.Reaches (step murmurHash3 storage) (start cluster) session) :
    (∀ stamp ∈ session.stamps, ∃ clock, stamp = .ok clock) ∧
      ∀ (i j : Nat) (a b : VectorClock 3), i < j → session.stamps[i]? = some (.ok a) →
        session.stamps[j]? = some (.ok b) → VectorClock.Less a b ∧ ¬ VectorClock.Less b a := by
  have ordered := ordered_of_reached reached
  constructor
  · intro stamp member
    obtain ⟨clock, joined, _⟩ := ordered.stamped stamp member
    exact ⟨clock.clock, joined⟩
  · intro i j a b earlier atI atJ
    obtain ⟨first, joinedFirst, _⟩ := ordered.stamped _ (List.mem_of_getElem? atI)
    obtain ⟨second, joinedSecond, _⟩ := ordered.stamped _ (List.mem_of_getElem? atJ)
    obtain ⟨boundI, heldI⟩ := List.getElem?_eq_some_iff.mp atI
    obtain ⟨boundJ, heldJ⟩ := List.getElem?_eq_some_iff.mp atJ
    obtain rfl : a = first.clock := Except.ok.inj joinedFirst
    obtain rfl : b = second.clock := Except.ok.inj joinedSecond
    have less := List.pairwise_iff_getElem.mp ordered.increasing i j boundI boundJ earlier first
      second
      heldI heldJ
    exact ⟨less, ReplicaClock.less_asymmetric first second less⟩

/-- Three replicas of the queue with the key 15, for runs on fixed
inputs. -/
def freshGroup : ReplicaGroup where
  key := 15
  node := ![⟨1, 10⟩, ⟨2, 20⟩, ⟨3, 30⟩]
  distinct := by decide

/-- The same replicas when they have handled nothing: each clock is in its
first generation, at zero. -/
def freshCluster : Cluster freshGroup where
  nodes p :=
    { self := freshGroup.node p
      ring := Ring.sample
      clock := fun node => ⟨node.nodeId, 1, 0⟩
      queueManager := QueueManager.empty }
  named _ := rfl
  located _ := rfl
  carries _ _ := rfl
  bounded _ _ := Nat.le_refl _

/-- Two publishes, the first handled by the first two replicas, the second
by the last two: the first component of the stamp goes down from one to
zero. -/
theorem crossing_quorums_ordered :
    ∃ (session : Session freshGroup) (a b : VectorClock 3),
      Machine.run (step (fun _ => 15) fun _ => VectorClock.zero) (start freshCluster)
        [.begin 0 0 .sample, .finish 1 0, .begin 1 0 .sample, .finish 2 0] =
          some session ∧
      session.stamps = [.ok a, .ok b] ∧
      (List.ofFn a.value).map NodeClock.clock = [1, 1, 0] ∧
      (List.ofFn b.value).map NodeClock.clock = [0, 2, 1] ∧
      VectorClock.Less a b ∧ ¬ VectorClock.Less b a := by
  obtain ⟨session, a, b, ran, stamps, first, second⟩ :
      ∃ (session : Session freshGroup) (a b : VectorClock 3),
        Machine.run (step (fun _ => 15) fun _ => VectorClock.zero) (start freshCluster)
          [.begin 0 0 .sample, .finish 1 0, .begin 1 0 .sample, .finish 2 0] =
            some session ∧
        session.stamps = [.ok a, .ok b] ∧
        (List.ofFn a.value).map NodeClock.clock = [1, 1, 0] ∧
        (List.ofFn b.value).map NodeClock.clock = [0, 2, 1] :=
    ⟨_, _, _, rfl, rfl, by decide, by decide⟩
  have ordered := (sequential_stamps_ordered freshGroup (fun _ => 15) (fun _ => VectorClock.zero)
    freshCluster session (Machine.reaches_of_run _ _ _ _ ran)).2 0 1 a b (by decide)
    (by rw [stamps]; rfl) (by rw [stamps]; rfl)
  exact ⟨session, a, b, ran, stamps, first, second, ordered⟩

end Session

end Sopmq
