import Sopmq.SequentialPublish

/-!
# Stamps of overlapping publishes

The replicas of a queue handle publishes that overlap in any way: any number of them is in progress
at a time, each replica takes them up in an order of its own, and a publish is stamped with the
replies of any two replicas, whenever both are there. As before, a replica may learn clocks in
between.

A reply is above all replies before it in the component of the replica that gives it, whichever
publishes they belong to. So the stamps of two publishes differ in the component of the last of
their replies. A publish that begins when another one has been stamped is above that stamp in two
components, whatever else is in progress.
-/

namespace Sopmq

/-- The reply of a replica to a publish, which is named by its position
among all publishes. -/
structure OverlapReply where
  publish : Nat
  replica : Fin 3
  clock : VectorClockMessage

/-- The stamp of a publish, with the positions of the replies that it joins
and the number of publishes that had begun at its time. -/
structure OverlapStamp where
  publish : Nat
  first : Nat
  second : Nat
  clock : Except ComparisonError (VectorClock 3)
  begun : Nat

/-- The replicas, the messages of the publishes, the replies in the order in
which they were given, and the stamps. -/
structure Overlap (group : ReplicaGroup) where
  cluster : Cluster group
  messages : List PublishMessage
  replies : List OverlapReply
  stamps : List OverlapStamp

/-- A replica learns a clock, a publish begins, a replica handles a publish,
or a publish is stamped with the replies at two positions. -/
inductive OverlapEvent where
  | learn (p q : Fin 3) (record : NodeClock)
  | begin (message : PublishMessage)
  | handle (publish : Nat) (p : Fin 3) (now : Time)
  | stamp (first second : Nat)

namespace Overlap

variable {group : ReplicaGroup}

/-- The replicas as they are before the first publish, with no replies and
no stamps. -/
def start (cluster : Cluster group) : Overlap group where
  cluster := cluster
  messages := []
  replies := []
  stamps := []

/-- One event. A publish is handled at any time after it has begun, and is
stamped with any two replies to it that come from different replicas. -/
def step (murmurHash3 : String → UInt128) (storage : Fin 3 → VectorClock 3)
    (overlap : Overlap group) : OverlapEvent → Option (Overlap group)
  | .learn p q record =>
      if allowed : q ≠ p ∧ record.nodeId = (group.node q).nodeId ∧
          record.rank ≤ (overlap.cluster.own q).rank then
        some { overlap with
          cluster := overlap.cluster.learn p q record allowed.1 allowed.2.1 allowed.2.2 }
      else none
  | .begin message => some { overlap with messages := overlap.messages ++ [message] }
  | .handle publish p now => do
      let message ← overlap.messages[publish]?
      let (cluster, clock) ← overlap.cluster.publish p murmurHash3 now message
      some { overlap with
        cluster := cluster
        replies := overlap.replies ++ [⟨publish, p, clock⟩] }
  | .stamp first second => do
      let a ← overlap.replies[first]?
      let b ← overlap.replies[second]?
      if a.publish = b.publish ∧ a.replica ≠ b.replica then
        some { overlap with
          stamps := overlap.stamps ++
            [⟨a.publish, first, second,
              Session.stampOf storage a.replica b.replica a.clock b.clock,
              overlap.messages.length⟩] }
      else none

end Overlap

namespace OverlapReply

/-- The rank of each component of the clock of a reply, which is zero if it
cannot be read. -/
def ranks (reply : OverlapReply) (r : Fin 3) : Nat :=
  match VectorClock.ofMessage VectorClock.zero reply.clock with
  | .ok clock => clock.ranks r
  | .error _ => 0

/-- The reply is read as a clock of the group, whatever storage it is read
into. -/
def Reads {group : ReplicaGroup} (reply : OverlapReply) (clock : ReplicaClock group.replicaSet) :
    Prop :=
  ∀ storage, VectorClock.ofMessage storage reply.clock = .ok clock.clock

/-- The ranks of such a reply are those of the clock it is read as. -/
theorem Reads.ranks_eq {group : ReplicaGroup} {reply : OverlapReply}
    {clock : ReplicaClock group.replicaSet} (reads : reply.Reads clock) (r : Fin 3) :
    reply.ranks r = clock.clock.ranks r := by
  rw [ranks, reads]

end OverlapReply

namespace Overlap

variable {group : ReplicaGroup}

/-- A stamp joins two replies to its publish, of different replicas. Every
reply to a publish that had not begun at its time is above it in the
component of its replica. -/
structure Joins (overlap : Overlap group) (stamp : OverlapStamp) (a b : OverlapReply)
    (clock : ReplicaClock group.replicaSet) : Prop where
  first : overlap.replies[stamp.first]? = some a
  second : overlap.replies[stamp.second]? = some b
  publish : a.publish = stamp.publish ∧ b.publish = stamp.publish
  different : a.replica ≠ b.replica
  joined : stamp.clock = .ok clock.clock
  ranks : ∀ r, clock.clock.ranks r = Nat.max (a.ranks r) (b.ranks r)
  above : ∀ reply ∈ overlap.replies, stamp.begun ≤ reply.publish →
    clock.clock.ranks reply.replica < reply.ranks reply.replica

/-- Every reply is a clock of the group below what the replicas have
reached, and is above the replies before it in the component of its
replica. -/
structure Causal (overlap : Overlap group) : Prop where
  read : ∀ reply ∈ overlap.replies, ∃ clock : ReplicaClock group.replicaSet, reply.Reads clock
  reached : ∀ reply ∈ overlap.replies, ∀ r, reply.ranks r ≤ (overlap.cluster.own r).rank
  begun : ∀ reply ∈ overlap.replies, reply.publish < overlap.messages.length
  causal : overlap.replies.Pairwise fun earlier later =>
    earlier.ranks later.replica < later.ranks later.replica
  joins : ∀ stamp ∈ overlap.stamps, ∃ a b clock, overlap.Joins stamp a b clock

/-- No stamp exceeds what the replicas have reached, because no reply
does. -/
theorem Causal.stamp_le {overlap : Overlap group} (causal : overlap.Causal) {stamp : OverlapStamp}
    {a b : OverlapReply} {clock : ReplicaClock group.replicaSet}
    (joins : overlap.Joins stamp a b clock) (r : Fin 3) :
    clock.clock.ranks r ≤ (overlap.cluster.own r).rank := by
  rw [joins.ranks]
  exact Nat.max_le.mpr ⟨causal.reached a (List.mem_of_getElem? joins.first) r,
    causal.reached b (List.mem_of_getElem? joins.second) r⟩

/-- The replicas move on, and what they reach bounds the replies as
before. -/
theorem Causal.grow {overlap : Overlap group} (causal : overlap.Causal) (after : Cluster group)
    (grows : ∀ r, (overlap.cluster.own r).rank ≤ (after.own r).rank) :
    Causal { overlap with cluster := after } where
  read := causal.read
  reached reply member r := (causal.reached reply member r).trans (grows r)
  begun := causal.begun
  causal := causal.causal
  joins stamp member := by
    obtain ⟨a, b, clock, joins⟩ := causal.joins stamp member
    exact ⟨a, b, clock, { joins with }⟩

/-- A publish begins. There are no replies to it, so the replies and stamps
are as they were. -/
theorem Causal.begin {overlap : Overlap group} (causal : overlap.Causal)
    (message : PublishMessage) :
    Causal { overlap with messages := overlap.messages ++ [message] } where
  read := causal.read
  reached := causal.reached
  begun reply member := by
    have earlier := causal.begun reply member
    simp only [List.length_append, List.length_singleton]
    omega
  causal := causal.causal
  joins stamp member := by
    obtain ⟨a, b, clock, joins⟩ := causal.joins stamp member
    exact ⟨a, b, clock, { joins with }⟩

/-- A replica handles a publish: its reply is above everything that the
replica had reached, hence above all replies and stamps. -/
theorem Causal.handle {overlap : Overlap group} (causal : overlap.Causal) (publish : Nat)
    (p : Fin 3) (murmurHash3 : String → UInt128) (now : Time) (message : PublishMessage)
    (found : overlap.messages[publish]? = some message) (after : Cluster group)
    (clock : VectorClockMessage)
    (published : overlap.cluster.publish p murmurHash3 now message = some (after, clock)) :
    Causal { overlap with
      cluster := after
      replies := overlap.replies ++ [⟨publish, p, clock⟩] } := by
  obtain ⟨grows, reply, reads, above, reached⟩ :=
    overlap.cluster.publish_reply after p murmurHash3 now message clock published
  have given : OverlapReply.Reads ⟨publish, p, clock⟩ reply := reads
  have grown := causal.grow after grows
  have kept : ∀ {position : Nat} {given : OverlapReply},
      overlap.replies[position]? = some given →
      (overlap.replies ++ [⟨publish, p, clock⟩])[position]? = some given := by
    intro position given there
    rw [List.getElem?_append_left (List.getElem?_eq_some_iff.mp there).1, there]
  constructor
  · exact List.forall_mem_append.mpr ⟨causal.read, List.forall_mem_singleton.mpr ⟨reply, reads⟩⟩
  · refine List.forall_mem_append.mpr ⟨grown.reached, List.forall_mem_singleton.mpr fun r => ?_⟩
    rw [given.ranks_eq]
    exact reached r
  · exact List.forall_mem_append.mpr ⟨causal.begun,
      List.forall_mem_singleton.mpr (List.getElem?_eq_some_iff.mp found).1⟩
  · refine List.pairwise_append.mpr ⟨causal.causal, List.pairwise_singleton _ _, ?_⟩
    intro earlier member
    refine List.forall_mem_singleton.mpr ?_
    rw [given.ranks_eq]
    exact (causal.reached earlier member p).trans_lt above
  · intro stamp member
    obtain ⟨a, b, joined, joins⟩ := causal.joins stamp member
    refine ⟨a, b, joined,
      { joins with first := kept joins.first, second := kept joins.second, above := ?_ }⟩
    refine List.forall_mem_append.mpr ⟨joins.above, List.forall_mem_singleton.mpr fun _ => ?_⟩
    rw [given.ranks_eq]
    exact (causal.stamp_le joins p).trans_lt above

/-- A publish is stamped. No reply to a publish that has yet to begin is
there, so the stamp has nothing to be compared with. -/
theorem Causal.stamp {overlap : Overlap group} (causal : overlap.Causal)
    (storage : Fin 3 → VectorClock 3) (first second : Nat) (a b : OverlapReply)
    (atFirst : overlap.replies[first]? = some a) (atSecond : overlap.replies[second]? = some b)
    (same : a.publish = b.publish) (different : a.replica ≠ b.replica) :
    Causal { overlap with
      stamps := overlap.stamps ++
        [⟨a.publish, first, second,
          Session.stampOf storage a.replica b.replica a.clock b.clock,
          overlap.messages.length⟩] } := by
  refine { causal with joins := ?_ }
  intro stamp member
  rcases List.mem_append.mp member with earlier | last
  · obtain ⟨x, y, clock, joins⟩ := causal.joins stamp earlier
    exact ⟨x, y, clock, { joins with }⟩
  · obtain ⟨read, reads⟩ := causal.read a (List.mem_of_getElem? atFirst)
    obtain ⟨other, otherReads⟩ := causal.read b (List.mem_of_getElem? atSecond)
    obtain ⟨joined, stampOf, ranks⟩ := Session.stampOf_eq storage a.replica b.replica a.clock
      b.clock read other reads otherReads
    rw [List.mem_singleton.mp last]
    refine ⟨a, b, joined, atFirst, atSecond, ⟨rfl, same.symm⟩, different, stampOf, ?_, ?_⟩
    · intro r
      rw [ranks, reads.ranks_eq, otherReads.ranks_eq]
    · intro reply given later
      exact absurd (causal.begun reply given) (Nat.not_lt.mpr later)

/-- Every event keeps the replies and stamps in their causal order. -/
theorem Causal.step (murmurHash3 : String → UInt128) (storage : Fin 3 → VectorClock 3)
    (overlap after : Overlap group) (event : OverlapEvent) (causal : overlap.Causal)
    (enabled : overlap.step murmurHash3 storage event = some after) : after.Causal := by
  cases event with
  | learn p q record =>
    simp only [Overlap.step] at enabled
    split at enabled
    · cases enabled
      exact causal.grow _ fun r => Cluster.own_le_replace ..
    · cases enabled
  | begin message =>
    cases enabled
    exact causal.begin message
  | handle publish p now =>
    obtain ⟨message, found, enabled⟩ := Option.bind_eq_some_iff.mp enabled
    obtain ⟨⟨cluster, clock⟩, published, moved⟩ := Option.bind_eq_some_iff.mp enabled
    cases moved
    exact causal.handle publish p murmurHash3 now message found cluster clock published
  | stamp first second =>
    obtain ⟨a, atFirst, enabled⟩ := Option.bind_eq_some_iff.mp enabled
    obtain ⟨b, atSecond, enabled⟩ := Option.bind_eq_some_iff.mp enabled
    split at enabled
    · next allowed =>
      cases enabled
      exact causal.stamp storage first second a b atFirst atSecond allowed.1 allowed.2
    · cases enabled

/-- At the start there are no replies and no stamps. -/
theorem start_causal (cluster : Cluster group) : (start cluster).Causal where
  read _ member := nomatch member
  reached _ member := nomatch member
  begun _ member := nomatch member
  causal := List.Pairwise.nil
  joins _ member := nomatch member

/-- A reply is above an earlier one in the component of its replica,
whichever publishes the two belong to. -/
theorem Causal.later_above {overlap : Overlap group} (causal : overlap.Causal)
    {earlier later : Nat} {a b : OverlapReply} (order : earlier < later)
    (atEarlier : overlap.replies[earlier]? = some a) (atLater : overlap.replies[later]? = some b) :
    a.ranks b.replica < b.ranks b.replica := by
  obtain ⟨earlierBound, rfl⟩ := List.getElem?_eq_some_iff.mp atEarlier
  obtain ⟨laterBound, rfl⟩ := List.getElem?_eq_some_iff.mp atLater
  exact List.pairwise_iff_getElem.mp causal.causal earlier later earlierBound laterBound order

/-- The later of the two replies that a stamp joins, which the stamp is at
least as high as. -/
theorem Joins.last {overlap : Overlap group} {stamp : OverlapStamp} {a b : OverlapReply}
    {clock : ReplicaClock group.replicaSet} (joins : overlap.Joins stamp a b clock) :
    ∃ reply : OverlapReply, overlap.replies[max stamp.first stamp.second]? = some reply ∧
      reply.publish = stamp.publish ∧ ∀ r, reply.ranks r ≤ clock.clock.ranks r := by
  rcases le_total stamp.first stamp.second with order | order
  · refine ⟨b, by rw [max_eq_right order, joins.second], joins.publish.2, fun r => ?_⟩
    rw [joins.ranks]
    exact Nat.le_max_right _ _
  · refine ⟨a, by rw [max_eq_left order, joins.first], joins.publish.1, fun r => ?_⟩
    rw [joins.ranks]
    exact Nat.le_max_left _ _

/-- Of two stamps, the one whose last reply is later is above the other in a
component, namely that of the replica which gave it. -/
theorem Causal.above_of_later {overlap : Overlap group} (causal : overlap.Causal)
    {s t : OverlapStamp} {a b c d : OverlapReply} {x y : ReplicaClock group.replicaSet}
    (joins : overlap.Joins s a b x) (others : overlap.Joins t c d y)
    (later : max s.first s.second < max t.first t.second) :
    ∃ r, x.clock.ranks r < y.clock.ranks r := by
  obtain ⟨reply, there, -, below⟩ := others.last
  refine ⟨reply.replica, ?_⟩
  rw [joins.ranks]
  refine lt_of_lt_of_le (Nat.max_lt.mpr ⟨?_, ?_⟩) (below reply.replica)
  · exact causal.later_above ((le_max_left _ _).trans_lt later) joins.first there
  · exact causal.later_above ((le_max_right _ _).trans_lt later) joins.second there

/-- The stamps of two publishes are different: their last replies are, and
one of these is the later one. -/
theorem Causal.stamps_differ {overlap : Overlap group} (causal : overlap.Causal)
    {s t : OverlapStamp} {a b c d : OverlapReply} {x y : ReplicaClock group.replicaSet}
    (joins : overlap.Joins s a b x) (others : overlap.Joins t c d y)
    (different : s.publish ≠ t.publish) : x.clock ≠ y.clock := by
  intro same
  rcases lt_trichotomy (max s.first s.second) (max t.first t.second) with later | together | later
  · obtain ⟨r, less⟩ := causal.above_of_later joins others later
    exact absurd less (by rw [same]; exact lt_irrefl _)
  · obtain ⟨reply, there, publish, -⟩ := joins.last
    obtain ⟨other, otherThere, otherPublish, -⟩ := others.last
    rw [together, otherThere] at there
    cases there
    exact different (publish.symm.trans otherPublish)
  · obtain ⟨r, less⟩ := causal.above_of_later others joins later
    exact absurd less (by rw [same]; exact lt_irrefl _)

/-- A publish that has begun after a stamp is above it in two components,
those of the two replicas that handled it. -/
theorem Joins.less {overlap : Overlap group} {s t : OverlapStamp} {a b c d : OverlapReply}
    {x y : ReplicaClock group.replicaSet} (joins : overlap.Joins s a b x)
    (others : overlap.Joins t c d y) (after : s.begun ≤ t.publish) :
    VectorClock.Less x.clock y.clock := by
  refine Session.less_of_two x y c.replica d.replica others.different ?_ ?_
  · rw [others.ranks]
    exact (joins.above c (List.mem_of_getElem? others.first)
      (after.trans_eq others.publish.1.symm)).trans_le (Nat.le_max_left _ _)
  · rw [others.ranks]
    exact (joins.above d (List.mem_of_getElem? others.second)
      (after.trans_eq others.publish.2.symm)).trans_le (Nat.le_max_right _ _)

/-- In every interleaving of publishes, each of their stamps is a clock, and
no two publishes have the same one. If a publish has begun after another one
was stamped, its stamp is the greater one, and not the other way around.

Proof: the last of the replies that the two stamps join belongs to one of
the publishes, and is above everything before it in the component of its
replica. -/
theorem overlapping_stamps (murmurHash3 : String → UInt128) (storage : Fin 3 → VectorClock 3)
    (cluster : Cluster group) (overlap : Overlap group)
    (reached : Machine.Reaches (step murmurHash3 storage) (start cluster) overlap)
    (s t : OverlapStamp) (given : s ∈ overlap.stamps) (other : t ∈ overlap.stamps) :
    ∃ a b : VectorClock 3, s.clock = .ok a ∧ t.clock = .ok b ∧
      (s.publish ≠ t.publish → a ≠ b) ∧
      (s.begun ≤ t.publish → VectorClock.Less a b ∧ ¬ VectorClock.Less b a) := by
  have causal : overlap.Causal := by
    refine reached.invariant Causal ?_ (start_causal cluster)
    intro before event after holds enabled
    exact Causal.step murmurHash3 storage before after event holds enabled
  obtain ⟨_, _, x, joins⟩ := causal.joins s given
  obtain ⟨_, _, y, others⟩ := causal.joins t other
  refine ⟨x.clock, y.clock, joins.joined, others.joined, causal.stamps_differ joins others, ?_⟩
  intro after
  have less := joins.less others after
  exact ⟨less, ReplicaClock.less_asymmetric x y less⟩

/-- Two publishes that overlap, and a third one that begins when the first
of them has been stamped and the second one has not. -/
def interleavedEvents : List OverlapEvent :=
  [.begin .sample, .begin .sample, .handle 1 1 0, .handle 0 0 0,
    .handle 0 1 0, .stamp 1 2, .begin .sample, .handle 2 2 0, .handle 1 2 0,
    .handle 2 0 0, .stamp 4 0, .stamp 3 5]

/-- The stamps of the publishes that overlap differ, and that of the third
is greater than the first. -/
theorem overlapping_stamps_interleaved :
    ∃ (overlap : Overlap Session.freshGroup) (s t u : OverlapStamp),
      Machine.run (step (fun _ => 15) fun _ => VectorClock.zero) (start Session.freshCluster)
        interleavedEvents = some overlap ∧
      overlap.stamps = [s, t, u] ∧
      (∃ a b, s.clock = .ok a ∧ t.clock = .ok b ∧ a ≠ b) ∧
      ∃ a b, s.clock = .ok a ∧ u.clock = .ok b ∧ VectorClock.Less a b := by
  obtain ⟨overlap, s, t, u, ran, stamps, first, second, begun, third⟩ :
      ∃ (overlap : Overlap Session.freshGroup) (s t u : OverlapStamp),
        Machine.run (step (fun _ => 15) fun _ => VectorClock.zero) (start Session.freshCluster)
          interleavedEvents = some overlap ∧
        overlap.stamps = [s, t, u] ∧ s.publish = 0 ∧ t.publish = 1 ∧ s.begun = 2 ∧
        u.publish = 2 := ⟨_, _, _, _, rfl, rfl, rfl, rfl, rfl, rfl⟩
  have reached := Machine.reaches_of_run _ _ overlap interleavedEvents ran
  refine ⟨overlap, s, t, u, ran, stamps, ?_, ?_⟩
  · obtain ⟨a, b, atFirst, atSecond, differ, -⟩ := overlapping_stamps _ _ _ overlap reached s t
      (by simp [stamps]) (by simp [stamps])
    exact ⟨a, b, atFirst, atSecond, differ (by simp [first, second])⟩
  · obtain ⟨a, b, atFirst, atThird, -, ordered⟩ := overlapping_stamps _ _ _ overlap reached s u
      (by simp [stamps]) (by simp [stamps])
    exact ⟨a, b, atFirst, atThird, (ordered (by simp [begun, third])).1⟩

end Overlap

end Sopmq
