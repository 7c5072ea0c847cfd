import Sopmq.LocalRuns
import Sopmq.RingQuorum
import Sopmq.SequentialPublish

/-!
# Replicas that hold a stamped message

A publish is stamped when two of the three replicas have handled it. Both of them then hold its
message, and hold it from then on, since no later publish with another identifier touches it. So
any two stamped messages are held together by one replica at least, whichever replicas handled
them. That is what lets the replicas agree on the order of the two.
-/

namespace Sopmq

namespace Cluster

variable {group : ReplicaGroup}

/-- A replica holds the message of a publish, unstamped, with its
content. -/
def Holds (cluster : Cluster group) (r : Fin 3) (message : PublishMessage) : Prop :=
  ∃ (id : Uuid) (held : QueuedMessage 3), message.messageId = id.val ∧
    (cluster.nodes r).unstamped group.key id = some held ∧ held.data = message.content

/-- A replica holds nothing unstamped under an identifier. -/
def Lacks (cluster : Cluster group) (r : Fin 3) (messageId : Bytes) : Prop :=
  ∀ id : Uuid, messageId = id.val → (cluster.nodes r).unstamped group.key id = none

section Publish

variable {cluster after : Cluster group} {p : Fin 3} {murmurHash3 : String → UInt128} {now : Time}
  {message : PublishMessage} {clock : VectorClockMessage}

/-- A publish is for the queue of the group, and is answered by the replica
that handles it. Otherwise there is none. -/
theorem publish_some
    (published : cluster.publish p murmurHash3 now message = some (after, clock)) :
    murmurHash3 message.queueId = group.key ∧
      ∃ fits response,
        ((cluster.nodes p).sendProxyPublish murmurHash3 now message).2.2 = .ok response ∧
        after = cluster.handle p murmurHash3 now message fits := by
  unfold publish at published
  split at published
  case isFalse => cases published
  next fits =>
  split at published
  case isFalse => cases published
  next queue =>
  split at published
  case h_2 => cases published
  next response answered =>
  obtain ⟨rfl, rfl⟩ := Prod.mk.inj (Option.some.inj published)
  exact ⟨queue, fits, response, answered, rfl⟩

/-- The identifier of an answered publish has sixteen bytes, since the
handler raises on any other. -/
theorem publish_identifier
    (published : cluster.publish p murmurHash3 now message = some (after, clock)) :
    ∃ id : Uuid, message.messageId = id.val := by
  obtain ⟨-, -, response, answered, -⟩ := publish_some published
  rcases LocalNode.uuidFromBytes_accepted (now, message) with ⟨-, id, sized, -⟩ | ⟨-, error⟩
  · exact ⟨id, sized⟩
  · simp only at error
    simp [LocalNode.sendProxyPublish, error] at answered

/-- What the replicas hold after a publish: its message is new at the
replica that has handled it, unless the identifier was there. -/
theorem unstamped_publish
    (published : cluster.publish p murmurHash3 now message = some (after, clock)) (r : Fin 3)
    (id : Uuid) :
    (after.nodes r).unstamped group.key id =
      ((cluster.nodes r).unstamped group.key id).or
        (if r = p ∧ message.messageId = id.val then
          some (QueuedMessage.create now id message.content)
        else none) := by
  obtain ⟨queue, fits, -, -, rfl⟩ := publish_some published
  by_cases same : r = p
  · subst same
    simp [handle, replace, LocalNode.unstamped_sendProxyPublish, queue]
  · simp [handle, replace, same]

/-- A replica that holds a message goes on to hold it through any
publish. -/
theorem Holds.publish {r : Fin 3} {other : PublishMessage} (holds : cluster.Holds r other)
    (published : cluster.publish p murmurHash3 now message = some (after, clock)) :
    after.Holds r other := by
  obtain ⟨id, held, sized, found, content⟩ := holds
  refine ⟨id, held, sized, ?_, content⟩
  rw [unstamped_publish published, found, Option.some_or]

/-- A replica that handles a publish whose identifier is new to it holds the
message afterwards. -/
theorem Lacks.holds_publish (lacks : cluster.Lacks p message.messageId)
    (published : cluster.publish p murmurHash3 now message = some (after, clock)) :
    after.Holds p message := by
  obtain ⟨id, sized⟩ := publish_identifier published
  refine ⟨id, QueuedMessage.create now id message.content, sized, ?_, rfl⟩
  rw [unstamped_publish published, lacks id sized, Option.none_or, if_pos ⟨rfl, sized⟩]

/-- A replica that lacks an identifier goes on to lack it, unless it handles
a publish with it. -/
theorem Lacks.publish {r : Fin 3} {messageId : Bytes} (lacks : cluster.Lacks r messageId)
    (published : cluster.publish p murmurHash3 now message = some (after, clock))
    (other : r = p → message.messageId ≠ messageId) : after.Lacks r messageId := by
  intro id sized
  rw [unstamped_publish published, lacks id sized, Option.none_or, if_neg]
  rintro ⟨same, named⟩
  exact other same (named.trans sized.symm)

end Publish

/-- A replica that learns a clock holds what it held, and so do the
others. -/
theorem unstamped_learn (cluster : Cluster group) (p q r : Fin 3) (record : NodeClock) (other)
    (named) (bound) (id : Uuid) :
    ((cluster.learn p q record other named bound).nodes r).unstamped group.key id =
      (cluster.nodes r).unstamped group.key id := by
  by_cases same : r = p
  · subst same
    simp [learn, replace, LocalNode.unstamped]
  · simp [learn, replace, same]

end Cluster

namespace Session

variable {group : ReplicaGroup}

/-- The messages of the publishes that were taken up, in the order in which
they were. -/
def begun (events : List Event) : List PublishMessage :=
  events.filterMap fun
    | .begin _ _ message => some message
    | _ => none

/-- The publish that one replica has handled, if there is one. -/
def halfway (session : Session group) : List PublishMessage :=
  (session.reply.map fun reply => reply.2.1).toList

/-- What the replicas hold: the message of every stamped publish at two of
them, that of a publish in progress at the one that has handled it, and
under the other identifiers what they held at first. -/
structure Kept (first : Cluster group) (events : List Event)
    (published : List PublishMessage) (session : Session group) : Prop where
  takenUp : begun events = published ++ session.halfway
  stamps : session.stamps.length = published.length
  held : ∀ message ∈ published, ∃ p q, p ≠ q ∧
    session.cluster.Holds p message ∧ session.cluster.Holds q message
  replied : ∀ p message clock, session.reply = some (p, message, clock) →
    session.cluster.Holds p message ∧ ∀ r, r ≠ p → session.cluster.Lacks r message.messageId
  lacks : ∀ r messageId, messageId ∉ (begun events).map PublishMessage.messageId →
    first.Lacks r messageId → session.cluster.Lacks r messageId

/-- The publishes have identifiers that differ, and that the replicas do not
hold at first. -/
structure New (first : Cluster group) (messages : List PublishMessage) : Prop where
  distinct : (messages.map PublishMessage.messageId).Nodup
  unheld : ∀ message ∈ messages, ∀ r, first.Lacks r message.messageId

/-- The publishes up to some point are new if all are. -/
theorem New.of_append {first : Cluster group} {messages more : List PublishMessage}
    (new : New first (messages ++ more)) : New first messages := by
  obtain ⟨distinct, unheld⟩ := new
  rw [List.map_append] at distinct
  exact ⟨distinct.of_append_left,
    fun message member => unheld message (List.mem_append_left _ member)⟩

/-- One event more adds the publish that it takes up, if it takes one up. -/
theorem begun_append (events : List Event) (event : Event) :
    begun (events ++ [event]) = begun events ++ begun [event] :=
  List.filterMap_append

section Steps

variable {first : Cluster group} {events : List Event} {published : List PublishMessage}
  {session : Session group} {murmurHash3 : String → UInt128} {storage : Fin 3 → VectorClock 3}

/-- A replica that learns a clock keeps the account, as no message is
touched. -/
theorem Kept.learn (kept : Kept first events published session) (p q : Fin 3)
    (record : NodeClock) (other) (named) (bound) :
    Kept first (events ++ [.learn p q record]) published
      { session with cluster := session.cluster.learn p q record other named bound } := by
  have same : begun (events ++ [.learn p q record]) = begun events := by
    rw [begun_append]
    exact List.append_nil _
  obtain ⟨started, stamps, held, replied, lacks⟩ := kept
  simp only [Cluster.Holds, Cluster.Lacks] at held replied lacks
  refine ⟨same.trans started, stamps, ?_, ?_, ?_⟩ <;>
    simp only [Cluster.Holds, Cluster.Lacks, Cluster.unstamped_learn, same]
  · exact held
  · exact replied
  · exact lacks

/-- The first replica of a publish holds its message afterwards, and the
others still lack it. -/
theorem Kept.begin (kept : Kept first events published session) (p : Fin 3) (now : Time)
    (message : PublishMessage) (after : Cluster group) (clock : VectorClockMessage)
    (new : New first (begun (events ++ [.begin p now message])))
    (idle : session.reply = none)
    (answered : session.cluster.publish p murmurHash3 now message = some (after, clock)) :
    Kept first (events ++ [.begin p now message]) published
      { session with cluster := after, reply := some (p, message, clock) } := by
  have started : begun (events ++ [.begin p now message]) = begun events ++ [message] :=
    begun_append events _
  rw [started] at new
  have unheld : ∀ r, session.cluster.Lacks r message.messageId := by
    intro r
    refine kept.lacks r message.messageId ?_
      (new.unheld message (List.mem_append_right _ List.mem_cons_self) r)
    have distinct := new.distinct
    rw [List.map_append, List.nodup_append] at distinct
    intro earlier
    exact distinct.2.2 _ earlier _ List.mem_cons_self rfl
  refine ⟨?_, kept.stamps, ?_, ?_, ?_⟩
  · rw [started, kept.takenUp, halfway, idle]
    simp [halfway]
  · intro stamped member
    obtain ⟨p', q', different, holds, holds'⟩ := kept.held stamped member
    exact ⟨p', q', different, holds.publish answered, holds'.publish answered⟩
  · rintro _ _ _ ⟨⟩
    exact ⟨(unheld p).holds_publish answered, fun r other =>
      (unheld r).publish answered fun same => absurd same other⟩
  · intro r messageId absent initially
    rw [started, List.map_append, List.mem_append, not_or] at absent
    refine (kept.lacks r messageId absent.1 initially).publish answered fun _ same => ?_
    exact absent.2 (same ▸ List.mem_cons_self)

/-- The second replica of a publish holds its message as well, so that two
of them do when it is stamped. -/
theorem Kept.finish (kept : Kept first events published session) (p q : Fin 3) (now : Time)
    (message : PublishMessage) (reply clock : VectorClockMessage) (after : Cluster group)
    (stamp : Except ComparisonError (VectorClock 3))
    (waiting : session.reply = some (p, message, reply)) (other : q ≠ p)
    (answered : session.cluster.publish q murmurHash3 now message = some (after, clock)) :
    Kept first (events ++ [.finish q now]) (published ++ [message])
      { cluster := after, reply := none, stamps := session.stamps ++ [stamp] } := by
  have same : begun (events ++ [.finish q now]) = begun events := by
    rw [begun_append]
    exact List.append_nil _
  obtain ⟨holds, lacks⟩ := kept.replied p message reply waiting
  have started : begun events = published ++ [message] := by
    rw [kept.takenUp, halfway, waiting]
    rfl
  refine ⟨?_, ?_, ?_, (fun _ _ _ none => nomatch none), ?_⟩
  · rw [same, started]
    exact (List.append_nil _).symm
  · simp [kept.stamps]
  · intro stamped member
    rcases List.mem_append.mp member with earlier | last
    · obtain ⟨p', q', different, here, there⟩ := kept.held stamped earlier
      exact ⟨p', q', different, here.publish answered, there.publish answered⟩
    · cases List.mem_singleton.mp last
      exact ⟨p, q, other.symm, holds.publish answered, (lacks q other).holds_publish answered⟩
  · intro r messageId absent initially
    rw [same] at absent
    refine (kept.lacks r messageId absent initially).publish answered fun _ named => absent ?_
    rw [started, ← named]
    exact List.mem_map_of_mem (List.mem_append_right _ List.mem_cons_self)

/-- Every event of a session keeps what the replicas hold, and adds a
stamped publish or none. -/
theorem Kept.step (kept : Kept first events published session) (event : Event)
    (after : Session group) (new : New first (begun (events ++ [event])))
    (moved : session.step murmurHash3 storage event = some after) :
    ∃ published, Kept first (events ++ [event]) published after := by
  cases event with
  | learn p q record =>
    simp only [Session.step] at moved
    split at moved
    case isFalse => cases moved
    obtain rfl := Option.some.inj moved
    exact ⟨published, kept.learn p q record _ _ _⟩
  | begin p now message =>
    simp only [Session.step] at moved
    split at moved
    · cases moved
    next idle =>
    obtain ⟨⟨cluster, clock⟩, answered, rfl⟩ := Option.map_eq_some_iff.mp moved
    exact ⟨published, kept.begin p now message cluster clock new idle answered⟩
  | finish q now =>
    simp only [Session.step] at moved
    split at moved
    · cases moved
    next p message reply waiting =>
    split at moved
    · cases moved
    next other =>
    obtain ⟨⟨cluster, clock⟩, answered, rfl⟩ := Option.map_eq_some_iff.mp moved
    exact ⟨published ++ [message], kept.finish p q now message reply clock cluster _ waiting other
      answered⟩

end Steps

/-- At the start nothing has been published, and the replicas hold what they
hold. -/
theorem start_kept (cluster : Cluster group) : Kept cluster [] [] (start cluster) where
  takenUp := rfl
  stamps := rfl
  held := fun _ member => nomatch member
  replied := fun _ _ _ none => nomatch none
  lacks := fun _ _ _ lacks => lacks

/-- Every stamped message is held by two replicas, with the content that was
published, and any two of them are held together by one replica, at every
later time. -/
theorem stamped_held_by_quorum (murmurHash3 : String → UInt128)
    (storage : Fin 3 → VectorClock 3) (cluster : Cluster group) (events : List Event)
    (session : Session group)
    (ran : Machine.run (step murmurHash3 storage) (start cluster) events = some session)
    (new : New cluster (begun events)) :
    ∃ published, published <+: begun events ∧ published.length = session.stamps.length ∧
      (∀ message ∈ published, ∃ p q, p ≠ q ∧
        session.cluster.Holds p message ∧ session.cluster.Holds q message) ∧
      ∀ message ∈ published, ∀ other ∈ published, ∃ r,
        session.cluster.Holds r message ∧ session.cluster.Holds r other := by
  obtain ⟨published, kept⟩ : ∃ published, Kept cluster events published session := by
    refine Machine.run_invariant (fun past state => New cluster (begun past) →
      ∃ published, Kept cluster past published state) ?_ ran (fun _ => ⟨[], start_kept cluster⟩) new
    intro past before event after inductionHypothesis moved new
    obtain ⟨published, kept⟩ := inductionHypothesis (begun_append past event ▸ new).of_append
    exact kept.step event after new moved
  refine ⟨published, kept.takenUp ▸ List.prefix_append _ _, kept.stamps.symm, kept.held, ?_⟩
  intro message member other member'
  obtain ⟨p, q, different, holds, holds'⟩ := kept.held message member
  obtain ⟨p', q', different', here, there⟩ := kept.held other member'
  obtain ⟨r, one, another⟩ := Ring.pairs_share_position p q p' q' different different'
  refine ⟨r, ?_, ?_⟩
  · rcases one with rfl | rfl
    · exact holds
    · exact holds'
  · rcases another with rfl | rfl
    · exact here
    · exact there

/-- Two publishes with different identifiers, the first handled by the first
two replicas, the second by the last two. -/
def crossingEvents : List Event :=
  [.begin 0 0 PublishMessage.sample, .finish 1 0,
    .begin 1 0 { PublishMessage.sample with messageId := List.replicate 16 2, content := [2] },
    .finish 2 0]

/-- The replica in the middle holds both messages, having handled both
publishes. -/
theorem stamped_held_by_quorum_crossing :
    ∃ session : Session freshGroup,
      Machine.run (step (fun _ => 15) fun _ => VectorClock.zero) (start freshCluster)
        crossingEvents = some session ∧
      ∃ published, published <+: begun crossingEvents ∧
        published.length = session.stamps.length ∧
        (∀ message ∈ published, ∃ p q, p ≠ q ∧
          session.cluster.Holds p message ∧ session.cluster.Holds q message) ∧
        ∀ message ∈ published, ∀ other ∈ published, ∃ r,
          session.cluster.Holds r message ∧ session.cluster.Holds r other := by
  have new : New freshCluster (begun crossingEvents) :=
    ⟨by decide, fun _ _ _ _ _ => rfl⟩
  obtain ⟨session, ran⟩ : ∃ session : Session freshGroup,
      Machine.run (step (fun _ => 15) fun _ => VectorClock.zero) (start freshCluster)
        crossingEvents = some session := ⟨_, rfl⟩
  exact ⟨session, ran, stamped_held_by_quorum _ _ freshCluster crossingEvents session ran new⟩

end Session

end Sopmq
