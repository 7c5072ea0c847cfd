import Sopmq.PublishOutcomes
import Sopmq.RingQuorum

/-!
# The nodes a publish is sent to

The quorum logic walks the slots of the array by index, while the ring blanks the
slots of repeated nodes. Which slots are reached depends on the first answer alone, so
the null pointers that are called can be read off the array, and from there off the ring,
the liveness of its nodes and the shuffle.
-/

namespace Sopmq.PublishRun

variable {answers : Answers} {message : PublishMessage} {nextId : UInt32}
  {nodes : Fin 3 → Option Node} {run : PublishRun}

/-- A pointer has been called if it is in a slot that the index has
passed. -/
theorem Books.mem_published_iff (books : Books answers nodes run) (pointer : Option Node) :
    pointer ∈ run.published ↔ ∃ k : Fin 3, k.val < run.logic.lastNode ∧ nodes k = pointer := by
  rw [books.walked, List.mem_take_iff_getElem]
  constructor
  · rintro ⟨i, bound, held⟩
    rw [List.length_ofFn] at bound
    rw [List.getElem_ofFn] at held
    exact ⟨⟨i, by omega⟩, Nat.lt_of_lt_of_le bound (Nat.min_le_left _ _), held⟩
  · rintro ⟨k, bound, held⟩
    refine ⟨k.val, by simp [bound], ?_⟩
    rw [List.getElem_ofFn]
    exact held

/-- No null pointer is ever called exactly when the first two slots hold
nodes, and so does the third one if the first node rejects inside its
call. -/
theorem null_not_published_iff (answers : Answers) (message : PublishMessage) (nextId : UInt32)
    (nodes : Fin 3 → Option Node) :
    (∀ run, Reachable answers message nextId nodes run → none ∉ run.published) ↔
      nodes 0 ≠ none ∧ nodes 1 ≠ none ∧
        ((nodes 0).any answers.rejectsInside = true → nodes 2 ≠ none) := by
  constructor
  · intro sound
    obtain ⟨run, reached, ended⟩ := exists_ended answers message nextId nodes
    have walk := reached.walk
    have absent := sound run reached
    have settled : run.Settled := by
      refine ended.resolve_right fun made => absent ?_
      exact walk.accounted.subset (List.mem_append_left _ (by simp [made]))
    have filled : ∀ k : Fin 3, k.val < reach answers nodes → nodes k ≠ none := by
      intro k called null
      rw [← walk.phase.index_le.2 settled.2.1] at called
      exact absent ((walk.books.mem_published_iff none).mpr ⟨k, called, null⟩)
    have two : 2 ≤ reach answers nodes := by
      unfold reach
      split <;> decide
    exact ⟨filled 0 (Nat.lt_of_lt_of_le (by decide) two), filled 1 two,
      fun retry => filled 2 (by simp [reach, retry])⟩
  · rintro ⟨first, second, third⟩ run reached member
    have walk := reached.walk
    obtain ⟨k, bound, null⟩ := (walk.books.mem_published_iff none).mp member
    match k with
    | 0 => exact first null
    | 1 => exact second null
    | 2 =>
      have called := Nat.lt_of_lt_of_le bound walk.phase.index_le.1
      refine third ?_ null
      by_contra plain
      simp [reach, plain] at called

/-- Every pointer passed to the publish function is a replica of the
message's queue, and no pointer is passed twice, in every state that the
handler of the message leads to. -/
def PublishesToReplicas (murmurHash3 : String → UInt128) (ring : Ring) (isAlive : Node → Bool)
    (shuffle : Equiv.Perm (Fin 3)) (answers : Answers) (message : PublishMessage)
    (nextId : UInt32) : Prop :=
  ∀ replicas first run, ring.findNodesForKey (murmurHash3 message.queueId) = .ok replicas →
    handlePostMessage murmurHash3 ring isAlive shuffle true message nextId = .ok (.started first) →
    Machine.Reaches (step answers) first run →
      (∀ pointer ∈ run.published, ∃ p, pointer = some (replicas p)) ∧ run.published.Nodup

/-- The handler enters the quorum logic with the array that the ring
returns, and only with it. -/
theorem handlePostMessage_started_iff (murmurHash3 : String → UInt128) (ring : Ring)
    (isAlive : Node → Bool) (shuffle : Equiv.Perm (Fin 3)) (message : PublishMessage)
    (nextId : UInt32) (first : PublishRun) :
    handlePostMessage murmurHash3 ring isAlive shuffle true message nextId =
        .ok (.started first) ↔
      ∃ outNodes, ring.findQuorumForOperation isAlive shuffle (murmurHash3 message.queueId) =
        .ok outNodes ∧ first = start message nextId outNodes := by
  unfold handlePostMessage
  simp only [if_true]
  cases ring.findQuorumForOperation isAlive shuffle (murmurHash3 message.queueId) with
  | ok outNodes => simp [eq_comm]
  | error error => cases error <;> simp

/-- The published pointers are pairwise different as long as none of them is
null, because no node is in two slots. -/
theorem Books.published_nodup (books : Books answers nodes run) (filled : none ∉ run.published)
    (distinct : ∀ node j k, nodes j = some node → nodes k = some node → j = k) :
    run.published.Nodup := by
  have pairwise : (List.ofFn nodes).Pairwise (fun a b => a ≠ none → a ≠ b) := by
    rw [List.pairwise_ofFn]
    intro j k before held same
    obtain ⟨node, atJ⟩ := Option.ne_none_iff_exists'.mp held
    exact absurd (distinct node j k atJ (same ▸ atJ)) (ne_of_lt before)
  rw [books.walked] at filled ⊢
  refine (pairwise.sublist (List.take_sublist _ _)).imp_of_mem ?_
  intro a b memberA _ differ
  exact differ fun null => filled (null ▸ memberA)

/-- The array of a quorum is called at no null slot exactly when its first
two positions hold different nodes and, if the first of them rejects inside
its call, a third position holds yet another node. -/
theorem quorum_filled_iff (answers : Answers) (message : PublishMessage) (nextId : UInt32)
    (replicas : Fin 3 → Node) (p q : Fin 3) (rest : List (Fin 3)) (single : rest.length ≤ 1) :
    (∀ run, Reachable answers message nextId
        (Ring.slots (replicas p) (replicas q) (rest.head?.map replicas)) run →
        none ∉ run.published) ↔
      replicas p ≠ replicas q ∧
        (answers.inside (replicas p) = true → answers.succeeds (replicas p) = false →
          ∃ r, rest = [r] ∧ replicas r ≠ replicas p ∧ replicas r ≠ replicas q) := by
  have second : Ring.slots (replicas p) (replicas q) (rest.head?.map replicas) 1 ≠ none ↔
      replicas p ≠ replicas q := by
    simp [Ring.slots, eq_comm]
  have third : (∃ node, rest.head?.map replicas = some node ∧ node ≠ replicas p ∧
      node ≠ replicas q) ↔ ∃ r, rest = [r] ∧ replicas r ≠ replicas p ∧ replicas r ≠ replicas q := by
    cases rest with
    | nil => simp
    | cons r others =>
      obtain rfl : others = [] := List.length_eq_zero_iff.mp (Nat.le_zero.mp
        (Nat.le_of_succ_le_succ single))
      simp
  rw [null_not_published_iff, second, Ring.third_slot_iff, third]
  simp [Ring.slots, Answers.rejectsInside]

/-- A publish is sent to replicas only, each at most once, exactly when the
first two live positions in the order of the shuffle hold different nodes
and, if the first of them rejects inside its call, a third live position
holds yet another node.

Proof: otherwise the slot of a repeated or missing node is null, and it is
called. -/
theorem publishes_to_replicas_iff (murmurHash3 : String → UInt128) (ring : Ring)
    (isAlive : Node → Bool) (shuffle : Equiv.Perm (Fin 3)) (answers : Answers)
    (message : PublishMessage) (nextId : UInt32) :
    PublishesToReplicas murmurHash3 ring isAlive shuffle answers message nextId ↔
      ∀ replicas p q rest, ring.findNodesForKey (murmurHash3 message.queueId) = .ok replicas →
        Ring.liveOrder replicas isAlive shuffle = p :: q :: rest →
          replicas p ≠ replicas q ∧
          (answers.inside (replicas p) = true → answers.succeeds (replicas p) = false →
            ∃ r, rest = [r] ∧ replicas r ≠ replicas p ∧ replicas r ≠ replicas q) := by
  constructor
  · intro sound replicas p q rest found order
    obtain ⟨single, returned⟩ :=
      Ring.quorum_of_liveOrder replicas isAlive shuffle ring _ found p q rest order
    refine (quorum_filled_iff answers message nextId replicas p q rest single).mp ?_
    intro run reached member
    have started := (handlePostMessage_started_iff murmurHash3 ring isAlive shuffle message nextId
      _).mpr ⟨_, returned, rfl⟩
    obtain ⟨_, impossible⟩ := (sound replicas _ run found started reached).1 none member
    cases impossible
  · intro live replicas first run found started reached
    obtain ⟨outNodes, returned, rfl⟩ :=
      (handlePostMessage_started_iff murmurHash3 ring isAlive shuffle message nextId first).mp
        started
    have members := Ring.mem_quorum replicas isAlive shuffle ring _ outNodes found returned
    obtain ⟨p, q, rest, order, _, single, rfl⟩ :=
      Ring.quorum_slots replicas isAlive shuffle ring _ outNodes found returned
    have filled : none ∉ run.published :=
      (quorum_filled_iff answers message nextId replicas p q rest single).mpr
        (live replicas p q rest found order) run reached
    have books := (show Reachable answers message nextId _ run from reached).walk.books
    constructor
    · intro pointer member
      obtain ⟨k, _, held⟩ := (books.mem_published_iff pointer).mp member
      obtain ⟨node, rfl⟩ := Option.ne_none_iff_exists'.mp fun null => filled (null ▸ member)
      obtain ⟨_, r, rfl⟩ := (members node).mp ⟨k, held⟩
      exact ⟨r, rfl⟩
    · exact books.published_nodup filled fun node j k => Ring.slots_injective _ _ _ node j k

/-- On a ring of one node the second slot is null, and the publish calls it
although the node is live and would succeed. -/
theorem lone_node_null_publish :
    ∃ ring, Ring.build [⟨1, 10⟩] = .ok ring ∧
      (∃ first run,
        handlePostMessage (fun _ => 15) ring (fun _ => true) 1 true PublishMessage.sample 0 =
          .ok (.started first) ∧
        Machine.Reaches (step (someAnswers [1]).toAnswers) first run ∧
        run.published = [some ⟨1, 10⟩, none]) ∧
      ¬ PublishesToReplicas (fun _ => 15) ring (fun _ => true) 1 (someAnswers [1]).toAnswers
        PublishMessage.sample 0 := by
  obtain ⟨ring, first, run, built, located, started, ran, published⟩ : ∃ ring first run,
      Ring.build [⟨1, 10⟩] = .ok ring ∧
      ring.findNodesForKey 15 = .ok ![⟨1, 10⟩, ⟨1, 10⟩, ⟨1, 10⟩] ∧
      handlePostMessage (fun _ => 15) ring (fun _ => true) 1 true PublishMessage.sample 0 =
        .ok (.started first) ∧
      Machine.run (step (someAnswers [1]).toAnswers) first [.advance, .advance, .advance] =
        some run ∧
      run.published = [some ⟨1, 10⟩, none] :=
    ⟨_, _, _, rfl, rfl, rfl, rfl, by decide⟩
  have reached := Machine.reaches_of_run _ _ _ _ ran
  refine ⟨ring, built, ⟨first, run, started, reached, published⟩, ?_⟩
  intro sound
  obtain ⟨_, impossible⟩ := (sound _ first run located started reached).1 none (by simp [published])
  cases impossible

end Sopmq.PublishRun
