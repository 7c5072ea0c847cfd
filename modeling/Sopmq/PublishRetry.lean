import Sopmq.PublishOutcomes

/-!
# Retry and bookkeeping of a publish

The record that the answers leave is exact when they can be combined: the lists of
the quorum logic sort the answers by success and a clock is stored for each success.
From it follow when the quorum retry is complete and, conversely, that only answers
which can be combined keep the lists and the clocks in step.
-/

namespace Sopmq.PublishRun

variable {answers : Answers} {message : PublishMessage} {nextId : UInt32}
  {nodes : Fin 3 → Option Node} {run : PublishRun}

/-- The answers of the given nodes can be combined: a QUEUED answer carries
a readable clock, and the clocks of two successes are of the same nodes. -/
structure Combinable (answers : Answers) (members : List Node) : Prop where
  readable : ∀ node ∈ members, answers.queued node = true → answers.succeeds node = true
  agree : ∀ left ∈ members, ∀ right ∈ members, ∀ a b, answers.clockOf left = some a →
    answers.clockOf right = some b → VectorClock.SameNodes a b

/-- The record of answers that can be combined: the lists of the quorum
logic sort the answers by success, a clock is stored for every success,
every success but the first stamps the message, and two clocks are there
whenever they are combined. -/
structure Record.InStep (answers : Answers) (record : Record) : Prop where
  failed : record.failedNodes = (record.answered.filter fun node => !answers.succeeds node).map some
  succeeded : record.successNodes = (record.answered.filter answers.succeeds).map some
  stored : record.clocks.length = record.successNodes.length
  stamped : record.stamps = record.successNodes.length - 1
  present : ∀ clocks ∈ record.combines, 2 ≤ clocks.length

/-- Clocks of the same nodes are combined without an error, and two of them
are there. -/
theorem combined_ok (answers : Answers) (run : PublishRun) (clock : VectorClock 3)
    (nonempty : run.logic.ctx ≠ [])
    (agree : ∀ a ∈ run.logic.ctx ++ [clock], ∀ b ∈ run.logic.ctx ++ [clock],
      VectorClock.SameNodes a b) :
    ∃ maxClock, run.combined answers clock = .ok maxClock := by
  unfold combined
  match stored : run.logic.ctx with
  | [] => exact absurd stored nonempty
  | [a] =>
    rw [stored] at agree
    exact ⟨_, VectorClock.max_of_same_nodes _ _ (agree a (by simp) clock (by simp))⟩
  | a :: b :: rest =>
    rw [stored] at agree
    exact ⟨_, VectorClock.max_of_same_nodes _ _ (agree a (by simp) b (by simp))⟩

/-- Every clock that an answer finds or adds is that of an answered node. -/
theorem Handled.clock_source {node : Node} {after : PublishRun}
    (books : Books answers nodes run) (handled : Handled answers run node after)
    (clock : VectorClock 3) (given : answers.clockOf node = some clock) :
    ∀ a ∈ run.logic.ctx ++ [clock], ∃ owner ∈ after.answered, answers.clockOf owner = some a := by
  intro a member
  obtain ⟨_, _, _, answered, _⟩ := handled.kept
  rw [books.clocks] at member
  rw [answered]
  rcases List.mem_append.mp member with before | here
  · obtain ⟨owner, listed, owns⟩ := List.mem_filterMap.mp before
    exact ⟨owner, List.mem_append_left _ listed, owns⟩
  · exact ⟨node, by simp, by rw [given, List.mem_singleton.mp here]⟩

/-- Answers that can be combined raise no error once a clock is stored, for
the clocks are of the same nodes. -/
theorem Handled.agrees {node : Node} {after : PublishRun}
    (combinable : Combinable answers after.answered) (books : Books answers nodes run)
    (handled : Handled answers run node after) (clock : VectorClock 3)
    (given : answers.clockOf node = some clock) (nonempty : run.logic.ctx ≠ []) :
    ∃ maxClock, run.combined answers clock = .ok maxClock := by
  have source := handled.clock_source books clock given
  refine combined_ok answers run clock nonempty ?_
  intro a memberA b memberB
  obtain ⟨left, memberLeft, ownsA⟩ := source a memberA
  obtain ⟨right, memberRight, ownsB⟩ := source b memberB
  exact combinable.agree left memberLeft right memberRight a b ownsA ownsB

/-- Handling an answer keeps the record exact, by the ways in which the
callback ends. -/
theorem Handled.inStep {node : Node} {after : PublishRun}
    (combinable : Combinable answers after.answered) (books : Books answers nodes run)
    (inStep : run.record.InStep answers) (handled : Handled answers run node after) :
    after.record.InStep answers := by
  obtain ⟨_, _, _, answered, clocks, successes⟩ := handled.kept
  obtain ⟨failedBefore, succeededBefore, storedBefore, stampedBefore, present⟩ := inStep
  simp only [record] at failedBefore succeededBefore storedBefore stampedBefore present
  have queued : answers.queued node = answers.succeeds node :=
    Bool.eq_iff_iff.mpr ⟨combinable.readable node (by simp [answered]),
      answers.queued_of_succeeds node⟩
  have succeeded :
      after.logic.successNodes = (after.answered.filter answers.succeeds).map some := by
    cases works : answers.succeeds node <;>
      simp [successes, queued, answered, succeededBefore, works]
  have stored : after.logic.ctx.length = after.logic.successNodes.length := by
    cases given : answers.clockOf node with
    | none =>
      have fails := answers.fails_of_clockOf node given
      simp [clocks, successes, queued, storedBefore, given, fails]
    | some clock =>
      have works := answers.succeeds_of_clockOf node clock given
      simp [clocks, successes, queued, storedBefore, given, works]
  cases handled.recorded with
  | rejected refused failed combines stamps =>
    have fails := answers.fails_of_clockOf node refused
    refine ⟨?_, succeeded, stored, ?_, ?_⟩
    · simp [record, failed, answered, failedBefore, fails]
    · simp [record, stamps, successes, queued, fails, stampedBefore]
    · simpa [record, combines] using present
  | stored clock given first failed combines stamps =>
    have works := answers.succeeds_of_clockOf node clock given
    refine ⟨?_, succeeded, stored, ?_, ?_⟩
    · simp [record, failed, answered, failedBefore, works]
    · simp [record, stamps, successes, queued, works, stampedBefore, first]
    · simpa [record, combines] using present
  | stamped clock maxClock given later agreed failed combines stamps =>
    have works := answers.succeeds_of_clockOf node clock given
    have positive := List.length_pos_iff.mpr later
    refine ⟨?_, succeeded, stored, ?_, ?_⟩
    · simp [record, failed, answered, failedBefore, works]
    · simp only [record, stamps, successes, queued, works, stampedBefore, if_true,
        List.length_append, List.length_singleton]
      omega
    · intro combinedClocks member
      simp only [record, combines, List.mem_append, List.mem_singleton] at member
      rcases member with before | rfl
      · exact present combinedClocks before
      · rw [List.length_append, storedBefore, List.length_singleton]
        omega
  | clashed clock error given later raised failed combines stamps =>
    have nonempty : run.logic.ctx ≠ [] := by
      have positive := List.length_pos_iff.mpr later
      exact List.length_pos_iff.mp (storedBefore ▸ positive)
    obtain ⟨maxClock, agreed⟩ := handled.agrees combinable books clock given nonempty
    rw [agreed] at raised
    cases raised

/-- The record is exact in every state of a publish whose answers can be
combined. -/
theorem Reachable.inStep (combinable : Combinable answers (asked answers nodes))
    (reached : Reachable answers message nextId nodes run) :
    run.record.InStep answers := by
  refine reached.recorded (Record.InStep answers) ?_ ⟨rfl, rfl, rfl, rfl, by simp [record, start,
    combines]⟩
  intro before node after books walk inStep handled
  refine handled.inStep ⟨?_, ?_⟩ books inStep
  · exact fun member answered => combinable.readable member (walk.mem_asked answered)
  · exact fun left memberLeft right memberRight =>
      combinable.agree left (walk.mem_asked memberLeft) right (walk.mem_asked memberRight)

/-- The stamps and refusals of a settled publish whose answers can be
combined, counted by the nodes that are asked. -/
theorem Reachable.settled_counts (combinable : Combinable answers (asked answers nodes))
    (reached : Reachable answers message nextId nodes run) (settled : run.Settled) :
    run.stamps = (asked answers nodes).countP answers.succeeds - 1 ∧
      run.refusals + (asked answers nodes).length =
        (asked answers nodes).countP (fun node => !answers.succeeds node) + 2 := by
  have walk := reached.walk
  have inStep := reached.inStep combinable
  have perm := walk.answered_perm settled
  have stamped := inStep.stamped
  have failed := congrArg List.length inStep.failed
  have paid := walk.books.paid
  rw [inStep.succeeded] at stamped
  simp only [record, List.length_map, ← List.countP_eq_length_filter,
    perm.countP_eq] at stamped failed
  rw [← walk.answered_le.2.2 settled, perm.length_eq, settled.2.1, failed] at paid
  exact ⟨stamped, by omega⟩

/-- Coherent answers can be combined, whichever nodes are asked. -/
theorem coherent_combinable (answers : CoherentAnswers) (members : List Node) :
    Combinable answers.toAnswers members :=
  ⟨fun node _ => answers.readable node, fun left _ right _ => answers.agree left right⟩

/-- The number of the three nodes that would answer with a success if asked.
Not all of them are. -/
def successCount (answers : Answers) (nodes : Fin 3 ↪ Node) : Nat :=
  (List.finRange 3).countP fun k => answers.succeeds (nodes k)

/-- The quorum retry is complete: once all issued calls have answered, the
message has been stamped if two of the three nodes succeed, and the fail
function has run only if fewer than two would. -/
def RetryComplete (answers : Answers) (message : PublishMessage) (nextId : UInt32)
    (nodes : Fin 3 ↪ Node) : Prop :=
  ∀ run, Reachable answers message nextId (fun k => some (nodes k)) run → run.Settled →
    (2 ≤ successCount answers nodes → 1 ≤ run.stamps) ∧
      (1 ≤ run.refusals → successCount answers nodes < 2)

/-- The quorum retry is complete exactly when the third node is not needed
or the first one fails inside its call: a single failure among the first two
nodes, given late or by the second node, is not followed by a call of the
third. -/
theorem retry_complete_iff (answers : CoherentAnswers) (message : PublishMessage)
    (nextId : UInt32) (nodes : Fin 3 ↪ Node) :
    RetryComplete answers.toAnswers message nextId nodes ↔
      ¬ (answers.succeeds (nodes 2) = true ∧
        answers.succeeds (nodes 0) ≠ answers.succeeds (nodes 1) ∧
        (answers.inside (nodes 0) = true → answers.succeeds (nodes 0) = true)) := by
  have counted : RetryComplete answers.toAnswers message nextId nodes ↔
      (2 ≤ successCount answers.toAnswers nodes →
        2 ≤ (asked answers.toAnswers fun k => some (nodes k)).countP answers.succeeds) ∧
      ((asked answers.toAnswers fun k => some (nodes k)).length <
          (asked answers.toAnswers fun k => some (nodes k)).countP
            (fun node => !answers.succeeds node) + 2 →
        successCount answers.toAnswers nodes < 2) := by
    constructor
    · intro complete
      obtain ⟨run, reached, settled⟩ := exists_settled answers.toAnswers message nextId
        (fun k => some (nodes k)) (fun k => Option.some_ne_none (nodes k))
      obtain ⟨stamps, refusals⟩ := reached.settled_counts (coherent_combinable answers _) settled
      obtain ⟨reachesStamp, failsOnly⟩ := complete run reached settled
      exact ⟨fun enough => by have := reachesStamp enough; omega,
        fun failed => failsOnly (by omega)⟩
    · intro complete run reached settled
      obtain ⟨stamps, refusals⟩ := reached.settled_counts (coherent_combinable answers _) settled
      exact ⟨fun enough => by have := complete.1 enough; omega,
        fun failed => complete.2 (by omega)⟩
  rw [counted]
  cases inside : answers.inside (nodes 0) <;> cases first : answers.succeeds (nodes 0) <;>
    cases second : answers.succeeds (nodes 1) <;> cases third : answers.succeeds (nodes 2) <;>
    simp [successCount, List.finRange_succ, asked_eq, deciding, Answers.rejectsInside, inside,
      first, second, third]

/-- The first node fails late and the other two would succeed: the client is
told that the queue is unavailable, the third node is never asked and
nothing is stamped. -/
theorem third_node_not_tried :
    (∃ run, Reachable (someAnswers [2, 3]).toAnswers .sample 0 (fun k => some (threeNodes k))
        run ∧ run.Settled ∧ run.published = [some ⟨1, 10⟩, some ⟨2, 20⟩] ∧
        run.stamps = 0 ∧ run.refusals = 1) ∧
      successCount (someAnswers [2, 3]).toAnswers threeNodes = 2 ∧
      ¬ RetryComplete (someAnswers [2, 3]).toAnswers .sample 0 threeNodes := by
  obtain ⟨run, ran, settled, published, stamps, refusals⟩ : ∃ run,
      Machine.run (step (someAnswers [2, 3]).toAnswers)
        (start .sample 0 fun k => some (threeNodes k))
        (bothPostponed ++ [.deliver ⟨1, 10⟩, .deliver ⟨2, 20⟩]) = some run ∧
      run.Settled ∧ run.published = [some ⟨1, 10⟩, some ⟨2, 20⟩] ∧ run.stamps = 0 ∧
      run.refusals = 1 :=
    ⟨_, rfl, ⟨rfl, rfl, rfl⟩, by decide, by decide, by decide⟩
  have two : successCount (someAnswers [2, 3]).toAnswers threeNodes = 2 := by decide
  have reached : Reachable (someAnswers [2, 3]).toAnswers .sample 0
      (fun k => some (threeNodes k)) run := Machine.reaches_of_run _ _ _ _ ran
  refine ⟨⟨run, reached, settled, published, stamps, refusals⟩, two, ?_⟩
  intro complete
  have stamped := (complete run reached settled).1 (by omega)
  omega

/-- The bookkeeping of a state: a clock is stored for every success, no node
is both successful and failed, and two clocks are there when the operation
has succeeded and whenever they have been combined. -/
structure Consistent (run : PublishRun) : Prop where
  stored : run.logic.ctx.length = run.logic.successNodes.length
  disjoint : ∀ pointer ∈ run.logic.successNodes, pointer ∉ run.logic.failedNodes
  ready : run.logic.operationSucceeded = true → 2 ≤ run.logic.ctx.length
  present : ∀ clocks ∈ run.combines, 2 ≤ clocks.length

/-- An exact record is a consistent one. -/
theorem Record.InStep.consistent (inStep : run.record.InStep answers) : run.Consistent where
  stored := inStep.stored
  disjoint := by
    intro pointer succeeded failed
    have counted : pointer ∈ run.record.successNodes := succeeded
    have refused : pointer ∈ run.record.failedNodes := failed
    rw [inStep.succeeded] at counted
    rw [inStep.failed] at refused
    obtain ⟨left, leftListed, rfl⟩ := List.mem_map.mp counted
    obtain ⟨right, rightListed, same⟩ := List.mem_map.mp refused
    have works := (List.mem_filter.mp leftListed).2
    have fails := (List.mem_filter.mp rightListed).2
    rw [Option.some.inj same, works] at fails
    cases fails
  ready := by
    intro succeeded
    have stored := inStep.stored
    simp only [record] at stored
    simp only [QuorumLogic.operationSucceeded, gt_iff_lt, decide_eq_true_eq] at succeeded
    omega
  present := inStep.present

/-- The marks that answers leave for good: an answer that is no success has
failed its node, and if the first two stored clocks are of different nodes,
the node whose answer brought them together is both successful and
failed. -/
structure Record.Marked (answers : Answers) (record : Record) : Prop where
  failed : ∀ node ∈ record.answered, answers.succeeds node = false →
    some node ∈ record.failedNodes
  clashed : ∀ a b rest, record.clocks = a :: b :: rest → ¬ VectorClock.SameNodes a b →
    ∃ pointer ∈ record.successNodes, pointer ∈ record.failedNodes

/-- Clocks that could be combined without an error are of the same nodes,
since the comparison raises on others. -/
theorem sameNodes_of_combined (a b clock maxClock : VectorClock 3) (rest : List (VectorClock 3))
    (stored : run.logic.ctx ++ [clock] = a :: b :: rest)
    (agreed : run.combined answers clock = .ok maxClock) : VectorClock.SameNodes a b := by
  by_contra different
  rw [combined, stored] at agreed
  simp [VectorClock.max_of_other_nodes a b different] at agreed

/-- A failed node stays failed, whatever is answered later. -/
theorem Handled.failed_grows {node : Node} {after : PublishRun}
    (handled : Handled answers run node after) (pointer : Option Node)
    (member : pointer ∈ run.logic.failedNodes) : pointer ∈ after.logic.failedNodes := by
  cases handled.recorded with
  | rejected _ failed => exact failed ▸ List.mem_append_left _ member
  | stored _ _ _ failed => exact failed ▸ member
  | stamped _ _ _ _ _ failed => exact failed ▸ member
  | clashed _ _ _ _ _ failed => exact failed ▸ List.mem_append_left _ member

/-- Handling an answer keeps the marks, and leaves its own. -/
theorem Handled.marked {node : Node} {after : PublishRun}
    (books : Books answers nodes run) (marked : run.record.Marked answers)
    (handled : Handled answers run node after) : after.record.Marked answers := by
  obtain ⟨_, _, _, answered, clocks, successes⟩ := handled.kept
  constructor
  · intro other member fails
    simp only [record, answered, List.mem_append, List.mem_singleton] at member
    rcases member with before | rfl
    · exact handled.failed_grows _ (marked.failed other before fails)
    · cases handled.recorded with
      | rejected _ failed => simp [record, failed]
      | stored clock given => simp [answers.succeeds_of_clockOf _ clock given] at fails
      | stamped clock _ given => simp [answers.succeeds_of_clockOf _ clock given] at fails
      | clashed clock _ given => simp [answers.succeeds_of_clockOf _ clock given] at fails
  · intro a b rest stored different
    have counts : ∀ pointer ∈ run.logic.successNodes, pointer ∈ after.logic.successNodes :=
      fun pointer member => successes ▸ List.mem_append_left _ member
    simp only [record] at stored
    cases handled.recorded with
    | rejected refused failed =>
      rw [clocks, refused, Option.toList_none, List.append_nil] at stored
      obtain ⟨pointer, succeeded, failedBefore⟩ := marked.clashed a b rest stored different
      exact ⟨pointer, counts pointer succeeded, handled.failed_grows pointer failedBefore⟩
    | stored clock given first =>
      have none : run.logic.ctx = [] := books.clocks_eq_nil first
      rw [clocks, given, none] at stored
      cases stored
    | stamped clock maxClock given later agreed =>
      rw [clocks, given, Option.toList_some] at stored
      exact absurd (sameNodes_of_combined a b clock maxClock rest stored agreed) different
    | clashed clock error given later raised failed =>
      refine ⟨some node, ?_, ?_⟩
      · simp [record, successes, answers.queued_of_clockOf node clock given]
      · simp [record, failed]

/-- A node that is asked and succeeds is one of the two deciding ones, for
the third has rejected. -/
theorem deciding_of_clockOf (answers : Answers) (nodes : Fin 3 → Node) (node : Node)
    (clock : VectorClock 3) (member : node ∈ asked answers fun k => some (nodes k))
    (given : answers.clockOf node = some clock) :
    node = (deciding answers nodes).1 ∨ node = (deciding answers nodes).2 := by
  have works := answers.succeeds_of_clockOf node clock given
  simp only [asked_eq, List.mem_append, List.mem_cons, List.not_mem_nil, or_false] at member
  rcases member with first | rest
  · split at first
    · next rejects =>
      simp [← List.mem_singleton.mp first, Answers.rejectsInside, works] at rejects
    · cases first
  · exact rest

/-- The clocks of all nodes that are asked are those of the deciding ones,
since the other one has given none. -/
theorem asked_clocks (answers : Answers) (nodes : Fin 3 → Node) :
    (asked answers fun k => some (nodes k)).filterMap answers.clockOf =
      [(deciding answers nodes).1, (deciding answers nodes).2].filterMap answers.clockOf := by
  rw [asked_eq]
  split
  · next rejects =>
    have refused : answers.clockOf (nodes 0) = none := by
      simpa [Answers.succeeds] using (Bool.and_eq_true_iff.mp rejects).2
    simp [refused]
  · rfl

/-- If the bookkeeping is consistent when all calls of three nodes have
answered, the answers of the nodes that are asked can be combined.

Proof: an unreadable clock leaves its node among the successful and the
failed ones, and so do two clocks of different nodes. -/
theorem combinable_of_consistent (nodes : Fin 3 → Node)
    (reached : Reachable answers message nextId (fun k => some (nodes k)) run)
    (settled : run.Settled) (consistent : run.Consistent) :
    Combinable answers (asked answers fun k => some (nodes k)) := by
  have walk := reached.walk
  have perm := walk.answered_perm settled
  have marked := reached.recorded (Record.Marked answers)
    (fun _ _ _ books _ marked handled => handled.marked books marked)
    ⟨by simp [record, start, answered], by simp [record, start, QuorumLogic.create]⟩
  have agrees : ∀ a b rest, run.logic.ctx = a :: b :: rest → VectorClock.SameNodes a b := by
    intro a b rest stored
    by_contra different
    obtain ⟨pointer, succeeded, failed⟩ := marked.clashed a b rest stored different
    exact consistent.disjoint pointer succeeded failed
  constructor
  · intro node member queued
    have answered : node ∈ run.answered := perm.mem_iff.mpr member
    by_contra fails
    refine consistent.disjoint (some node) ?_ (marked.failed node answered (by simpa using fails))
    rw [walk.books.successes]
    exact List.mem_map_of_mem (List.mem_filter.mpr ⟨answered, queued⟩)
  · intro left askedLeft right askedRight a b givenLeft givenRight
    have stored := perm.filterMap answers.clockOf
    rw [← walk.books.clocks, asked_clocks] at stored
    have pair : ∀ c d, answers.clockOf (deciding answers nodes).1 = some c →
        answers.clockOf (deciding answers nodes).2 = some d → VectorClock.SameNodes c d := by
      intro c d givenFirst givenSecond
      simp only [List.filterMap_cons, List.filterMap_nil, givenFirst, givenSecond] at stored
      rcases List.perm_pair.mp stored with inOrder | swapped
      · exact agrees c d [] inOrder
      · exact fun i => (agrees d c [] swapped i).symm
    rcases deciding_of_clockOf answers nodes left a askedLeft givenLeft with rfl | rfl <;>
      rcases deciding_of_clockOf answers nodes right b askedRight givenRight with rfl | rfl
    · exact fun i => by rw [Option.some.inj (givenLeft.symm.trans givenRight)]
    · exact pair a b givenLeft givenRight
    · exact fun i => (pair b a givenRight givenLeft i).symm
    · exact fun i => by rw [Option.some.inj (givenLeft.symm.trans givenRight)]

/-- Over any array the bookkeeping is consistent in every state and under
every order of the answers, if the answers of the nodes that are asked can
be combined; over an array without null pointers exactly then. -/
theorem consistent_iff (answers : Answers) (message : PublishMessage) (nextId : UInt32)
    (nodes : Fin 3 → Option Node) :
    (Combinable answers (asked answers nodes) →
      ∀ run, Reachable answers message nextId nodes run → run.Consistent) ∧
    ((∀ k, nodes k ≠ none) →
      ((∀ run, Reachable answers message nextId nodes run → run.Consistent) ↔
        Combinable answers (asked answers nodes))) := by
  have enough : Combinable answers (asked answers nodes) →
      ∀ run, Reachable answers message nextId nodes run → run.Consistent :=
    fun combinable _ reached => (reached.inStep combinable).consistent
  refine ⟨enough, fun filled => ⟨fun consistent => ?_, enough⟩⟩
  obtain ⟨run, reached, settled⟩ := exists_settled answers message nextId nodes filled
  obtain ⟨pointed, rfl⟩ : ∃ pointed : Fin 3 → Node, nodes = fun k => some (pointed k) :=
    ⟨fun k => (nodes k).get (Option.ne_none_iff_isSome.mp (filled k)), by simp⟩
  exact combinable_of_consistent pointed reached settled (consistent run reached)

/-- The first node answers with a clock of four entries, which cannot be
read, the others with one of three. -/
def oversizedAnswers : Answers where
  reply node :=
    if node.nodeId = 1 then
      .message ⟨⟨0, 7⟩, some .queued, ⟨[⟨1, 1, 1⟩, ⟨2, 1, 1⟩, ⟨3, 1, 1⟩, ⟨4, 1, 1⟩]⟩⟩
    else
      .message ⟨⟨0, 7⟩, some .queued, ⟨[⟨1, 1, 1⟩, ⟨2, 1, 1⟩, ⟨3, 1, 1⟩]⟩⟩
  inside _ := false
  storage _ := VectorClock.zero
  stray := VectorClock.zero

/-- A clock that cannot be read is followed by a good answer: the first node
is both successful and failed, and two clocks are combined when only one is
stored. -/
theorem oversized_clock_inconsistent :
    ∃ run, Reachable oversizedAnswers .sample 0 (fun k => some (threeNodes k)) run ∧
      run.logic.successNodes = [some ⟨1, 10⟩, some ⟨2, 20⟩] ∧
      some ⟨1, 10⟩ ∈ run.logic.failedNodes ∧
      run.combines.map List.length = [1] ∧ ¬ run.Consistent := by
  obtain ⟨run, ran, successes, failed, combined⟩ : ∃ run,
      Machine.run (step oversizedAnswers) (start .sample 0 fun k => some (threeNodes k))
        (bothPostponed ++ [.deliver ⟨1, 10⟩, .deliver ⟨2, 20⟩]) = some run ∧
      run.logic.successNodes = [some ⟨1, 10⟩, some ⟨2, 20⟩] ∧
      some ⟨1, 10⟩ ∈ run.logic.failedNodes ∧ run.combines.map List.length = [1] :=
    ⟨_, rfl, by decide, by decide, by decide⟩
  refine ⟨run, Machine.reaches_of_run _ _ _ _ ran, successes, failed, combined, ?_⟩
  intro consistent
  exact consistent.disjoint (some ⟨1, 10⟩) (by simp [successes]) failed

end Sopmq.PublishRun
