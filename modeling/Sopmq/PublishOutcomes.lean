import Mathlib.Data.List.Permutation
import Mathlib.Logic.Embedding.Basic
import Sopmq.PublishRuns

/-!
# The outcomes of a publish

A publish over three distinct nodes: when it is retried, how often it ends, and
whether the lists of the quorum logic stay in step with the stored clocks. Each
property is stated over all reachable states, for every pattern and order of the
answers, and is shown to hold exactly under a condition on the answers.
-/

namespace Sopmq

/-- Every answer with status QUEUED carries a clock that can be read, so
that an answer is a success, a status other than QUEUED or an error. -/
structure ReadableAnswers extends Answers where
  readable : ∀ node, toAnswers.queued node = true → toAnswers.succeeds node = true

/-- Answers of which any can be combined: each is a success or a failure,
and the clocks of two successes are of the same nodes. -/
structure CoherentAnswers extends ReadableAnswers where
  agree : ∀ left right a b, toAnswers.clockOf left = some a → toAnswers.clockOf right = some b →
    VectorClock.SameNodes a b

namespace PublishRun

variable {answers : Answers} {message : PublishMessage} {nextId : UInt32} {nodes : Fin 3 ↪ Node}
  {run : PublishRun}

/-- The two of three nodes whose answers decide the publish: the first two,
or the last two if the first one rejects inside its call. -/
def deciding (answers : Answers) (nodes : Fin 3 → Node) : Node × Node :=
  if answers.rejectsInside (nodes 0) then (nodes 1, nodes 2) else (nodes 0, nodes 1)

/-- Beside the deciding nodes a first node that rejects inside its call is
asked, and no other. -/
theorem asked_eq (answers : Answers) (nodes : Fin 3 → Node) :
    asked answers (fun k => some (nodes k)) =
      (if answers.rejectsInside (nodes 0) then [nodes 0] else []) ++
        [(deciding answers nodes).1, (deciding answers nodes).2] := by
  unfold asked reach deciding
  cases rejects : answers.rejectsInside (nodes 0) <;> simp [rejects]

/-- Over three nodes every publish comes to the point where all calls have
answered, since no slot is null. -/
theorem exists_settled (answers : Answers) (message : PublishMessage) (nextId : UInt32)
    (nodes : Fin 3 → Option Node) (filled : ∀ k, nodes k ≠ none) :
    ∃ run, Reachable answers message nextId nodes run ∧ run.Settled := by
  obtain ⟨run, reached, settled | null⟩ := exists_ended answers message nextId nodes
  · exact ⟨run, reached, settled⟩
  · have walk := reached.walk
    have published : none ∈ run.published :=
      walk.accounted.subset (List.mem_append_left _ (by simp [null]))
    rw [walk.books.walked] at published
    obtain ⟨k, held⟩ := List.mem_ofFn.mp (List.mem_of_mem_take published)
    exact absurd held (filled k)

section Outcomes

/-- The number of terminal outcomes: UNAVAILABLE responses and stamps
together. -/
def outcomes (run : PublishRun) : Nat := run.refusals + run.stamps

/-- Every answer but the first success has failed its node or stamped the
message. -/
def Record.Spent (record : Record) : Prop :=
  record.failedNodes.length + record.stamps + min record.successNodes.length 1 =
    record.answered.length

/-- An answer is spent on a failure, on a stamp, or as the first success. -/
theorem Handled.spent {node : Node} {after : PublishRun}
    (readable : answers.queued node = true → answers.succeeds node = true)
    (spent : run.record.Spent) (handled : Handled answers run node after) :
    after.record.Spent := by
  obtain ⟨_, _, _, answered, _, successes⟩ := handled.kept
  simp only [Record.Spent, record] at spent ⊢
  cases handled.recorded with
  | rejected refused failed combines stamps =>
    have plain : answers.queued node = false := by
      by_contra accepted
      have stored := readable (by simpa using accepted)
      rw [answers.fails_of_clockOf node refused] at stored
      cases stored
    simp only [answered, successes, failed, stamps, plain, Bool.false_eq_true, if_false,
      List.append_nil, List.length_append, List.length_singleton]
    omega
  | stored clock given first failed combines stamps =>
    simp only [answered, successes, failed, stamps, first,
      answers.queued_of_clockOf node clock given, if_true, List.nil_append, List.length_append,
      List.length_singleton, List.length_nil] at spent ⊢
    omega
  | stamped clock maxClock given later agreed failed combines stamps =>
    have positive := List.length_pos_iff.mpr later
    simp only [answered, successes, failed, stamps, answers.queued_of_clockOf node clock given,
      if_true, List.length_append, List.length_singleton]
    omega
  | clashed clock error given later raised failed combines stamps =>
    have positive := List.length_pos_iff.mpr later
    simp only [answered, successes, failed, stamps, answers.queued_of_clockOf node clock given,
      if_true, List.length_append, List.length_singleton]
    omega

/-- The number of outcomes in terms of the answers that are still to come.
It follows from the account of failures and that of answers. -/
theorem Reachable.outcomes_eq {answers : ReadableAnswers}
    (reached : Reachable answers.toAnswers message nextId (fun k => some (nodes k)) run) :
    run.outcomes + min run.logic.successNodes.length 1 + run.logic.lastNode + run.iterations =
      run.answered.length + 2 := by
  have spent := reached.recorded Record.Spent
    (fun _ node _ _ _ spent handled => handled.spent (answers.readable node) spent) rfl
  have paid := reached.walk.books.paid
  simp only [Record.Spent, record] at spent
  unfold outcomes
  omega

/-- Some node that is asked succeeds: one of the first two, or the third
where it is asked. -/
theorem asked_succeeds_iff (answers : Answers) (nodes : Fin 3 → Node) :
    (∃ node ∈ asked answers (fun k => some (nodes k)), answers.succeeds node = true) ↔
      answers.succeeds (nodes 0) = true ∨ answers.succeeds (nodes 1) = true ∨
        (answers.inside (nodes 0) = true ∧ answers.succeeds (nodes 2) = true) := by
  cases inside : answers.inside (nodes 0) <;> cases first : answers.succeeds (nodes 0) <;>
    simp [asked_eq, deciding, Answers.rejectsInside, inside, first]

/-- A publish has at most one outcome, in every state and under every order
of the answers, exactly when a node that is asked succeeds: one of the first
two, or the third one if the first answers inside its call.

Proof: when all calls have answered, the outcomes and the first success make
two. Before that, two outcomes would leave no answer to come. -/
theorem single_outcome_iff (answers : ReadableAnswers) (message : PublishMessage)
    (nextId : UInt32) (nodes : Fin 3 ↪ Node) :
    (∀ run, Reachable answers.toAnswers message nextId (fun k => some (nodes k)) run →
        run.outcomes ≤ 1) ↔
      answers.succeeds (nodes 0) = true ∨ answers.succeeds (nodes 1) = true ∨
        (answers.inside (nodes 0) = true ∧ answers.succeeds (nodes 2) = true) := by
  rw [← asked_succeeds_iff]
  constructor
  · intro bounded
    obtain ⟨run, reached, settled⟩ := exists_settled answers.toAnswers message nextId
      (fun k => some (nodes k)) (fun k => Option.some_ne_none (nodes k))
    have walk := reached.walk
    have total := reached.outcomes_eq
    have bound := bounded run reached
    have all := walk.answered_le.2.2 settled
    have success : run.logic.successNodes ≠ [] := by
      intro empty
      simp only [empty, List.length_nil, Nat.zero_min, settled.2.1, all] at total
      omega
    obtain ⟨pointer, counted⟩ := List.exists_mem_of_ne_nil _ success
    rw [walk.books.successes] at counted
    obtain ⟨node, listed, _⟩ := List.mem_map.mp counted
    obtain ⟨answered, queued⟩ := List.mem_filter.mp listed
    exact ⟨node, walk.mem_asked answered, answers.readable node queued⟩
  · rintro ⟨node, asked, succeeds⟩ run reached
    have walk := reached.walk
    have total := reached.outcomes_eq
    obtain ⟨bound, settles, _⟩ := walk.answered_le
    by_contra more
    have settled : run.Settled := settles (by omega) (by omega)
    have answered : node ∈ run.answered := (walk.answered_perm settled).mem_iff.mpr asked
    have counted : some node ∈ run.logic.successNodes := by
      rw [walk.books.successes]
      exact List.mem_map_of_mem (List.mem_filter.mpr
        ⟨answered, answers.queued_of_succeeds node succeeds⟩)
    have positive := List.length_pos_of_mem counted
    omega

/-- Three nodes for runs on fixed inputs, in the order of their ranges. -/
def threeNodes : Fin 3 ↪ Node := ⟨![⟨1, 10⟩, ⟨2, 20⟩, ⟨3, 30⟩], by decide⟩

/-- The given nodes answer with status QUEUED and a clock, the others with
an error. -/
def someReply (succeeding : List UInt32) (node : Node) :
    OperationResult ProxyPublishResponseMessage :=
  if node.nodeId ∈ succeeding then
    .message ⟨⟨0, 7⟩, some .queued, ⟨[⟨1, 1, 1⟩, ⟨2, 1, 1⟩, ⟨3, 1, 1⟩]⟩⟩
  else
    .error "connection refused"

/-- These answers, all of which come late. Their clocks are of the same
nodes. -/
def someAnswers (succeeding : List UInt32) : CoherentAnswers where
  reply := someReply succeeding
  inside _ := false
  storage _ := VectorClock.zero
  stray := VectorClock.zero
  readable node := by
    by_cases member : node.nodeId ∈ succeeding <;>
      simp [Answers.queued, Answers.succeeds, Answers.clockOf, someReply, member,
        ProxyPublishResponseMessage.status, VectorClock.ofMessage, Except.toOption]
  agree left right a b := by
    intro givenLeft givenRight
    have same : ∀ node clock, Answers.clockOf ⟨someReply succeeding, fun _ => false,
        fun _ => VectorClock.zero, VectorClock.zero⟩ node = some clock →
        clock =
          ⟨VectorClock.assign VectorClock.zero.value 0 [⟨1, 1, 1⟩, ⟨2, 1, 1⟩, ⟨3, 1, 1⟩]⟩ := by
      intro node clock given
      by_cases member : node.nodeId ∈ succeeding
      · simp [Answers.clockOf, someReply, member, ProxyPublishResponseMessage.status,
          VectorClock.ofMessage, Except.toOption] at given
        exact given.symm
      · simp [Answers.clockOf, someReply, member] at given
    rw [same left a givenLeft, same right b givenRight]
    exact fun _ => rfl

/-- The loop makes its two calls and both answers are postponed. -/
def bothPostponed : List Event := [.advance, .advance, .advance, .advance]

/-- Both nodes that are asked fail late: the client is sent two UNAVAILABLE
responses to its one message. -/
theorem two_failures_two_refusals :
    ∃ run, Reachable (someAnswers []).toAnswers .sample 0 (fun k => some (threeNodes k)) run ∧
      run.responses = [⟨⟨1, 7⟩, .unavailable⟩, ⟨⟨2, 7⟩, .unavailable⟩] ∧
      run.outcomes = 2 := by
  obtain ⟨run, ran, refused, ended⟩ : ∃ run, Machine.run (step (someAnswers []).toAnswers)
      (start .sample 0 fun k => some (threeNodes k))
      (bothPostponed ++ [.deliver ⟨1, 10⟩, .deliver ⟨2, 20⟩]) = some run ∧
      run.responses = [⟨⟨1, 7⟩, .unavailable⟩, ⟨⟨2, 7⟩, .unavailable⟩] ∧
      run.outcomes = 2 := ⟨_, rfl, by decide, by decide⟩
  exact ⟨run, Machine.reaches_of_run _ _ _ _ ran, refused, ended⟩

end Outcomes

end PublishRun

end Sopmq
