import Sopmq.Publish

/-!
# The runs of a publish

What holds in every state of a publish, over every pattern of answers given inside
the calls and late, in any order: how far the index has moved, which slots have been
passed to the publish function, which answers are outstanding, and what the lists
and the context of the quorum logic hold. Every run ends.
-/

namespace Sopmq.PublishRun

section Answer

variable (answers : Answers) (run : PublishRun) (node : Node)

/-- What a failure leaves alone, and the node it adds to the failed ones.
The index and the call in progress are treated below. -/
theorem nodeFailed_kept :
    (run.nodeFailed node).logic.allNodes = run.logic.allNodes ∧
      (run.nodeFailed node).logic.ctx = run.logic.ctx ∧
      (run.nodeFailed node).logic.successNodes = run.logic.successNodes ∧
      (run.nodeFailed node).logic.failedNodes = run.logic.failedNodes ++ [some node] ∧
      (run.nodeFailed node).iterations = run.iterations ∧
      (run.nodeFailed node).pending = run.pending ∧
      (run.nodeFailed node).answered = run.answered ∧
      (run.nodeFailed node).combines = run.combines ∧
      (run.nodeFailed node).stamps = run.stamps := by
  rw [nodeFailed_eq]
  split <;> simp [answered, combines, stamps]

/-- A failure leaves the message of the publish. -/
theorem nodeFailed_message : (run.nodeFailed node).message = run.message := by
  rw [nodeFailed_eq]
  split <;> rfl

/-- A failure is paid for by one refusal or one move of the index: it ends
in a response or in a further call. -/
theorem nodeFailed_paid :
    (run.nodeFailed node).refusals + (run.nodeFailed node).logic.lastNode =
      run.refusals + run.logic.lastNode + 1 := by
  rw [nodeFailed_eq]
  split
  · simp [refusals, responses, Nat.add_assoc]
  · simp [refusals, responses, unavailableResponse]
    omega

/-- Beyond the second slot a failure makes no call, and so ends in a
response. -/
theorem nodeFailed_passed (passed : 2 ≤ run.logic.lastNode) :
    (run.nodeFailed node).calling = run.calling ∧
      (run.nodeFailed node).logic.lastNode = run.logic.lastNode := by
  rw [nodeFailed_eq, if_neg (by omega)]
  exact ⟨rfl, rfl⟩

/-- A failure publishes exactly the call it leaves in progress, if it leaves
one. -/
theorem nodeFailed_published (idle : run.calling = none) :
    (run.nodeFailed node).published =
      run.published ++ (run.nodeFailed node).calling.toList := by
  rw [nodeFailed_eq]
  split <;> simp [published, idle]

/-- The run in which a success has been recorded and its clock stored,
before anything is combined. -/
def accept (clock : VectorClock 3) : PublishRun :=
  ((run.log (.answer node)).nodeSuccess node).pushClock clock

/-- What this does to the quorum logic. -/
@[simp]
theorem accept_logic (clock : VectorClock 3) : (run.accept node clock).logic =
    { run.logic with
      ctx := run.logic.ctx ++ [clock]
      successNodes := run.logic.successNodes ++ [some node] } := rfl

/-- What this adds to the trace. -/
@[simp]
theorem accept_trace (clock : VectorClock 3) :
    (run.accept node clock).trace = run.trace ++ [.answer node] := rfl

/-- It makes no call. -/
@[simp]
theorem accept_calling (clock : VectorClock 3) :
    (run.accept node clock).calling = run.calling := rfl

/-- It leaves the loop. -/
@[simp]
theorem accept_iterations (clock : VectorClock 3) :
    (run.accept node clock).iterations = run.iterations := rfl

/-- It leaves the outstanding answers. -/
@[simp]
theorem accept_pending (clock : VectorClock 3) :
    (run.accept node clock).pending = run.pending := rfl

/-- The two clocks that a success combines when it is not the first one,
which are the first two stored. -/
def combined (clock : VectorClock 3) : Except ComparisonError (VectorClock 3) :=
  VectorClock.max ((run.logic.ctx ++ [clock])[0]?.getD answers.stray)
    ((run.logic.ctx ++ [clock])[1]?.getD answers.stray)

/-- The ways in which the callback ends: the answer is no success, it is the
first success, or it is a further success whose clocks combine or do not. -/
inductive Handled : PublishRun → Prop where
  | rejected (refused : answers.clockOf node = none) :
      Handled ((if answers.queued node then (run.log (.answer node)).nodeSuccess node
        else run.log (.answer node)).nodeFailed node)
  | stored (clock : VectorClock 3) (given : answers.clockOf node = some clock)
      (first : run.logic.successNodes = []) :
      Handled (run.accept node clock)
  | stamped (clock maxClock : VectorClock 3) (given : answers.clockOf node = some clock)
      (later : run.logic.successNodes ≠ []) (agreed : run.combined answers clock = .ok maxClock) :
      Handled (((run.accept node clock).log
        (.combine (run.logic.ctx ++ [clock]))).doStampMessage maxClock)
  | clashed (clock : VectorClock 3) (error : ComparisonError)
      (given : answers.clockOf node = some clock) (later : run.logic.successNodes ≠ [])
      (raised : run.combined answers clock = .error error) :
      Handled (((run.accept node clock).log (.combine (run.logic.ctx ++ [clock]))).nodeFailed node)

/-- The callback ends in one of these ways. -/
theorem answer_handled : Handled answers run node (run.answer answers node) := by
  rw [answer_eq]
  cases given : answers.clockOf node with
  | none => exact Handled.rejected given
  | some clock =>
    by_cases first : run.logic.successNodes = []
    · rw [first]
      exact Handled.stored clock given first
    · have enough : 1 ≤ run.logic.successNodes.length := List.length_pos_iff.mpr first
      simp only [enough, if_true, combine]
      cases result : run.combined answers clock with
      | ok maxClock =>
        have split := Handled.stamped clock maxClock given first result
        rw [combined] at result
        simpa only [pushClock, nodeSuccess, QuorumLogic.nodeSuccess, log, result,
          accept] using split
      | error error =>
        have split := Handled.clashed clock error given first result
        rw [combined] at result
        simpa only [pushClock, nodeSuccess, QuorumLogic.nodeSuccess, log, result,
          accept] using split

variable {answers run node} {after : PublishRun}

/-- What the callback leaves alone, and what it records of the answer, in
whichever way it ends. -/
theorem Handled.kept (handled : Handled answers run node after) :
    after.logic.allNodes = run.logic.allNodes ∧
      after.iterations = run.iterations ∧
      after.pending = run.pending ∧
      after.answered = run.answered ++ [node] ∧
      after.logic.ctx = run.logic.ctx ++ (answers.clockOf node).toList ∧
      after.logic.successNodes = run.logic.successNodes ++
        (if answers.queued node then [some node] else []) := by
  have counted : ∀ clock, answers.clockOf node = some clock → answers.queued node = true :=
    fun clock given => answers.queued_of_clockOf node clock given
  cases handled with
  | rejected refused =>
    simp only [nodeFailed_kept]
    cases accepted : answers.queued node <;>
      simp [refused, log, nodeSuccess, QuorumLogic.nodeSuccess, answered]
  | stored clock given first =>
    simp [given, counted clock given, answered]
  | stamped clock maxClock given later agreed =>
    simp [given, counted clock given, log, answered, doStampMessage]
  | clashed clock error given later raised =>
    simp only [nodeFailed_kept]
    simp [given, counted clock given, log, answered]

/-- The callback leaves the message of the publish. -/
theorem Handled.message (handled : Handled answers run node after) :
    after.message = run.message := by
  cases handled with
  | rejected refused =>
    rw [nodeFailed_message]
    cases answers.queued node <;> rfl
  | stored clock given first => rfl
  | stamped clock maxClock given later agreed => rfl
  | clashed clock error given later raised => exact nodeFailed_message _ node

/-- Failures are paid for by refusals and moves of the index, as one failure
is. -/
theorem Handled.paid (handled : Handled answers run node after) :
    after.refusals + after.logic.lastNode + run.logic.failedNodes.length =
      run.refusals + run.logic.lastNode + after.logic.failedNodes.length := by
  cases handled with
  | rejected refused =>
    simp only [nodeFailed_paid, nodeFailed_kept]
    cases answers.queued node <;>
      simp [log, nodeSuccess, QuorumLogic.nodeSuccess, refusals, responses] <;> omega
  | stored clock given first =>
    simp [refusals, responses]
  | stamped clock maxClock given later agreed =>
    simp [log, refusals, responses, doStampMessage]
  | clashed clock error given later raised =>
    simp only [nodeFailed_paid, nodeFailed_kept]
    simp [log, refusals, responses]
    omega

/-- The callback publishes exactly the call it leaves in progress, if it
leaves one. -/
theorem Handled.published (handled : Handled answers run node after) (idle : run.calling = none) :
    after.published = run.published ++ after.calling.toList := by
  cases handled with
  | rejected refused =>
    rw [nodeFailed_published]
    · cases answers.queued node <;> simp [log, nodeSuccess, PublishRun.published]
    · cases answers.queued node <;> simpa [log, nodeSuccess] using idle
  | stored clock given first =>
    simp [PublishRun.published, idle]
  | stamped clock maxClock given later agreed =>
    simp [log, PublishRun.published, idle, doStampMessage]
  | clashed clock error given later raised =>
    rw [nodeFailed_published]
    · simp [log, PublishRun.published]
    · simpa [log] using idle

/-- What the callback adds to the failed nodes and to the combined and
stamped clocks, by the ways in which it ends. -/
inductive Recorded (answers : Answers) (run : PublishRun) (node : Node) (after : PublishRun) :
    Prop where
  | rejected (refused : answers.clockOf node = none)
      (failed : after.logic.failedNodes = run.logic.failedNodes ++ [some node])
      (combines : after.combines = run.combines) (stamps : after.stamps = run.stamps)
  | stored (clock : VectorClock 3) (given : answers.clockOf node = some clock)
      (first : run.logic.successNodes = [])
      (failed : after.logic.failedNodes = run.logic.failedNodes)
      (combines : after.combines = run.combines) (stamps : after.stamps = run.stamps)
  | stamped (clock maxClock : VectorClock 3) (given : answers.clockOf node = some clock)
      (later : run.logic.successNodes ≠ []) (agreed : run.combined answers clock = .ok maxClock)
      (failed : after.logic.failedNodes = run.logic.failedNodes)
      (combines : after.combines = run.combines ++ [run.logic.ctx ++ [clock]])
      (stamps : after.stamps = run.stamps + 1)
  | clashed (clock : VectorClock 3) (error : ComparisonError)
      (given : answers.clockOf node = some clock) (later : run.logic.successNodes ≠ [])
      (raised : run.combined answers clock = .error error)
      (failed : after.logic.failedNodes = run.logic.failedNodes ++ [some node])
      (combines : after.combines = run.combines ++ [run.logic.ctx ++ [clock]])
      (stamps : after.stamps = run.stamps)

/-- Each way of ending has its record. -/
theorem Handled.recorded (handled : Handled answers run node after) :
    Recorded answers run node after := by
  cases handled with
  | rejected refused =>
    refine Recorded.rejected refused ?_ ?_ ?_ <;> simp only [nodeFailed_kept] <;>
      cases answers.queued node <;>
        simp [log, nodeSuccess, QuorumLogic.nodeSuccess, combines, stamps]
  | stored clock given first =>
    refine Recorded.stored clock given first ?_ ?_ ?_ <;>
      simp [combines, stamps]
  | stamped clock maxClock given later agreed =>
    refine Recorded.stamped clock maxClock given later agreed ?_ ?_ ?_ <;>
      simp [log, doStampMessage, combines, stamps]
  | clashed clock error given later raised =>
    refine Recorded.clashed clock error given later raised ?_ ?_ ?_ <;>
      simp only [nodeFailed_kept] <;>
      simp [log, combines, stamps]

/-- The callback leaves the index alone, or moves it by one to call the next
slot, which it does only below the last slot. -/
theorem Handled.index (handled : Handled answers run node after) (idle : run.calling = none) :
    (after.logic.lastNode = run.logic.lastNode ∧ after.calling = none) ∨
      (run.logic.lastNode < 2 ∧ after.logic.lastNode = run.logic.lastNode + 1 ∧
        after.calling = some run.logic.nextNode) := by
  have failing : ∀ before : PublishRun, before.logic.lastNode = run.logic.lastNode →
      before.logic.nextNode = run.logic.nextNode → before.calling = none →
      ((before.nodeFailed node).logic.lastNode = run.logic.lastNode ∧
        (before.nodeFailed node).calling = none) ∨
      (run.logic.lastNode < 2 ∧ (before.nodeFailed node).logic.lastNode = run.logic.lastNode + 1 ∧
        (before.nodeFailed node).calling = some run.logic.nextNode) := by
    intro before sameIndex sameNode sameCall
    rw [nodeFailed_eq, sameNode]
    split
    · next early => exact Or.inr ⟨sameIndex ▸ early.2, congrArg (· + 1) sameIndex, rfl⟩
    · exact Or.inl ⟨sameIndex, sameCall⟩
  cases handled with
  | rejected refused => cases answers.queued node <;> exact failing _ rfl rfl idle
  | stored clock given first => exact Or.inl ⟨rfl, idle⟩
  | stamped clock maxClock given later agreed => exact Or.inl ⟨rfl, idle⟩
  | clashed clock error given later raised => exact failing _ rfl rfl idle

/-- The first answer, given inside the first call, makes the next call
exactly if it is no success. -/
theorem Handled.first (handled : Handled answers run node after)
    (fresh : run.logic.successNodes = [] ∧ run.logic.failedNodes = [])
    (index : run.logic.lastNode = 1) :
    if answers.succeeds node then
      after.logic.lastNode = 1 ∧ after.calling = run.calling
    else
      after.logic.lastNode = 2 ∧ after.calling = some (run.logic.allNodes 1) := by
  unfold Answers.succeeds
  cases handled with
  | rejected refused =>
    simp only [refused, Option.isSome_none, Bool.false_eq_true, if_false, nodeFailed_eq]
    cases answers.queued node <;>
      simp [log, nodeSuccess, QuorumLogic.nodeSuccess, QuorumLogic.nextNode, fresh, index]
  | stored clock given first =>
    simp [given, index]
  | stamped clock maxClock given later agreed => exact absurd fresh.1 later
  | clashed clock error given later raised => exact absurd fresh.1 later

end Answer

section Steps

variable (answers : Answers) (run : PublishRun)

/-- What a step can do: make the next call of the loop, postpone an answer,
or handle an answer inside its call or late. -/
inductive Moved : PublishRun → Prop where
  | called (idle : run.calling = none) (left : run.iterations ≠ 0) :
      Moved ({ run with iterations := run.iterations - 1 }.perform run.logic.callFunction)
  | postponed (node : Node) (made : run.calling = some (some node))
      (late : answers.inside node = false) :
      Moved { run with calling := none, pending := run.pending ++ [node] }
  | inside (node : Node) (after : PublishRun) (made : run.calling = some (some node))
      (within : answers.inside node = true)
      (handled : Handled answers { run with calling := none } node after) : Moved after
  | late (node : Node) (after : PublishRun) (idle : run.calling = none)
      (returned : run.iterations = 0) (outstanding : node ∈ run.pending)
      (handled : Handled answers { run with pending := run.pending.erase node } node after) :
      Moved after

/-- Every step is one of these, so that invariants are shown by cases on
them. -/
theorem step_moved (event : Event) (after : PublishRun)
    (enabled : run.step answers event = some after) : Moved answers run after := by
  cases event with
  | advance =>
    cases made : run.calling with
    | none =>
      simp only [step, made] at enabled
      split at enabled
      · cases enabled
      · next left =>
        cases enabled
        exact Moved.called made left
    | some pointer =>
      cases pointer with
      | none => simp [step, made] at enabled
      | some node =>
        simp only [step, made] at enabled
        split at enabled
        · next within =>
          cases enabled
          exact Moved.inside node _ made within (answer_handled answers _ node)
        · next late =>
          cases enabled
          exact Moved.postponed node made (by simpa using late)
  | deliver node =>
    simp only [step] at enabled
    split at enabled
    · next ready =>
      cases enabled
      exact Moved.late node _ ready.1 ready.2.1 ready.2.2 (answer_handled answers _ node)
    · cases enabled

/-- The control points of a publish over the given slots. The answer of the
first node decides between two branches: if it comes inside its call and is
no success, the second slot is called from there and the loop goes on to the
third. -/
inductive Phase (nodes : Fin 3 → Option Node) : Prop where
  | entered (idle : run.calling = none) (left : run.iterations = 2) (index : run.logic.lastNode = 0)
      (fresh : run.logic.successNodes = [] ∧ run.logic.failedNodes = [])
  | firstCall (made : run.calling = some (nodes 0)) (left : run.iterations = 1)
      (index : run.logic.lastNode = 1)
      (fresh : run.logic.successNodes = [] ∧ run.logic.failedNodes = [])
  | firstDone (plain : (nodes 0).any answers.rejectsInside = false) (idle : run.calling = none)
      (left : run.iterations = 1) (index : run.logic.lastNode = 1)
  | paired (plain : (nodes 0).any answers.rejectsInside = false) (left : run.iterations = 0)
      (index : run.logic.lastNode = 2)
  | retried (retry : (nodes 0).any answers.rejectsInside = true) (left : run.iterations = 1)
      (index : run.logic.lastNode = 2)
  | exhausted (retry : (nodes 0).any answers.rejectsInside = true) (left : run.iterations = 0)
      (index : run.logic.lastNode = 3)

variable {answers run} {after : PublishRun} {nodes : Fin 3 → Option Node}

/-- Only the first call is made below the second slot. All others are made
when the index has passed it. -/
theorem Phase.of_call (phase : Phase answers run nodes) {pointer : Option Node}
    (made : run.calling = some pointer) :
    (nodes 0 = pointer ∧ run.iterations = 1 ∧ run.logic.lastNode = 1 ∧
      run.logic.successNodes = [] ∧ run.logic.failedNodes = []) ∨ 2 ≤ run.logic.lastNode := by
  cases phase with
  | entered idle left index fresh => rw [idle] at made; cases made
  | firstCall made' left index fresh =>
    exact Or.inl ⟨Option.some.inj (made'.symm.trans made), left, index, fresh⟩
  | firstDone plain idle left index => rw [idle] at made; cases made
  | paired plain left index => exact Or.inr (Nat.le_of_eq index.symm)
  | retried retry left index => exact Or.inr (Nat.le_of_eq index.symm)
  | exhausted retry left index => exact Or.inr (by omega)

/-- When the loop is over the index has passed the second slot, since each
iteration makes a call. -/
theorem Phase.of_returned (phase : Phase answers run nodes) (returned : run.iterations = 0) :
    2 ≤ run.logic.lastNode := by
  cases phase <;> omega

/-- Beyond the second slot the phase is read off the index and the loop, and
nothing else matters. -/
theorem Phase.steady (phase : Phase answers run nodes) (passed : 2 ≤ run.logic.lastNode)
    (sameIndex : after.logic.lastNode = run.logic.lastNode)
    (sameLeft : after.iterations = run.iterations) : Phase answers after nodes := by
  cases phase with
  | entered idle left index fresh => omega
  | firstCall made left index fresh => omega
  | firstDone plain idle left index => omega
  | paired plain left index =>
      exact Phase.paired plain (sameLeft.trans left) (sameIndex.trans index)
  | retried retry left index =>
    exact Phase.retried retry (sameLeft.trans left) (sameIndex.trans index)
  | exhausted retry left index =>
    exact Phase.exhausted retry (sameLeft.trans left) (sameIndex.trans index)

/-- Beyond the second slot an answer moves neither the index nor the
loop. -/
theorem Handled.steady {node : Node} (handled : Handled answers run node after)
    (idle : run.calling = none) (passed : 2 ≤ run.logic.lastNode) :
    after.logic.lastNode = run.logic.lastNode ∧ after.iterations = run.iterations := by
  rcases handled.index idle with ⟨same, _⟩ | ⟨early, _⟩
  · exact ⟨same, handled.kept.2.1⟩
  · omega

/-- Every step leads to a phase, by the step and the phase before it. -/
theorem Phase.moved (phase : Phase answers run nodes) (slots : run.logic.allNodes = nodes)
    (moved : Moved answers run after) : Phase answers after nodes := by
  cases moved with
  | called idle left =>
    cases phase with
    | entered _ twice index fresh =>
      refine Phase.firstCall ?_ ?_ ?_ fresh
      · simp [perform, QuorumLogic.callFunction, QuorumLogic.nextNode, index, slots]
      · simp [perform, QuorumLogic.callFunction, twice]
      · simp [perform, QuorumLogic.callFunction, index]
    | firstCall made once index fresh => rw [idle] at made; cases made
    | firstDone plain _ once index =>
      refine Phase.paired plain ?_ ?_
      · simp [perform, QuorumLogic.callFunction, once]
      · simp [perform, QuorumLogic.callFunction, index]
    | paired plain noneLeft index => exact absurd noneLeft left
    | retried retry once index =>
      refine Phase.exhausted retry ?_ ?_
      · simp [perform, QuorumLogic.callFunction, once]
      · simp [perform, QuorumLogic.callFunction, index]
    | exhausted retry noneLeft index => exact absurd noneLeft left
  | postponed node made late =>
    rcases phase.of_call made with ⟨first, left, index, _⟩ | passed
    · exact Phase.firstDone (by simp [first, Answers.rejectsInside, late]) rfl left index
    · exact phase.steady passed rfl rfl
  | inside node _ made within handled =>
    rcases phase.of_call made with ⟨first, left, index, fresh⟩ | passed
    · have iterations := handled.kept.2.1.trans left
      have next := handled.first fresh index
      split at next
      · next succeeds =>
        exact Phase.firstDone (by simp [first, Answers.rejectsInside, succeeds]) next.2 iterations
          next.1
      · next fails =>
        exact Phase.retried (by simp [first, Answers.rejectsInside, within, fails]) iterations
          next.1
    · obtain ⟨sameIndex, sameLeft⟩ := handled.steady rfl passed
      exact phase.steady passed sameIndex sameLeft
  | late node _ idle returned outstanding handled =>
    have passed := phase.of_returned returned
    obtain ⟨sameIndex, sameLeft⟩ := handled.steady idle passed
    exact phase.steady passed sameIndex sameLeft

/-- The index stays within the array when a slot is read by the loop. -/
theorem Phase.index_lt (phase : Phase answers run nodes) (left : run.iterations ≠ 0) :
    run.logic.lastNode < 3 := by
  cases phase <;> omega

/-- Reading one more slot of the array, which is the one at the index. -/
theorem take_succ_slots (logic : QuorumLogic 3 (List (VectorClock 3)))
    (index : logic.lastNode < 3) :
    (List.ofFn logic.allNodes).take (logic.lastNode + 1) =
      (List.ofFn logic.allNodes).take logic.lastNode ++ [logic.nextNode] := by
  rw [List.take_add_one, List.getElem?_eq_getElem (by simpa using index), List.getElem_ofFn,
    Option.toList_some, QuorumLogic.nextNode, dif_pos index]

/-- The account of a publish over the given slots: the index has walked the
published slots, failures are paid for by refusals and retries, and the
lists of the quorum logic are those of the answers. -/
structure Books (answers : Answers) (nodes : Fin 3 → Option Node) (run : PublishRun) : Prop where
  slots : run.logic.allNodes = nodes
  walked : run.published = (List.ofFn nodes).take run.logic.lastNode
  paid : run.logic.failedNodes.length + 2 = run.refusals + run.logic.lastNode + run.iterations
  successes : run.logic.successNodes = (run.answered.filter answers.queued).map some
  clocks : run.logic.ctx = run.answered.filterMap answers.clockOf

/-- No clock is stored before the first success, because each stored clock
is that of one. -/
theorem Books.clocks_eq_nil (books : Books answers nodes run)
    (first : run.logic.successNodes = []) : run.logic.ctx = [] := by
  rw [books.successes, List.map_eq_nil_iff, List.filter_eq_nil_iff] at first
  rw [books.clocks, List.filterMap_eq_nil_iff]
  intro node member
  by_contra given
  obtain ⟨clock, stored⟩ := Option.ne_none_iff_exists'.mp given
  exact first node member (answers.queued_of_clockOf node clock stored)

/-- Publishing the slot at the index, as the account has it. -/
theorem Books.walked_next (books : Books answers nodes run) (index : run.logic.lastNode < 3) :
    run.published ++ [run.logic.nextNode] =
      (List.ofFn nodes).take (run.logic.lastNode + 1) := by
  rw [books.walked, ← books.slots, take_succ_slots run.logic index]

/-- The account does not depend on which calls are in progress or
outstanding. -/
theorem Books.rescheduled (books : Books answers nodes run) (calling : Option (Option Node))
    (pending : List Node) : Books answers nodes { run with calling, pending } :=
  ⟨books.slots, books.walked, books.paid, books.successes, books.clocks⟩

/-- Handling an answer keeps the account. -/
theorem Books.handled {node : Node} (books : Books answers nodes run) (idle : run.calling = none)
    (handled : Handled answers run node after) : Books answers nodes after := by
  obtain ⟨slots, iterations, _, answered, clocks, successes⟩ := handled.kept
  have published := handled.published idle
  have paid := handled.paid
  constructor
  · exact slots.trans books.slots
  · rw [published]
    rcases handled.index idle with ⟨index, call⟩ | ⟨early, index, call⟩
    · rw [call, index, Option.toList_none, List.append_nil, books.walked]
    · rw [call, index, Option.toList_some, books.walked_next (by omega)]
  · have before := books.paid
    omega
  · rw [successes, answered, books.successes]
    cases accepted : answers.queued node <;> simp [accepted]
  · rw [clocks, answered, books.clocks, List.filterMap_append]
    cases given : answers.clockOf node <;> simp [given]

/-- So does every step. A call of the loop moves the index by one and takes
an iteration. -/
theorem Books.moved (books : Books answers nodes run) (phase : Phase answers run nodes)
    (moved : Moved answers run after) : Books answers nodes after := by
  cases moved with
  | called idle left =>
    constructor
    · exact books.slots
    · have next := books.walked_next (phase.index_lt left)
      simpa [perform, QuorumLogic.callFunction, published] using next
    · have before := books.paid
      have same : ({ run with iterations := run.iterations - 1 }.perform
          run.logic.callFunction).refusals = run.refusals := by
        simp [perform, QuorumLogic.callFunction, refusals, responses]
      rw [same]
      simp only [perform, QuorumLogic.callFunction]
      omega
    · simpa [perform, QuorumLogic.callFunction, answered] using books.successes
    · simpa [perform, QuorumLogic.callFunction, answered] using books.clocks
  | postponed node made late => exact books.rescheduled none (run.pending ++ [node])
  | inside node _ made within handled =>
    exact (books.rescheduled none run.pending).handled rfl handled
  | late node _ idle returned outstanding handled =>
    exact (books.rescheduled run.calling (run.pending.erase node)).handled idle handled

/-- Every published call is in progress, outstanding or answered, and is
only one of these. -/
def Accounted (run : PublishRun) : Prop :=
  (run.calling.toList ++ (run.pending ++ run.answered).map some).Perm run.published

/-- An answer taken off the calls in progress or outstanding joins the
answered ones, and a call it makes is published. -/
theorem Handled.accounted {node : Node} (handled : Handled answers run node after)
    (idle : run.calling = none)
    (owed : ((node :: (run.pending ++ run.answered)).map some).Perm run.published) :
    after.Accounted := by
  obtain ⟨_, _, pending, answered, _⟩ := handled.kept
  have joined : (run.pending ++ (run.answered ++ [node])).Perm
      (node :: (run.pending ++ run.answered)) := by
    rw [← List.append_assoc]
    exact List.perm_append_singleton _ _
  rw [Accounted, handled.published idle, pending, answered]
  exact (List.perm_append_comm.trans (((joined.map some).trans owed).append_right _))

/-- Every step keeps the calls accounted for. -/
theorem Accounted.moved (accounted : run.Accounted) (moved : Moved answers run after) :
    after.Accounted := by
  unfold Accounted at accounted
  cases moved with
  | called idle left =>
    rw [idle] at accounted
    have grown := (accounted.cons run.logic.nextNode).trans
      (List.perm_append_singleton run.logic.nextNode run.published).symm
    simpa [Accounted, perform, QuorumLogic.callFunction, published, answered] using grown
  | postponed node made late =>
    rw [made] at accounted
    have filed : ((run.pending ++ [node] ++ run.answered).map some).Perm
        (some node :: (run.pending ++ run.answered).map some) := by
      rw [List.append_assoc, List.singleton_append]
      exact List.perm_middle.map some
    exact filed.trans accounted
  | inside node _ made within handled =>
    rw [made] at accounted
    exact handled.accounted rfl accounted
  | late node _ idle returned outstanding handled =>
    rw [idle] at accounted
    have taken : (node :: (run.pending.erase node ++ run.answered)).Perm
        (run.pending ++ run.answered) :=
      (List.perm_cons_erase outstanding).symm.append_right run.answered
    exact handled.accounted idle ((taken.map some).trans accounted)

/-- The number of slots that are called in the course of a publish: the
third one only if the first node rejects inside its call. -/
def reach (answers : Answers) (nodes : Fin 3 → Option Node) : Nat :=
  if (nodes 0).any answers.rejectsInside then 3 else 2

/-- The nodes that are asked in the course of a publish, in the order of
their slots. -/
def asked (answers : Answers) (nodes : Fin 3 → Option Node) : List Node :=
  ((List.ofFn nodes).take (reach answers nodes)).filterMap id

/-- The index stays within the slots that are called, and comes to their end
with the loop. -/
theorem Phase.index_le (phase : Phase answers run nodes) :
    run.logic.lastNode ≤ reach answers nodes ∧
      (run.iterations = 0 → run.logic.lastNode = reach answers nodes) := by
  unfold reach
  cases phase with
  | entered idle left index fresh => split <;> omega
  | firstCall made left index fresh => split <;> omega
  | firstDone plain idle left index => split <;> omega
  | paired plain left index => simp [plain, left, index]
  | retried retry left index => simp [retry, left, index]
  | exhausted retry left index => simp [retry, left, index]

/-- What holds in every state of a publish over the given slots: its phase,
its account, and that of its calls. -/
structure Walk (answers : Answers) (nodes : Fin 3 → Option Node) (run : PublishRun) : Prop where
  phase : Phase answers run nodes
  books : Books answers nodes run
  accounted : run.Accounted

/-- Every step keeps all of it. -/
theorem Walk.moved (walk : Walk answers nodes run) (moved : Moved answers run after) :
    Walk answers nodes after :=
  ⟨walk.phase.moved walk.books.slots moved, walk.books.moved walk.phase moved,
    walk.accounted.moved moved⟩

/-- The answers that are handled are those of nodes that are asked, and of
no other. -/
theorem Walk.mem_asked (walk : Walk answers nodes run) {node : Node}
    (member : node ∈ run.answered) : node ∈ asked answers nodes := by
  have published : some node ∈ run.published := by
    refine walk.accounted.subset (List.mem_append_right _ ?_)
    exact List.mem_map_of_mem (List.mem_append_right _ member)
  rw [walk.books.walked] at published
  exact List.mem_filterMap.mpr
    ⟨some node, List.take_subset_take_left _ walk.phase.index_le.1 published, rfl⟩

/-- Once all calls have answered, the answers are those of all nodes that
are asked, in some order. -/
theorem Walk.answered_perm (walk : Walk answers nodes run) (settled : run.Settled) :
    run.answered.Perm (asked answers nodes) := by
  obtain ⟨idle, returned, empty⟩ := settled
  have accounted := walk.accounted
  rw [Accounted, walk.books.walked, walk.phase.index_le.2 returned, idle, empty] at accounted
  have unwrapped := accounted.filterMap id
  simpa [asked] using unwrapped

/-- The answers that are handled number at most the slots the index has
walked, and if all of them have answered after the loop, the publish has
settled. -/
theorem Walk.answered_le (walk : Walk answers nodes run) :
    run.answered.length ≤ run.logic.lastNode ∧
      (run.answered.length = run.logic.lastNode → run.iterations = 0 → run.Settled) ∧
      (run.Settled → run.answered.length = run.logic.lastNode) := by
  have total := walk.accounted.length_eq
  have within : run.logic.lastNode ≤ 3 := by
    have bound := walk.phase.index_le.1
    unfold reach at bound
    split at bound <;> omega
  rw [walk.books.walked, List.length_take, List.length_ofFn, Nat.min_eq_left within,
    List.length_append, List.length_map, List.length_append] at total
  refine ⟨by omega, ?_, ?_⟩
  · intro all returned
    refine ⟨?_, returned, List.length_eq_zero_iff.mp (by omega)⟩
    exact Option.toList_eq_nil_iff.mp (List.length_eq_zero_iff.mp (by omega))
  · rintro ⟨idle, _, empty⟩
    rw [idle, empty] at total
    simpa using total

end Steps

section Runs

variable {answers : Answers} {message : PublishMessage} {nextId : UInt32}
  {nodes : Fin 3 → Option Node} {run : PublishRun}

/-- It holds when the quorum logic is entered. -/
theorem start_walk : Walk answers nodes (start message nextId nodes) where
  phase := Phase.entered rfl rfl rfl ⟨rfl, rfl⟩
  books := ⟨rfl, rfl, rfl, rfl, rfl⟩
  accounted := List.Perm.refl _

/-- The states of the publish of a message over the given slots, for the
given answers. -/
def Reachable (answers : Answers) (message : PublishMessage) (nextId : UInt32)
    (nodes : Fin 3 → Option Node) (run : PublishRun) : Prop :=
  Machine.Reaches (step answers) (start message nextId nodes) run

/-- The rule by which invariants of a publish are shown: a step may use what
holds in every state. -/
theorem Reachable.invariant (Holds : PublishRun → Prop)
    (reached : Reachable answers message nextId nodes run)
    (kept : ∀ before after, Walk answers nodes before → Holds before →
      Moved answers before after → Holds after)
    (initially : Holds (start message nextId nodes)) : Walk answers nodes run ∧ Holds run := by
  refine Machine.Reaches.invariant (fun state => Walk answers nodes state ∧ Holds state) ?_ reached
    ⟨start_walk, initially⟩
  rintro before event after ⟨walk, holds⟩ enabled
  have moved := step_moved answers before event after enabled
  exact ⟨walk.moved moved, kept before after walk holds moved⟩

/-- Every state of a publish has a phase and a full account. -/
theorem Reachable.walk (reached : Reachable answers message nextId nodes run) :
    Walk answers nodes run :=
  (Reachable.invariant (fun _ => True) reached (fun _ _ _ _ _ => trivial) trivial).1

/-- What the answers have left in the quorum logic and in the trace. Only
handling an answer changes it. -/
structure Record where
  answered : List Node
  successNodes : List (Option Node)
  failedNodes : List (Option Node)
  clocks : List (VectorClock 3)
  combines : List (List (VectorClock 3))
  stamps : Nat

/-- The record of a state, read off its logic and its trace. -/
def record (run : PublishRun) : Record where
  answered := run.answered
  successNodes := run.logic.successNodes
  failedNodes := run.logic.failedNodes
  clocks := run.logic.ctx
  combines := run.combines
  stamps := run.stamps

/-- What handling an answer keeps of the record holds in every state: the
other steps leave the record alone. -/
theorem Reachable.recorded (Holds : Record → Prop)
    (reached : Reachable answers message nextId nodes run)
    (kept : ∀ before node after, Books answers nodes before → Walk answers nodes after →
      Holds before.record → Handled answers before node after → Holds after.record)
    (initially : Holds (start message nextId nodes).record) : Holds run.record := by
  refine (Reachable.invariant (fun state => Holds state.record) reached ?_ initially).2
  intro before after walk holds moved
  cases moved with
  | called idle left =>
    have same : ({ before with iterations := before.iterations - 1 }.perform
        before.logic.callFunction).record = before.record := by
      simp [record, perform, QuorumLogic.callFunction, answered, combines, stamps]
    exact same ▸ holds
  | postponed node made late => exact holds
  | inside node _ made within handled =>
    exact kept _ node after (walk.books.rescheduled none before.pending)
      (walk.moved (.inside node after made within handled)) holds handled
  | late node _ idle returned outstanding handled =>
    exact kept _ node after (walk.books.rescheduled before.calling (before.pending.erase node))
      (walk.moved (.late node after idle returned outstanding handled)) holds handled

/-- A bound on the steps that are left: a slot to be called, a call in
progress and an outstanding answer weigh less and less. -/
def workload (run : PublishRun) : Nat :=
  4 * (3 - run.logic.lastNode) + 2 * run.calling.toList.length + run.pending.length

/-- Handling an answer adds no work: a call that it makes is paid for by the
index. -/
theorem Handled.workload_le {after : PublishRun} {node : Node}
    (handled : Handled answers run node after) (idle : run.calling = none) :
    after.workload ≤ run.workload := by
  obtain ⟨_, _, pending, _⟩ := handled.kept
  unfold workload
  rw [pending, idle]
  rcases handled.index idle with ⟨index, call⟩ | ⟨early, index, call⟩
  · rw [index, call]
  · rw [index, call]
    simp only [Option.toList_some, Option.toList_none, List.length_singleton, List.length_nil]
    omega

/-- Every step leaves less work. -/
theorem Moved.workload_lt {after : PublishRun} (walk : Walk answers nodes run)
    (moved : Moved answers run after) : after.workload < run.workload := by
  cases moved with
  | called idle left =>
    have index := walk.phase.index_lt left
    simp only [workload, perform, QuorumLogic.callFunction, idle, Option.toList_some,
      Option.toList_none, List.length_singleton, List.length_nil]
    omega
  | postponed node made late =>
    simp only [workload, made, Option.toList_some, Option.toList_none, List.length_singleton,
      List.length_nil, List.length_append]
    omega
  | inside node _ made within handled =>
    have bound := handled.workload_le rfl
    simp only [workload, made, Option.toList_some, Option.toList_none, List.length_singleton,
      List.length_nil] at bound ⊢
    omega
  | late node _ idle returned outstanding handled =>
    have bound := handled.workload_le idle
    have shorter := List.length_erase_of_mem outstanding
    have positive := List.length_pos_of_mem outstanding
    simp only [workload, shorter] at bound ⊢
    omega

/-- A publish that can go no further has settled or called a null pointer.
Nothing else stops it. -/
theorem settled_of_halted (halted : Machine.Halted (step answers) run) :
    run.Settled ∨ run.calling = some none := by
  have advance := halted .advance
  cases made : run.calling with
  | none =>
    simp only [step, made] at advance
    split at advance
    · next returned =>
      refine Or.inl ⟨made, returned, ?_⟩
      by_contra outstanding
      obtain ⟨node, member⟩ := List.exists_mem_of_ne_nil _ outstanding
      have deliver := halted (.deliver node)
      simp [step, made, returned, member] at deliver
    · cases advance
  | some pointer =>
    cases pointer with
    | none => exact Or.inr rfl
    | some node =>
      simp only [step, made] at advance
      split at advance <;> cases advance

/-- Every publish ends: a state is reached in which all issued calls have
answered, or in which a null pointer has been called. -/
theorem exists_ended (answers : Answers) (message : PublishMessage) (nextId : UInt32)
    (nodes : Fin 3 → Option Node) :
    ∃ run, Reachable answers message nextId nodes run ∧
      (run.Settled ∨ run.calling = some none) := by
  obtain ⟨last, reached, halted⟩ := Machine.exists_halted (step answers) (Walk answers nodes)
    workload
    (fun before event after walk enabled =>
      walk.moved (step_moved answers before event after enabled))
    (fun before event after walk enabled =>
      (step_moved answers before event after enabled).workload_lt walk)
    (start message nextId nodes) start_walk
  exact ⟨last, reached, settled_of_halted halted⟩

end Runs

end Sopmq.PublishRun
