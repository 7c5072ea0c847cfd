import Sopmq.Machine
import Sopmq.QuorumLogic

/-!
# Runs of the quorum logic

`quorum_logic::run` calls its function in a loop, without a bounds check on the index, and
every reported failure may call the function again from inside `node_failed`. A report may
come while the call it reports on, or any other call, is still on the stack, or after all of
them have returned. What keeps the index inside the array is a budget: the loop makes a
majority of calls, and fewer than a majority of the failures are followed by a call.
-/

namespace Sopmq

/-- A call of the function: the index that was read, and the node pointer
found there. -/
structure SlotCall where
  slot : Nat
  node : Option Node
deriving DecidableEq, Repr

/-- A quorum operation in progress: the iterations that the loop of `run`
still has to make, the calls made so far, those that have not reported, and
those still on the stack. -/
structure QuorumRun (RF : Nat) (Context : Type) where
  logic : QuorumLogic RF Context
  iterations : Nat
  issued : List SlotCall
  outstanding : List SlotCall
  stack : List SlotCall

/-- The loop goes round, a call reports, or the innermost call returns.
These may be interleaved in any way that the stack allows. -/
inductive QuorumEvent where
  | iterate
  | succeeded (call : SlotCall)
  | failed (call : SlotCall)
  | returned
deriving DecidableEq, Repr

namespace QuorumRun

variable {RF : Nat} {Context : Type}

/-- `quorum_logic::run` entered: nothing has been called, and the loop has
all of its turns to make. -/
def start (ctx : Context) (allNodes : Fin RF → Option Node) : QuorumRun RF Context where
  logic := QuorumLogic.create ctx allNodes
  iterations := QuorumLogic.runIterations RF
  issued := []
  outstanding := []
  stack := []

/-- Make a call of the quorum logic. The fail function belongs to the caller
and leaves the quorum logic as it is. -/
def perform (run : QuorumRun RF Context) (made : QuorumLogic RF Context × QuorumLogic.Call) :
    QuorumRun RF Context :=
  match made.2 with
  | .function node =>
      { run with
        logic := made.1
        issued := run.issued ++ [⟨run.logic.lastNode, node⟩]
        outstanding := ⟨run.logic.lastNode, node⟩ :: run.outstanding
        stack := ⟨run.logic.lastNode, node⟩ :: run.stack }
  | .failFunction => { run with logic := made.1 }

/-- The call has reported, so it cannot report again. -/
def settle (run : QuorumRun RF Context) (call : SlotCall) : QuorumRun RF Context :=
  { run with outstanding := run.outstanding.erase call }

/-- One event of a quorum operation. The loop waits for its call to return,
and a report comes from a call that has not reported. -/
def step (run : QuorumRun RF Context) : QuorumEvent → Option (QuorumRun RF Context)
  | .iterate =>
      if run.stack = [] ∧ 0 < run.iterations then
        some ({ run with iterations := run.iterations - 1 }.perform run.logic.callFunction)
      else none
  | .succeeded call =>
      if call ∈ run.outstanding then
        some { run.settle call with logic := run.logic.nodeSuccess call.node }
      else none
  | .failed call =>
      if call ∈ run.outstanding then
        some ((run.settle call).perform (run.logic.nodeFailed call.node))
      else none
  | .returned => if run.stack = [] then none else some { run with stack := run.stack.tail }

/-- The account of a run. The calls walk through the array from its start.
Together with the iterations still to come there are no more of them than
the loop makes and one for each failure, where the failure that completes a
majority and those after it do not count. Every failure is the report of a
call. -/
structure Budgeted (allNodes : Fin RF → Option Node) (run : QuorumRun RF Context) : Prop where
  nodes : run.logic.allNodes = allNodes
  slots : run.issued.map SlotCall.slot = List.range run.logic.lastNode
  read : ∀ call ∈ run.issued, ∀ bound : call.slot < RF, call.node = allNodes ⟨call.slot, bound⟩
  budget : run.logic.lastNode + run.iterations ≤
    QuorumLogic.runIterations RF +
      min run.logic.failedNodes.length (QuorumLogic.runIterations RF - 1)
  reports : run.logic.failedNodes.length + run.outstanding.length ≤ run.logic.lastNode

/-- At the start nothing has been called, and the turns of the loop are the
whole budget. -/
theorem start_budgeted (ctx : Context) (allNodes : Fin RF → Option Node) :
    (start ctx allNodes).Budgeted allNodes where
  nodes := rfl
  slots := rfl
  read := by simp [start]
  budget := by simp [start, QuorumLogic.create]
  reports := by simp [start, QuorumLogic.create]

/-- A call of the function keeps the account if there is room for it. The
index moves on by the one slot that was read. -/
theorem Budgeted.callFunction {allNodes : Fin RF → Option Node} {run : QuorumRun RF Context}
    (budgeted : run.Budgeted allNodes)
    (room : run.logic.lastNode + run.iterations <
      QuorumLogic.runIterations RF +
        min run.logic.failedNodes.length (QuorumLogic.runIterations RF - 1)) :
    (run.perform run.logic.callFunction).Budgeted allNodes where
  nodes := budgeted.nodes
  slots := by
    simp [perform, QuorumLogic.callFunction, budgeted.slots, List.range_succ]
  read := by
    intro call member bound
    rcases List.mem_append.mp member with earlier | now
    · exact budgeted.read call earlier bound
    · obtain rfl := List.mem_singleton.mp now
      simp only [QuorumLogic.nextNode, budgeted.nodes]
      exact dif_pos bound
  budget := by
    simp only [perform, QuorumLogic.callFunction]
    omega
  reports := by
    simp only [perform, QuorumLogic.callFunction, List.length_cons]
    have := budgeted.reports
    omega

/-- The node is put on the list of failed nodes, before anything is
called. -/
def pushFailed (run : QuorumRun RF Context) (node : Option Node) : QuorumRun RF Context :=
  { run with logic := { run.logic with failedNodes := run.logic.failedNodes ++ [node] } }

/-- A failure puts the node on the list, and calls the next one exactly when
the logic finds that it can go on. -/
theorem perform_nodeFailed (run : QuorumRun RF Context) (node : Option Node) :
    run.perform (run.logic.nodeFailed node) =
      if (run.pushFailed node).logic.canContinue then
        (run.pushFailed node).perform (run.pushFailed node).logic.callFunction
      else run.pushFailed node :=
  apply_ite run.perform _ _ _

/-- A failure makes room for the call that follows it, unless it is one too
many, and then no call follows. -/
theorem Budgeted.failed {allNodes : Fin RF → Option Node} {run : QuorumRun RF Context}
    (budgeted : run.Budgeted allNodes) (call : SlotCall) (waiting : call ∈ run.outstanding) :
    ((run.settle call).perform (run.logic.nodeFailed call.node)).Budgeted allNodes := by
  have fewer := List.length_erase_of_mem waiting
  have present := List.length_pos_of_mem waiting
  have reports := budgeted.reports
  have budget := budgeted.budget
  have pushed : ((run.settle call).pushFailed call.node).Budgeted allNodes := by
    refine ⟨budgeted.nodes, budgeted.slots, budgeted.read, ?_, ?_⟩
    · simp only [pushFailed, settle, List.length_append, List.length_singleton]
      omega
    · simp only [pushFailed, settle, List.length_append, List.length_singleton]
      omega
  change ((run.settle call).perform ((run.settle call).logic.nodeFailed call.node)).Budgeted _
  rw [perform_nodeFailed]
  split
  · next continues =>
    refine pushed.callFunction ?_
    have minority := (QuorumLogic.canContinue_iff _).mp continues
    simp only [pushFailed, settle, QuorumLogic.runIterations, List.length_append,
      List.length_singleton] at minority budget ⊢
    omega
  · exact pushed

/-- Every event keeps the account: a turn of the loop spends what was set
aside for it, and a failure pays for its own call. -/
theorem step_budgeted (allNodes : Fin RF → Option Node) (run : QuorumRun RF Context)
    (event : QuorumEvent) (after : QuorumRun RF Context) (budgeted : run.Budgeted allNodes)
    (moved : run.step event = some after) : after.Budgeted allNodes := by
  cases event with
  | iterate =>
    obtain ⟨⟨-, remaining⟩, ⟨⟩⟩ := Option.ite_none_right_eq_some.mp moved
    have fewer : run.logic.lastNode + (run.iterations - 1) < run.logic.lastNode + run.iterations :=
      Nat.add_lt_add_left (Nat.sub_one_lt_of_lt remaining) _
    have spent : Budgeted allNodes { run with iterations := run.iterations - 1 } :=
      { budgeted with budget := le_trans fewer.le budgeted.budget }
    exact spent.callFunction (lt_of_lt_of_le fewer budgeted.budget)
  | succeeded call =>
    obtain ⟨waiting, ⟨⟩⟩ := Option.ite_none_right_eq_some.mp moved
    have fewer : (run.outstanding.erase call).length ≤ run.outstanding.length :=
      List.length_erase_le
    exact { budgeted with reports := le_trans (Nat.add_le_add_left fewer _) budgeted.reports }
  | failed call =>
    obtain ⟨waiting, ⟨⟩⟩ := Option.ite_none_right_eq_some.mp moved
    exact budgeted.failed call waiting
  | returned =>
    obtain ⟨-, ⟨⟩⟩ := Option.ite_none_left_eq_some.mp moved
    exact { budgeted with }

/-- In every state of every run, for every replication factor, each call of
the function was made with an index inside the array and got the node
pointer found there, no index was used twice, and the number of calls is
below twice a majority. There are never more failures than replicas, so the
unsigned difference in `can_continue` does not wrap. -/
theorem quorum_index_safe (positive : 1 ≤ RF) (ctx : Context) (allNodes : Fin RF → Option Node)
    (run : QuorumRun RF Context) (reached : Machine.Reaches step (start ctx allNodes) run) :
    (∀ call ∈ run.issued, ∃ bound : call.slot < RF, call.node = allNodes ⟨call.slot, bound⟩) ∧
    (run.issued.map SlotCall.slot).Nodup ∧
    run.issued.length ≤ 2 * (RF - RF / 2) - 1 ∧
    run.logic.failedNodes.length ≤ RF := by
  have budgeted : run.Budgeted allNodes :=
    reached.invariant (Budgeted allNodes) (step_budgeted allNodes) (start_budgeted ctx allNodes)
  have count : run.issued.length = run.logic.lastNode := by
    rw [← List.length_range (n := run.logic.lastNode), ← budgeted.slots, List.length_map]
  have most : run.logic.lastNode ≤ 2 * (RF - RF / 2) - 1 := by
    have budget := budgeted.budget
    unfold QuorumLogic.runIterations at budget
    omega
  refine ⟨?_, ?_, count ▸ most, ?_⟩
  · intro call member
    have walked : call.slot ∈ List.range run.logic.lastNode :=
      budgeted.slots ▸ List.mem_map_of_mem member
    have bound : call.slot < RF := by
      have := List.mem_range.mp walked
      omega
    exact ⟨bound, budgeted.read call member bound⟩
  · rw [budgeted.slots]
    exact List.nodup_range
  · have reports := budgeted.reports
    omega

/-- The node pointers of three replicas, for runs on fixed inputs. -/
def threeSlots : Fin 3 → Option Node := ![some ⟨1, 10⟩, some ⟨2, 20⟩, some ⟨3, 30⟩]

/-- The first call fails before it returns, and node 2 is called from
inside. The loop then goes round once more, and this uses the last slot. -/
def nestedEvents : List QuorumEvent :=
  [.iterate, .failed ⟨0, some ⟨1, 10⟩⟩, .returned, .returned, .iterate,
    .succeeded ⟨1, some ⟨2, 20⟩⟩]

/-- The statement at this run, in which all three slots have been used and
none twice. -/
theorem quorum_index_safe_nested :
    ∃ run, Machine.run step (start () threeSlots) nestedEvents = some run ∧
      run.issued.map SlotCall.slot = [0, 1, 2] ∧
      (∀ call ∈ run.issued, ∃ bound : call.slot < 3, call.node = threeSlots ⟨call.slot, bound⟩) ∧
      (run.issued.map SlotCall.slot).Nodup ∧
      run.issued.length ≤ 2 * (3 - 3 / 2) - 1 ∧
      run.logic.failedNodes.length ≤ 3 :=
  ⟨_, rfl, rfl, quorum_index_safe (by decide) () threeSlots _
    (Machine.reaches_of_run step (start () threeSlots) _ nestedEvents rfl)⟩

end QuorumRun

end Sopmq
