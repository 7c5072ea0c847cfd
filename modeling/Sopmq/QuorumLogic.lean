import Sopmq.Ring

/-!
# Quorum retry and failure logic

`quorum_logic<RF, Context>` walks an array of node pointers by an index. Its
function and its fail function belong to the caller, so an operation here returns
the call it makes. The array is read without a bounds check in the source; a read
past its end gives no node.
-/

namespace Sopmq

/-- `quorum_logic<RF, Context>`: the nodes in the order in which they are
tried, those that have reported, and the index of the next one. -/
structure QuorumLogic (RF : Nat) (Context : Type) where
  ctx : Context
  allNodes : Fin RF → Option Node
  successNodes : List (Option Node)
  failedNodes : List (Option Node)
  lastNode : Nat

namespace QuorumLogic

variable {RF : Nat} {Context : Type}

/-- A call of the function set by the caller, or of the fail function. The
logic does not know what they do. -/
inductive Call where
  | function (node : Option Node)
  | failFunction
deriving DecidableEq, Repr

/-- `quorum_logic(allNodes)`, with a default constructed context. -/
def create (ctx : Context) (allNodes : Fin RF → Option Node) : QuorumLogic RF Context where
  ctx := ctx
  allNodes := allNodes
  successNodes := []
  failedNodes := []
  lastNode := 0

/-- `quorum_logic::can_continue`: enough nodes have not failed for a
majority, and there is a node after the next one. -/
def canContinue (logic : QuorumLogic RF Context) : Bool :=
  if RF - logic.failedNodes.length > RF / 2 then
    if logic.lastNode + 1 < RF then true else false
  else
    false

/-- The two nested conditions of the source as one. -/
theorem canContinue_iff (logic : QuorumLogic RF Context) :
    logic.canContinue = true ↔
      RF / 2 < RF - logic.failedNodes.length ∧ logic.lastNode + 1 < RF := by
  simp [canContinue]

/-- The node pointer at the index. The source reads it without a check; past
the end there is no node here. -/
def nextNode (logic : QuorumLogic RF Context) : Option Node :=
  if bound : logic.lastNode < RF then logic.allNodes ⟨logic.lastNode, bound⟩ else none

/-- `_function(_all_nodes[_lastNode++])`: the index moves on before the
function runs. -/
def callFunction (logic : QuorumLogic RF Context) : QuorumLogic RF Context × Call :=
  ({ logic with lastNode := logic.lastNode + 1 }, .function logic.nextNode)

/-- The number of calls that `quorum_logic::run` makes in its loop, which is
a majority of an odd number of nodes. -/
def runIterations (RF : Nat) : Nat := RF - RF / 2

/-- `quorum_logic::node_success`: the node is counted, and nothing is
called. -/
def nodeSuccess (logic : QuorumLogic RF Context) (node : Option Node) : QuorumLogic RF Context :=
  { logic with successNodes := logic.successNodes ++ [node] }

/-- `quorum_logic::node_failed`: the failure is counted, and the next node
is tried or the fail function called. -/
def nodeFailed (logic : QuorumLogic RF Context) (node : Option Node) :
    QuorumLogic RF Context × Call :=
  let logic := { logic with failedNodes := logic.failedNodes ++ [node] }
  if logic.canContinue then logic.callFunction else (logic, .failFunction)

/-- `quorum_logic::operation_succeeded`: more than half of the nodes have
reported a success. -/
def operationSucceeded (logic : QuorumLogic RF Context) : Bool :=
  logic.successNodes.length > RF / 2

end QuorumLogic

end Sopmq
