import Mathlib.Data.List.OfFn
import Sopmq.Machine
import Sopmq.Messages
import Sopmq.QuorumLogic

/-!
# Publishing through a quorum

`csauthenticated::handle_post_message` finds the quorum of the message's queue
and runs the publish function over it. A node may answer inside the call of its
operations or later, after the handler has returned. Every callback ends with the
call it makes, so a state between two steps is described by the loop iterations
left, the call being made, the calls whose answers are still to come, and what has
happened so far.

The answers of the nodes are a parameter, and so are the values the source leaves
open: the content of an array that is not initialised before a network clock is
read into it, and what is read past the end of the stored clocks. Every issued call
answers at most once, through its callback. A call through a null pointer ends the
run. Logging is left out.
-/

namespace Sopmq

/-- What the nodes answer when they are asked, and when: inside the call or
later. The last two fields are the values that the source leaves open. -/
structure Answers where
  reply : Node → OperationResult ProxyPublishResponseMessage
  inside : Node → Bool
  storage : Node → VectorClock 3
  stray : VectorClock 3

/-- What happens in the course of a publish, in the order of the trace. -/
inductive Effect where
  | publish (node : Option Node)
  | answer (node : Node)
  | combine (clocks : List (VectorClock 3))
  | stamp (nodes : List (Option Node)) (maxClock : VectorClock 3)
  | respond (response : PublishResponseMessage)

/-- A publish in progress: its message, the quorum logic, what is being
called and awaited, and the trace. -/
structure PublishRun where
  message : PublishMessage
  logic : QuorumLogic 3 (List (VectorClock 3))
  iterations : Nat
  calling : Option (Option Node)
  pending : List Node
  nextId : UInt32
  trace : List Effect

/-- The response of the fail function, in reply to the message. -/
def unavailableResponse (id : UInt32) (message : PublishMessage) : PublishResponseMessage where
  identity := ⟨id, message.identity.id⟩
  status := .unavailable

namespace PublishRun

/-- `quorum_logic::run` entered for the nodes of a quorum. Nothing has been
called, and no clock is stored. -/
def start (message : PublishMessage) (nextId : UInt32) (nodes : Fin 3 → Option Node) :
    PublishRun where
  message := message
  logic := QuorumLogic.create [] nodes
  iterations := QuorumLogic.runIterations 3
  calling := none
  pending := []
  nextId := nextId
  trace := []

/-- Put an effect at the end of the trace. -/
def log (run : PublishRun) (effect : Effect) : PublishRun :=
  { run with trace := run.trace ++ [effect] }

/-- Make a call of the quorum logic: the publish function asks the node, the
fail function sends its response under the next identifier of the
connection. -/
def perform (run : PublishRun)
    (made : QuorumLogic 3 (List (VectorClock 3)) × QuorumLogic.Call) : PublishRun :=
  match made.2 with
  | .function node =>
      { run with
        logic := made.1
        calling := some node
        trace := run.trace ++ [.publish node] }
  | .failFunction =>
      { run with
        logic := made.1
        nextId := run.nextId + 1
        trace := run.trace ++ [.respond (unavailableResponse (run.nextId + 1) run.message)] }

/-- The call of `node_success` by the callback. -/
def nodeSuccess (run : PublishRun) (node : Node) : PublishRun :=
  { run with logic := run.logic.nodeSuccess (some node) }

/-- The call of `node_failed` by the callback, with the call that follows
from it. -/
def nodeFailed (run : PublishRun) (node : Node) : PublishRun :=
  run.perform (run.logic.nodeFailed (some node))

/-- Store a clock in the context of the quorum logic, behind those that are
there. -/
def pushClock (run : PublishRun) (clock : VectorClock 3) : PublishRun :=
  { run with logic := { run.logic with ctx := run.logic.ctx ++ [clock] } }

/-- `do_stamp_message`, whose body is empty. The trace has its arguments. -/
def doStampMessage (run : PublishRun) (maxClock : VectorClock 3) : PublishRun :=
  run.log (.stamp run.logic.successNodes maxClock)

/-- The branch of the callback that combines the clocks of a quorum, which
are the first two that are stored. Different nodes in them raise. -/
def combine (answers : Answers) (run : PublishRun) (node : Node) : PublishRun :=
  let clocks := run.logic.ctx
  let run := run.log (.combine clocks)
  match VectorClock.max (clocks[0]?.getD answers.stray) (clocks[1]?.getD answers.stray) with
  | .error _ => run.nodeFailed node
  | .ok maxClock => run.doStampMessage maxClock

/-- The callback of the publish function. An error raised in it is caught
there and fails the node. -/
def answer (answers : Answers) (run : PublishRun) (node : Node) : PublishRun :=
  let run := run.log (.answer node)
  match answers.reply node with
  | .error _ => run.nodeFailed node
  | .message response =>
      if response.status = .queued then
        let run := run.nodeSuccess node
        match VectorClock.ofMessage (answers.storage node) response.clock with
        | .error _ => run.nodeFailed node
        | .ok clock =>
            let run := run.pushClock clock
            if run.logic.operationSucceeded then run.combine answers node else run
      else
        run.nodeFailed node

/-- The program proceeds to its next call or return, or a late answer
arrives. -/
inductive Event where
  | advance
  | deliver (node : Node)
deriving DecidableEq, Repr

/-- One step of the publish. A late answer arrives when nothing else runs,
which is when the loop is over. -/
def step (answers : Answers) (run : PublishRun) : Event → Option PublishRun
  | .advance =>
      match run.calling with
      | some none => none
      | some (some node) =>
          if answers.inside node then
            some ({ run with calling := none }.answer answers node)
          else
            some { run with calling := none, pending := run.pending ++ [node] }
      | none =>
          if run.iterations = 0 then none
          else some ({ run with iterations := run.iterations - 1 }.perform run.logic.callFunction)
  | .deliver node =>
      if run.calling = none ∧ run.iterations = 0 ∧ node ∈ run.pending then
        some ({ run with pending := run.pending.erase node }.answer answers node)
      else none

/-- How the handler ends: it ignores a failed read, refuses the publish, or
enters the quorum logic. -/
inductive Handling where
  | ignored
  | refused (response : PublishResponseMessage)
  | started (run : PublishRun)

/-- `csauthenticated::handle_post_message`, for the permutation drawn by the
shuffle. Only an `unavailable_error` is caught. -/
def handlePostMessage (murmurHash3 : String → UInt128) (ring : Ring) (isAlive : Node → Bool)
    (shuffle : Equiv.Perm (Fin 3)) (wasSuccessful : Bool) (message : PublishMessage)
    (nextId : UInt32) : Except RingError Handling :=
  if wasSuccessful then
    match ring.findQuorumForOperation isAlive shuffle (murmurHash3 message.queueId) with
    | .ok nodes => .ok (.started (start message nextId nodes))
    | .error (.unavailable _) => .ok (.refused (unavailableResponse (nextId + 1) message))
    | .error error => .error error
  else
    .ok .ignored

/-- The node pointers passed to the publish function, in order, null ones
included. -/
def published (run : PublishRun) : List (Option Node) :=
  run.trace.filterMap fun
    | .publish node => some node
    | _ => none

/-- The nodes whose answers have been handled, in order of arrival. -/
def answered (run : PublishRun) : List Node :=
  run.trace.filterMap fun
    | .answer node => some node
    | _ => none

/-- The stored clocks at each time that two of them were combined. -/
def combines (run : PublishRun) : List (List (VectorClock 3)) :=
  run.trace.filterMap fun
    | .combine clocks => some clocks
    | _ => none

/-- The responses sent to the client, in order. All of them come from the
fail function. -/
def responses (run : PublishRun) : List PublishResponseMessage :=
  run.trace.filterMap fun
    | .respond response => some response
    | _ => none

/-- The number of UNAVAILABLE responses sent to the client. -/
def refusals (run : PublishRun) : Nat :=
  run.responses.countP fun response => response.status = .unavailable

/-- The number of calls of `do_stamp_message`, each for a combination that
did not raise. -/
def stamps (run : PublishRun) : Nat :=
  run.trace.countP fun
    | .stamp _ _ => true
    | _ => false

/-- All issued calls have answered and nothing is left to run. -/
def Settled (run : PublishRun) : Prop :=
  run.calling = none ∧ run.iterations = 0 ∧ run.pending = []

end PublishRun

namespace Answers

variable (answers : Answers) (node : Node)

/-- The node answers with status QUEUED, whatever its clock. -/
def queued : Bool :=
  match answers.reply node with
  | .message response => response.status = .queued
  | .error _ => false

/-- The clock that the node's answer adds to the context, if it is a
success. -/
def clockOf : Option (VectorClock 3) :=
  match answers.reply node with
  | .message response =>
      if response.status = .queued then
        (VectorClock.ofMessage (answers.storage node) response.clock).toOption
      else none
  | .error _ => none

/-- An answer that adds a clock has status QUEUED. -/
theorem queued_of_clockOf (clock : VectorClock 3) (given : answers.clockOf node = some clock) :
    answers.queued node = true := by
  unfold clockOf at given
  unfold queued
  split at given
  · split at given
    · next accepted => simp [accepted]
    · cases given
  · cases given

/-- The node's answer is a success: its status is QUEUED and its clock is
readable. -/
def succeeds : Bool := (answers.clockOf node).isSome

/-- An answer that adds a clock is a success. -/
theorem succeeds_of_clockOf (clock : VectorClock 3) (given : answers.clockOf node = some clock) :
    answers.succeeds node = true := by
  rw [succeeds, given, Option.isSome_some]

/-- An answer that adds no clock is none. -/
theorem fails_of_clockOf (refused : answers.clockOf node = none) :
    answers.succeeds node = false := by
  rw [succeeds, refused, Option.isSome_none]

/-- A success has status QUEUED. -/
theorem queued_of_succeeds (success : answers.succeeds node = true) :
    answers.queued node = true := by
  obtain ⟨clock, given⟩ := Option.isSome_iff_exists.mp success
  exact answers.queued_of_clockOf node clock given

/-- The node answers inside its call, and not with a success. Then the
failure comes before the loop goes on. -/
def rejectsInside : Bool := answers.inside node && !answers.succeeds node

end Answers

namespace PublishRun

variable (answers : Answers) (run : PublishRun) (node : Node)

/-- The callback by the kind of answer: one that is no success fails the
node, after counting it among the successful ones if its status is
QUEUED. -/
theorem answer_eq : run.answer answers node =
    match answers.clockOf node with
    | none =>
        (if answers.queued node then (run.log (.answer node)).nodeSuccess node
          else run.log (.answer node)).nodeFailed node
    | some clock =>
        if 1 ≤ run.logic.successNodes.length then
          (((run.log (.answer node)).nodeSuccess node).pushClock clock).combine answers node
        else ((run.log (.answer node)).nodeSuccess node).pushClock clock := by
  have counted : ∀ clock, (((run.log (.answer node)).nodeSuccess node).pushClock
      clock).logic.operationSucceeded = decide (1 ≤ run.logic.successNodes.length) := by
    intro clock
    simp only [QuorumLogic.operationSucceeded, pushClock, nodeSuccess, QuorumLogic.nodeSuccess, log,
      List.length_append, List.length_singleton, decide_eq_decide]
    omega
  unfold answer Answers.clockOf Answers.queued
  cases answers.reply node with
  | error what => rfl
  | message response =>
    by_cases accepted : response.status = .queued
    · simp only [accepted, if_true, decide_true]
      cases VectorClock.ofMessage (answers.storage node) response.clock with
      | error what => rfl
      | ok clock => simp only [Except.toOption, counted, decide_eq_true_eq]
    · simp [accepted]

/-- A failure while the index has not passed the second slot and no node has
failed before tries the next slot; every other failure ends in a
response. -/
theorem nodeFailed_eq : run.nodeFailed node =
    if run.logic.failedNodes.length = 0 ∧ run.logic.lastNode < 2 then
      { run with
        logic := { run.logic with
          failedNodes := run.logic.failedNodes ++ [some node]
          lastNode := run.logic.lastNode + 1 }
        calling := some run.logic.nextNode
        trace := run.trace ++ [.publish run.logic.nextNode] }
    else
      { run with
        logic := { run.logic with failedNodes := run.logic.failedNodes ++ [some node] }
        nextId := run.nextId + 1
        trace := run.trace ++ [.respond (unavailableResponse (run.nextId + 1) run.message)] } := by
  have continues : QuorumLogic.canContinue
      { run.logic with failedNodes := run.logic.failedNodes ++ [some node] } = true ↔
        run.logic.failedNodes.length = 0 ∧ run.logic.lastNode < 2 := by
    rw [QuorumLogic.canContinue_iff]
    simp only [List.length_append, List.length_singleton]
    omega
  unfold nodeFailed QuorumLogic.nodeFailed
  simp only [continues]
  split
  · rfl
  · rfl

end PublishRun

end Sopmq
