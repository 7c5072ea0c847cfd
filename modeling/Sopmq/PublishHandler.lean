import Sopmq.LocalNode
import Sopmq.PublishRuns

/-!
# The publish handler and the local node

A publish whose replicas may include the local node. The operation of the local node runs
inside its call, moves the content out of the message that all calls share, and may raise
before it answers.

The quorum logic and the callback are those of `PublishRun`, where the call that a callback
makes is left to the next step. Here it is made before the callback returns, as in the
source, so that an error raised by it passes through the callbacks that are still running.
A callback catches it only if it failed its node inside the `try` block.

`node::operations` has no operations for other nodes yet. They are parameters here: any
implementation that answers a call at most once and reports its errors to the callback.
-/

namespace Sopmq

/-- Whether a catch clause for `std::runtime_error` takes the error. Reading
past the end of a map is not an exception. -/
def LocalError.isRuntimeError : LocalError → Bool
  | .runtime _ => true
  | .ring .endDereferenced => false
  | .ring _ => true

/-- How a call ends. The bound on nested calls of the model is never met, so
`unfinished` does not occur. -/
inductive Outcome where
  | returned
  | raised (error : LocalError)
  | nullDereferenced
  | unfinished
deriving DecidableEq, Repr

namespace Answers

/-- The node answers with a status other than QUEUED, which fails it inside
the `try` block of the callback. -/
def refuses (answers : Answers) (node : Node) : Bool :=
  match answers.reply node with
  | .message response => response.status ≠ .queued
  | .error _ => false

/-- The answers in which the response of the local node is known, for the
callback of its call. -/
def replying (answers : Answers) (response : ProxyPublishResponseMessage) : Answers :=
  { answers with reply := fun _ => .message response }

end Answers

/-- What a publish depends on besides its message: the hash of queue names,
the answers of the other nodes, and the time at which the local node is
called. -/
structure PublishSetting where
  murmurHash3 : String → UInt128
  answers : Answers
  now : Time

/-- A publish with the local node, and the calls of `send_proxy_publish`
made for it, each with the message as it was handed over. -/
structure PublishHandler where
  run : PublishRun
  localNode : LocalNode
  handed : List (Node × PublishMessage)

namespace PublishHandler

/-- The callback of the publish function; `call` makes the call that the
answer leads to. An error that the call raises reaches the catch clauses of
the callback only from inside its `try` block, and there it fails the node
once more. -/
def callback (call : PublishHandler → PublishHandler × Outcome) (answers : Answers)
    (handler : PublishHandler) (node : Node) : PublishHandler × Outcome :=
  let ended := call { handler with run := handler.run.answer answers node }
  match ended.2 with
  | .raised error =>
      if answers.refuses node ∧ error.isRuntimeError then
        call { ended.1 with run := ended.1.run.nodeFailed node }
      else
        ended
  | _ => ended

/-- The call of `send_proxy_publish` on a node is recorded, with the message
as it is at that time. -/
def handTo (handler : PublishHandler) (node : Node) : PublishHandler :=
  { handler with
    run := { handler.run with calling := none }
    handed := handler.handed ++ [(node, handler.run.message)] }

/-- The local operation has run; its effects stay even if it raises. The
message is left without what was moved out of it. -/
def serve (setting : PublishSetting) (handler : PublishHandler) :
    PublishHandler × Except LocalError ProxyPublishResponseMessage :=
  let served := handler.localNode.sendProxyPublish setting.murmurHash3 setting.now
    handler.run.message
  ({ handler with
      localNode := served.1
      run := { handler.run with message := served.2.1 } },
    served.2.2)

/-- Make the call in progress, with everything that it leads to before it
returns. The bound is on the calls inside of calls. -/
def proceed (setting : PublishSetting) (fuel : Nat) (handler : PublishHandler) :
    PublishHandler × Outcome :=
  match handler.run.calling with
  | none => (handler, .returned)
  | some none => (handler, .nullDereferenced)
  | some (some node) =>
      match fuel with
      | 0 => (handler, .unfinished)
      | fuel + 1 =>
          let handler := handler.handTo node
          if node = handler.localNode.self then
            match handler.serve setting with
            | (handler, .error error) => (handler, .raised error)
            | (handler, .ok response) =>
                handler.callback (proceed setting fuel) (setting.answers.replying response) node
          else if setting.answers.inside node then
            handler.callback (proceed setting fuel) setting.answers node
          else
            ({ handler with run := { handler.run with pending := handler.run.pending ++ [node] } },
              .returned)

/-- The call of an iteration of the loop; the given number of iterations is
left. -/
def iterate (iterations : Nat) (handler : PublishHandler) : PublishHandler :=
  { handler with
    run := { handler.run with iterations := iterations }.perform handler.run.logic.callFunction }

/-- The loop of `quorum_logic::run`. An error leaves it, and so does a call
through a null pointer. -/
def loop (setting : PublishSetting) : Nat → PublishHandler → PublishHandler × Outcome
  | 0, handler => (handler, .returned)
  | iterations + 1, handler =>
      let ended := proceed setting 3 (handler.iterate iterations)
      match ended.2 with
      | .returned => loop setting iterations ended.1
      | _ => ended

/-- `quorum_logic::run` entered for the nodes of a quorum, on the local
node. -/
def start (localNode : LocalNode) (message : PublishMessage) (nextId : UInt32)
    (nodes : Fin 3 → Option Node) : PublishHandler where
  run := PublishRun.start message nextId nodes
  localNode := localNode
  handed := []

/-- The UNAVAILABLE response that the handler sends itself, like the fail
function. -/
def refuse (handler : PublishHandler) : PublishHandler :=
  { handler with run := handler.run.perform (handler.run.logic, .failFunction) }

/-- `csauthenticated::handle_post_message`, for the permutation drawn by the
shuffle. Only an `unavailable_error` is caught. -/
def handlePostMessage (setting : PublishSetting) (isAlive : Node → Bool)
    (shuffle : Equiv.Perm (Fin 3)) (wasSuccessful : Bool) (localNode : LocalNode)
    (message : PublishMessage) (nextId : UInt32) : PublishHandler × Outcome :=
  let idle := start localNode message nextId fun _ => none
  if wasSuccessful then
    match localNode.ring.findQuorumForOperation isAlive shuffle
        (setting.murmurHash3 message.queueId) with
    | .error (.unavailable _) => (idle.refuse, .returned)
    | .error error => (idle, .raised (.ring error))
    | .ok nodes =>
        match loop setting (QuorumLogic.runIterations 3) (start localNode message nextId nodes) with
        | (handler, .raised (.ring (.unavailable _))) => (handler.refuse, .returned)
        | ended => ended
  else
    (idle, .returned)

/-- A late answer arrives: its callback runs outside of the handler, when no
call is in progress. -/
def deliver (setting : PublishSetting) (handler : PublishHandler) (node : Node) :
    Option PublishHandler :=
  if handler.run.calling = none ∧ node ∈ handler.run.pending then
    some (callback (proceed setting 3) setting.answers
      { handler with run := { handler.run with pending := handler.run.pending.erase node } } node).1
  else
    none

end PublishHandler

end Sopmq
