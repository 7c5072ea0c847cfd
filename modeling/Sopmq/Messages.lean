import Sopmq.Basic
import Sopmq.VectorClock

/-!
# Messages

The types of messages, the protobuf messages that a publish exchanges, with the
fields that the modelled functions read or set, and the results of operations on
nodes and on the network. An unset status reads as the first value of its
enumeration.
-/

namespace Sopmq

/-- `message_type`, without its two bounds. The order is that of the source,
which fixes the codes. -/
inductive MessageType where
  | getChallenge
  | challengeResponse
  | answerChallenge
  | authAck
  | publish
  | publishResponse
  | consumeFromQueue
  | consumeResponse
  | gossip
  | proxyPublish
  | proxyPublishResponse
  | stamp
deriving DecidableEq, Repr

namespace MessageType

/-- `MT_INVALID`, the lower bound, which is no type of a message. -/
def invalid : UInt16 := 0

/-- `MT_INVALID_OUT_OF_RANGE`, the upper bound, which is no type of a
message. -/
def invalidOutOfRange : UInt16 := 13

/-- The value of the enumeration, as it stands in the header of a frame. -/
def code : MessageType → UInt16
  | getChallenge => 1
  | challengeResponse => 2
  | answerChallenge => 3
  | authAck => 4
  | publish => 5
  | publishResponse => 6
  | consumeFromQueue => 7
  | consumeResponse => 8
  | gossip => 9
  | proxyPublish => 10
  | proxyPublishResponse => 11
  | stamp => 12

end MessageType

/-- `error_type` of a network operation. A message that is too large is
reported under `invalidType`, and nothing is reported under `tooLarge`. -/
inductive ErrorType where
  | none
  | timeout
  | network
  | parse
  | invalidType
  | tooLarge
deriving DecidableEq, Repr

/-- `network_operation_result`: the type of the error and the text of its
`network_error`. -/
structure NetworkOperationResult where
  errorType : ErrorType
  what : String
deriving DecidableEq, Repr

namespace NetworkOperationResult

/-- `network_operation_result::from_error_code`, for the text of the code.
The type is that of network errors. -/
def fromErrorCode (message : String) : NetworkOperationResult := ⟨.network, message⟩

end NetworkOperationResult

/-- The `Identifier` message: the number of a message, and of the one it
replies to, or zero. -/
structure Identifier where
  id : UInt32
  inReplyTo : UInt32
deriving DecidableEq, Repr

/-- The `PublishMessage` of a client. Its flags are not read by the modelled
functions. -/
structure PublishMessage where
  identity : Identifier
  messageId : Bytes
  queueId : String
  ttl : UInt32
  content : Bytes
deriving DecidableEq, Repr

/-- A publish of one byte to a queue, with an identifier of sixteen bytes.
Runs on fixed inputs use it, and change the field that matters to them. -/
def PublishMessage.sample : PublishMessage where
  identity := ⟨7, 0⟩
  messageId := List.replicate 16 1
  queueId := "queue"
  ttl := 60
  content := [1]

/-- `PublishResponseMessage::Status`, in the order of its values. -/
inductive PublishStatus where
  | piped
  | stored
  | dropped
  | notAuth
  | unavailable
deriving DecidableEq, Repr

/-- The `PublishResponseMessage` to a client, with the status of its
publish. -/
structure PublishResponseMessage where
  identity : Identifier
  status : PublishStatus
deriving DecidableEq, Repr

/-- `ProxyPublishResponseMessage::Status`, in the order of its values. -/
inductive ProxyPublishStatus where
  | notAuth
  | notHere
  | queued
deriving DecidableEq, Repr

/-- The `ProxyPublishResponseMessage` of a node. The status may be unset,
and the clock is that of the replicas. -/
structure ProxyPublishResponseMessage where
  identity : Identifier
  statusField : Option ProxyPublishStatus
  clock : VectorClockMessage
deriving DecidableEq, Repr

/-- The accessor of the status, which gives the first value if none was
set. -/
def ProxyPublishResponseMessage.status (response : ProxyPublishResponseMessage) :
    ProxyPublishStatus :=
  response.statusField.getD .notAuth

/-- `operation_result`: a message, or an error that `rethrow_error` raises
in its place. -/
inductive OperationResult (Message : Type) where
  | message (message : Message)
  | error (what : String)
deriving DecidableEq, Repr

end Sopmq
