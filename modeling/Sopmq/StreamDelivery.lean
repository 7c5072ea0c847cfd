import Sopmq.Connection

/-!
# A connection that is cut

A connection on which no message is sent before the message ahead of it is written, and which may
be cut at any byte. The peer reads one message after the other from what has arrived. It reads the
messages that were sent, in their order, as far as their frames are complete, and then the end of
the stream: of a frame that has arrived in part it never makes a message. Only the message whose
write is outstanding can be missing.
-/

namespace Sopmq

open ByteOrder MessageUtil

namespace MessageUtil

/-- A longer stream announces the same type, once its two bytes are
there. -/
theorem announcedType_append (stream more : Bytes) (typed : 2 ≤ stream.length) :
    announcedType (stream ++ more) = announcedType stream := by
  rw [announcedType, announcedType, List.take_append_of_le_length typed]

/-- A longer stream announces the same size, once the header is there. -/
theorem announcedSize_append (stream more : Bytes) (sized : 6 ≤ stream.length) :
    announcedSize (stream ++ more) = announcedSize stream := by
  have header : ∀ bytes : Bytes, (bytes.drop 2).take 4 = (bytes.take 6).drop 2 := by
    intro bytes
    rw [List.drop_take]
  rw [announcedSize, announcedSize, header, header, List.take_append_of_le_length sized]

/-- A stream that ends within a frame is read as the end of the stream.

Proof: what the header announces, as far as it has arrived, is what the
whole frame announces, and the whole frame is read as a message. -/
theorem readMessage_cut (writer reader : Host) (maxSize : UInt32) (message : Acceptable maxSize)
    (arrived missing : Bytes)
    (frame : arrived ++ missing = writeMessage writer message.type message.payload)
    (cut : missing ≠ []) : (readMessage reader maxSize arrived).outcome = .error endOfFile := by
  have whole := readMessage_writeMessage writer reader maxSize message []
  rw [List.append_nil, ← frame, readMessage_eq] at whole
  have shorter : arrived.length < (arrived ++ missing).length := by
    rw [List.length_append]
    exact Nat.lt_add_of_pos_right (List.length_pos_iff.mpr cut)
  split at whole
  · cases whole
  split at whole
  · cases whole
  next typed =>
  split at whole
  · cases whole
  split at whole
  · cases whole
  next fits =>
  split at whole
  · cases whole
  have consumed : (arrived ++ missing).drop
      (6 + (announcedSize (arrived ++ missing)).toNat) = [] := congrArg ReadResult.rest whole
  rw [List.drop_eq_nil_iff] at consumed
  rw [readMessage_eq]
  split
  · rfl
  next long =>
  rw [announcedType_append arrived missing (not_lt.mp long)] at typed
  rw [if_neg typed]
  split
  · rfl
  next sized =>
  rw [announcedSize_append arrived missing (not_lt.mp sized)] at fits consumed
  rw [if_neg fits, if_pos (shorter.trans_le consumed)]

end MessageUtil

namespace Connection

/-- What a peer reads of a message: the code of its type, and its
payload. -/
def content (message : MessageType × Bytes) : UInt16 × Bytes := (message.1.code, message.2)

/-- The messages before the last one are on the socket, and of the last one
what its write has transferred. -/
structure InOrder (host : Host) (connection : Connection) (written : List (MessageType × Bytes))
    (arrived : Bytes) : Prop where
  wire : connection.wire = written.flatMap (frame host) ++ arrived
  last : (connection.sent = written ∧ connection.outstanding = [] ∧ arrived = []) ∨
    ∃ message missing, connection.sent = written ++ [message] ∧
      connection.outstanding = [missing] ∧ arrived ++ missing = frame host message ∧ missing ≠ []

/-- A message that is sent when nothing is outstanding is the last one, and
nothing of it has arrived. -/
theorem InOrder.sendMessage {host : Host} {connection : Connection}
    {written : List (MessageType × Bytes)} {arrived : Bytes}
    (ordered : InOrder host connection written arrived) (idle : connection.outstanding = [])
    (type : MessageType) (messageBuf : Bytes) :
    InOrder host (connection.sendMessage host type messageBuf) written [] := by
  obtain ⟨sent, -, rfl⟩ | ⟨_, _, _, busy, _⟩ := ordered.last
  · refine ⟨ordered.wire, Or.inr
      ⟨(type, messageBuf), frame host (type, messageBuf), ?_, ?_, rfl, ?_⟩⟩
    · rw [Connection.sendMessage, sent]
    · rw [Connection.sendMessage, idle]
      rfl
    · obtain ⟨tail, head⟩ := frame_head host (type, messageBuf)
      rw [head]
      exact List.cons_ne_nil _ _
  · rw [idle] at busy
    cases busy

/-- A step of the write adds to what has arrived of the last message, or
completes it. -/
theorem InOrder.asyncWriteSome {host : Host} {connection after : Connection}
    {written : List (MessageType × Bytes)} {arrived : Bytes}
    (ordered : InOrder host connection written arrived) (write count : Nat)
    (moved : connection.asyncWriteSome write count = some after) :
    ∃ written arrived, InOrder host after written arrived := by
  unfold Connection.asyncWriteSome at moved
  split at moved
  · cases moved
  next remaining found =>
  split at moved
  case isFalse => cases moved
  next bounds =>
  obtain rfl := Option.some.inj moved
  obtain ⟨_, idle, _⟩ | ⟨message, missing, sent, busy, whole, _⟩ := ordered.last
  · rw [idle] at found
    cases found
  · rw [busy] at found
    obtain ⟨rfl, rfl⟩ : write = 0 ∧ missing = remaining := by
      cases write with
      | zero => exact ⟨rfl, Option.some.inj found⟩
      | succ write => cases found
    by_cases all : count = missing.length
    · refine ⟨written ++ [message], [], ⟨?_, Or.inl ⟨sent, ?_, rfl⟩⟩⟩
      · simp [ordered.wire, all, whole]
      · simp [all, busy]
    · refine ⟨written, arrived ++ missing.take count,
        ⟨?_, Or.inr ⟨message, missing.drop count, sent, ?_, ?_, ?_⟩⟩⟩
      · simp [ordered.wire]
      · simp [all, busy]
      · rw [List.append_assoc, List.take_append_drop, whole]
      · rw [Ne, List.drop_eq_nil_iff]
        omega

/-- Every event keeps the messages in order. -/
theorem InOrder.stepWithin {host : Host} {connection after : Connection}
    {written : List (MessageType × Bytes)} {arrived : Bytes}
    (ordered : InOrder host connection written arrived) (event : ConnectionEvent)
    (moved : connection.stepWithin 1 host event = some after) :
    ∃ written arrived, InOrder host after written arrived := by
  cases event with
  | sendMessage type messageBuf =>
    simp only [Connection.stepWithin] at moved
    split at moved
    case isFalse => cases moved
    next fewer =>
    obtain rfl := Option.some.inj moved
    have idle := List.length_eq_zero_iff.mp (Nat.lt_one_iff.mp fewer)
    exact ⟨written, [], ordered.sendMessage idle type messageBuf⟩
  | asyncWriteSome write count => exact ordered.asyncWriteSome write count moved

/-- In every state of a run the messages are in order. -/
theorem exists_inOrder {host : Host} {connection : Connection}
    (reached : Machine.Reaches (stepWithin 1 host) opened connection) :
    ∃ written arrived, InOrder host connection written arrived := by
  refine reached.invariant (fun state => ∃ written arrived, InOrder host state written arrived) ?_
    ⟨[], [], rfl, Or.inl ⟨rfl, rfl, rfl⟩⟩
  rintro before event after ⟨written, arrived, ordered⟩ moved
  exact ordered.stepWithin event moved

/-- A message of the connection that a reader with this limit accepts. All
types have valid codes. -/
def acceptable {maxSize : UInt32} (message : MessageType × Bytes)
    (fits : message.2.length ≤ maxSize.toNat) : Acceptable maxSize where
  type := message.1.code
  payload := message.2
  typed := by cases message.1 <;> decide
  fits := fits

/-- The frames at the front of a stream are read, and then what follows
them. By induction on the messages. -/
theorem readMessages_frames (writer reader : Host) (maxSize : UInt32)
    (messages : List (MessageType × Bytes))
    (fits : ∀ message ∈ messages, message.2.length ≤ maxSize.toNat) (count : Nat) (rest : Bytes) :
    readMessages reader maxSize (messages.length + count)
        (messages.flatMap (frame writer) ++ rest) =
      (messages.map content ++ (readMessages reader maxSize count rest).1,
        (readMessages reader maxSize count rest).2) := by
  induction messages with
  | nil => rw [List.length_nil, Nat.zero_add, List.flatMap_nil, List.nil_append, List.map_nil,
      List.nil_append]
  | cons message later inductionHypothesis =>
    have read := readMessage_writeMessage writer reader maxSize
      (acceptable message (fits message List.mem_cons_self)) (later.flatMap (frame writer) ++ rest)
    rw [List.length_cons, Nat.add_right_comm, List.flatMap_cons, List.append_assoc, readMessages,
      frame]
    simp only [acceptable] at read
    simp only [read, inductionHypothesis fun other member =>
      fits other (List.mem_cons_of_mem _ member), List.map_cons, List.cons_append, content]

/-- A connection that is cut at any byte has delivered the first of the sent
messages, all of them but the one whose write is outstanding: reading on
gives these messages and nothing else, and ends with the end of the
stream. -/
theorem cut_delivers_front (writer reader : Host) (maxSize : UInt32) (connection : Connection)
    (reached : Machine.Reaches (stepWithin 1 writer) opened connection)
    (fits : ∀ message ∈ connection.sent, message.2.length ≤ maxSize.toNat) :
    ∃ written arrived, written <+: connection.sent ∧
      connection.sent.length ≤ written.length + connection.outstanding.length ∧
      readMessages reader maxSize written.length connection.wire =
        (written.map content, arrived) ∧
      (readMessage reader maxSize arrived).outcome = .error endOfFile ∧
      ∀ count, (readMessages reader maxSize (written.length + count) connection.wire).1 =
        written.map content := by
  obtain ⟨written, arrived, wire, last⟩ := exists_inOrder reached
  have front : written <+: connection.sent := by
    obtain ⟨sent, -, -⟩ | ⟨message, _, sent, -⟩ := last
    · rw [sent]
    · exact ⟨[message], sent.symm⟩
  have fewer : connection.sent.length ≤ written.length + connection.outstanding.length := by
    obtain ⟨sent, -, -⟩ | ⟨message, missing, sent, busy, -⟩ := last
    · rw [sent]
      exact Nat.le_add_right _ _
    · rw [sent, busy, List.length_append]
      exact le_rfl
  have ended : (readMessage reader maxSize arrived).outcome = .error endOfFile := by
    obtain ⟨-, -, rfl⟩ | ⟨message, missing, sent, -, whole, cut⟩ := last
    · rfl
    · exact readMessage_cut writer reader maxSize
        (acceptable message (fits message (sent ▸ List.mem_append_right _ List.mem_cons_self)))
        arrived missing whole cut
  have read := fun count => readMessages_frames writer reader maxSize written
    (fun message member => fits message (front.subset member)) count arrived
  refine ⟨written, arrived, front, fewer, ?_, ended, ?_⟩
  · rw [wire]
    simpa [readMessages] using read 0
  · intro count
    rw [wire, read count]
    cases count with
    | zero => exact List.append_nil _
    | succ count =>
      rw [readMessages, ended]
      exact List.append_nil _

/-- Two messages are sent, and the second is cut after its header. The first
is written in two steps. -/
def cutEvents : List ConnectionEvent :=
  [.sendMessage .publish [7, 8], .asyncWriteSome 0 3, .asyncWriteSome 0 5,
    .sendMessage .authAck [9], .asyncWriteSome 0 6]

/-- The connection at that time: one whole frame, and the header of
another. -/
def cutConnection : Connection where
  sent := [(.publish, [7, 8]), (.authAck, [9])]
  wire := [0, 5, 0, 0, 0, 2, 7, 8, 0, 4, 0, 0, 0, 1]
  outstanding := [[9]]

/-- The statement at this run, between hosts of different byte orders: the
first message is read, and then the end. -/
theorem cut_delivers_front_header :
    Machine.run (stepWithin 1 .little) opened cutEvents = some cutConnection ∧
      ∃ written arrived, written <+: cutConnection.sent ∧
        cutConnection.sent.length ≤ written.length + cutConnection.outstanding.length ∧
        readMessages .big 2 written.length cutConnection.wire =
          (written.map content, arrived) ∧
        (readMessage .big 2 arrived).outcome = .error endOfFile ∧
        ∀ count, (readMessages .big 2 (written.length + count) cutConnection.wire).1 =
          written.map content :=
  ⟨rfl, cut_delivers_front .little .big 2 cutConnection
    (Machine.reaches_of_run _ opened _ cutEvents rfl) (by decide)⟩

end Connection

end Sopmq
