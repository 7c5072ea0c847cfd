import Sopmq.ByteOrder
import Sopmq.Messages

/-!
# Framing of messages

`messageutil::write_message` puts a message on the wire as its type in two bytes, the
size of its serialization in four, both in network order, and the serialization.
`messageutil::read_message` reads the three parts one after the other, and checks the
type and the size before it goes on.

A read is a function of the bytes that the socket still delivers; the bytes are
followed by the end of the stream. `async_read` transfers a whole buffer or fails with
the end of the stream, and `async_write` transfers its buffers in order. The
serialization of a message is opaque. Writer and reader may be hosts of different byte
orders.
-/

namespace Sopmq

namespace MessageUtil

open ByteOrder

/-- The bytes that `messageutil::write_message` hands to `async_write`: the
header and the serialized message. -/
def writeMessage (host : Host) (type : UInt16) (messageBuf : Bytes) : Bytes :=
  let netId := convert host 2 type.toNat
  let netSize := convert host 4 (UInt32.ofNat messageBuf.length).toNat
  image host 2 netId ++ image host 4 netSize ++ messageBuf

/-- `boost::asio::error::eof`, by its text. It is the only error of the
network here. -/
def endOfFile : NetworkOperationResult := .fromErrorCode "End of file"

/-- `boost::asio::async_read` into a buffer: the buffer and what the socket
delivers after it, or nothing when the stream ends before the buffer is
full. -/
def asyncRead (stream : Bytes) (size : Nat) : Option (Bytes × Bytes) :=
  if size ≤ stream.length then some (stream.take size, stream.drop size) else none

/-- What a read hands on: an error to `on_read_error`, or a type and a
buffer to `switch_dispatch`. -/
inductive ReadOutcome where
  | error (result : NetworkOperationResult)
  | content (type : UInt16) (messageBuffer : Bytes)
deriving DecidableEq, Repr

/-- A finished read: its outcome, the size of the payload buffer if one was
allocated, and the bytes it left on the socket. -/
structure ReadResult where
  outcome : ReadOutcome
  allocated : Option UInt32
  rest : Bytes
deriving DecidableEq, Repr

/-- `messageutil::after_read_message_size` and, when the payload has
arrived, `messageutil::after_read_message_content`. -/
def afterReadMessageSize (maxMessageSize : UInt32) (type : UInt16) (messageSize : UInt32)
    (stream : Bytes) : ReadResult :=
  if messageSize > maxMessageSize then
    { outcome := .error ⟨.invalidType, "Message was too large"⟩
      allocated := none
      rest := stream }
  else
    match asyncRead stream messageSize.toNat with
    | none => { outcome := .error endOfFile, allocated := some messageSize, rest := [] }
    | some (buffer, rest) =>
        { outcome := .content type buffer, allocated := some messageSize, rest := rest }

/-- `messageutil::after_read_message_type`, with `netutil::read_u32`. The
type is checked before anything more is read. -/
def afterReadMessageType (host : Host) (maxMessageSize : UInt32) (messageType : UInt16)
    (stream : Bytes) : ReadResult :=
  if messageType ≤ MessageType.invalid ∨ messageType ≥ MessageType.invalidOutOfRange then
    { outcome := .error ⟨.invalidType, "Message type " ++ toString messageType ++ " is invalid"⟩
      allocated := none
      rest := stream }
  else
    match asyncRead stream 4 with
    | none => { outcome := .error endOfFile, allocated := none, rest := [] }
    | some (buffer, rest) =>
        afterReadMessageSize maxMessageSize messageType
          (UInt32.ofNat (convert host 4 (load host buffer))) rest

/-- `messageutil::read_message`, with `netutil::read_u16`. It takes the
limit on the size with it through all its parts. -/
def readMessage (host : Host) (maxSize : UInt32) (stream : Bytes) : ReadResult :=
  match asyncRead stream 2 with
  | none => { outcome := .error endOfFile, allocated := none, rest := [] }
  | some (buffer, rest) =>
      afterReadMessageType host maxSize (UInt16.ofNat (convert host 2 (load host buffer))) rest

/-- The first two bytes of a stream, in network order. This says what a read
should take for the type. -/
def announcedType (stream : Bytes) : UInt16 := UInt16.ofNat (load .big (stream.take 2))

/-- The four bytes after them, in network order. This says what a read
should take for the size. -/
def announcedSize (stream : Bytes) : UInt32 := UInt32.ofNat (load .big ((stream.drop 2).take 4))

/-- The bytes after the header, as many as announced, or all if there are
fewer. -/
def announcedPayload (stream : Bytes) : Bytes :=
  (stream.drop 6).take (announcedSize stream).toNat

/-- A number of `read_message` calls, each after the message before it: the
messages read before the first error, and the bytes left on the socket. -/
def readMessages (host : Host) (maxSize : UInt32) : Nat → Bytes → List (UInt16 × Bytes) × Bytes
  | 0, stream => ([], stream)
  | count + 1, stream =>
      match (readMessage host maxSize stream).outcome with
      | .error _ => ([], (readMessage host maxSize stream).rest)
      | .content type buffer =>
          let later := readMessages host maxSize count (readMessage host maxSize stream).rest
          ((type, buffer) :: later.1, later.2)

/-- A message that a reader with this limit accepts: one of the valid types,
and a serialization that fits. -/
structure Acceptable (maxSize : UInt32) where
  type : UInt16
  payload : Bytes
  typed : 1 ≤ type ∧ type ≤ 12
  fits : payload.length ≤ maxSize.toNat

/-- A read of as many bytes as the front has takes the front, and leaves the
rest. -/
theorem asyncRead_append (front back : Bytes) (size : Nat) (full : front.length = size) :
    asyncRead (front ++ back) size = some (front, back) := by
  subst full
  simp [asyncRead]

/-- The two bytes of a type are read back as the type, between hosts of any
byte orders. -/
theorem read_type (writer reader : Host) (type : UInt16) :
    UInt16.ofNat (convert reader 2 (load reader (image writer 2 (convert writer 2 type.toNat)))) =
      type := by
  have small := type.toNat_lt
  rw [convert_load_image, Nat.mod_eq_of_lt (by omega), UInt16.ofNat_toNat]

/-- So are the four bytes of a size, between hosts of any byte orders. -/
theorem read_size (writer reader : Host) (size : UInt32) :
    UInt32.ofNat (convert reader 4 (load reader (image writer 4 (convert writer 4 size.toNat)))) =
      size := by
  have small := size.toNat_lt
  rw [convert_load_image, Nat.mod_eq_of_lt (by omega), UInt32.ofNat_toNat]

/-- The check of `after_read_message_type` refuses exactly the types that
are not among the twelve of `message_type`. -/
theorem refused_iff (type : UInt16) :
    type ≤ MessageType.invalid ∨ type ≥ MessageType.invalidOutOfRange ↔
      ¬ (1 ≤ type ∧ type ≤ 12) := by
  simp only [MessageType.invalid, MessageType.invalidOutOfRange, UInt16.le_iff_toNat_le,
    ge_iff_le]
  simp
  omega

/-- A written message is read back, whatever follows it, and nothing of what
follows is consumed. -/
theorem readMessage_writeMessage (writer reader : Host) (maxSize : UInt32)
    (message : Acceptable maxSize) (rest : Bytes) :
    readMessage reader maxSize (writeMessage writer message.type message.payload ++ rest) =
      { outcome := .content message.type message.payload
        allocated := some (UInt32.ofNat message.payload.length)
        rest := rest } := by
  obtain ⟨type, payload, typed, fits⟩ := message
  have small := maxSize.toNat_lt
  have size : (UInt32.ofNat payload.length).toNat = payload.length := by
    rw [UInt32.toNat_ofNat', Nat.mod_eq_of_lt (by omega)]
  have valid : ¬ (type ≤ MessageType.invalid ∨ type ≥ MessageType.invalidOutOfRange) := by
    rw [refused_iff, not_not]
    exact typed
  have accepted : ¬ UInt32.ofNat payload.length > maxSize := by
    rw [gt_iff_lt, UInt32.lt_iff_toNat_lt, size]
    omega
  simp only [writeMessage, List.append_assoc]
  rw [readMessage, asyncRead_append _ _ 2 (image_length _ _ _)]
  simp only [read_type, afterReadMessageType, if_neg valid]
  rw [asyncRead_append _ _ 4 (image_length _ _ _)]
  simp only [read_size, afterReadMessageSize, if_neg accepted]
  rw [asyncRead_append _ _ _ size.symm]

/-- Messages written one after the other are read back one after the other,
and what follows them is left. By induction on the messages. -/
theorem readMessages_written (writer reader : Host) (maxSize : UInt32)
    (messages : List (Acceptable maxSize)) (rest : Bytes) :
    readMessages reader maxSize messages.length
        (messages.flatMap (fun message => writeMessage writer message.type message.payload) ++
          rest) =
      (messages.map (fun message => (message.type, message.payload)), rest) := by
  induction messages with
  | nil => rfl
  | cons message later inductionHypothesis =>
    rw [List.flatMap_cons, List.append_assoc, List.length_cons, readMessages,
      readMessage_writeMessage]
    simp only [inductionHypothesis, List.map_cons]

/-- A read by the announced parts of the stream. The byte order of the host
does not matter. -/
theorem readMessage_eq (host : Host) (maxSize : UInt32) (stream : Bytes) :
    readMessage host maxSize stream =
      if stream.length < 2 then ⟨.error endOfFile, none, []⟩
      else if announcedType stream ≤ MessageType.invalid ∨
          announcedType stream ≥ MessageType.invalidOutOfRange then
        ⟨.error ⟨.invalidType, "Message type " ++ toString (announcedType stream) ++ " is invalid"⟩,
          none, stream.drop 2⟩
      else if stream.length < 6 then ⟨.error endOfFile, none, []⟩
      else if announcedSize stream > maxSize then
        ⟨.error ⟨.invalidType, "Message was too large"⟩, none, stream.drop 6⟩
      else if stream.length < 6 + (announcedSize stream).toNat then
        ⟨.error endOfFile, some (announcedSize stream), []⟩
      else
        ⟨.content (announcedType stream) (announcedPayload stream), some (announcedSize stream),
          stream.drop (6 + (announcedSize stream).toNat)⟩ := by
  by_cases untyped : stream.length < 2
  · rw [if_pos untyped, readMessage, asyncRead, if_neg (not_le.mpr untyped)]
  have type : convert host 2 (load host (stream.take 2)) = load .big (stream.take 2) :=
    convert_load_of_length host _ 2 (List.length_take_of_le (not_lt.mp untyped))
  rw [if_neg untyped, readMessage, asyncRead, if_pos (not_lt.mp untyped)]
  simp only [type]
  rw [← announcedType, afterReadMessageType]
  split
  · rfl
  by_cases unsized : stream.length < 6
  · rw [if_pos unsized, asyncRead, if_neg (by rw [List.length_drop]; omega)]
  have size : convert host 4 (load host ((stream.drop 2).take 4)) =
      load .big ((stream.drop 2).take 4) :=
    convert_load_of_length host _ 4 (List.length_take_of_le (by rw [List.length_drop]; omega))
  rw [if_neg unsized, asyncRead, if_pos (by rw [List.length_drop]; omega)]
  simp only [size]
  rw [← announcedSize, afterReadMessageSize, List.drop_drop]
  split
  · rfl
  rw [asyncRead, List.length_drop]
  by_cases incomplete : stream.length < 6 + (announcedSize stream).toNat
  · rw [if_pos incomplete, if_neg (by omega)]
  · rw [if_neg incomplete, if_pos (by omega), announcedPayload, List.drop_drop]

/-- The ways a read ends, by the parts that the stream announces. The
conditions exclude each other, so that a stream fixes the way, the outcome,
the buffer and what is left. -/
inductive ReadEnds (maxSize : UInt32) (stream : Bytes) : ReadResult → Prop
  /-- The stream ends before the two bytes of the type. -/
  | untyped (short : stream.length < 2) : ReadEnds maxSize stream ⟨.error endOfFile, none, []⟩
  /-- The two bytes of the type are consumed, and the type is not one of the
  twelve. -/
  | afterType (typed : 2 ≤ stream.length)
      (invalid : ¬ (1 ≤ announcedType stream ∧ announcedType stream ≤ 12)) :
      ReadEnds maxSize stream
        ⟨.error ⟨.invalidType, "Message type " ++ toString (announcedType stream) ++ " is invalid"⟩,
          none, stream.drop 2⟩
  /-- The stream ends before the four bytes of the size. -/
  | unsized (typed : 2 ≤ stream.length)
      (valid : 1 ≤ announcedType stream ∧ announcedType stream ≤ 12)
      (short : stream.length < 6) : ReadEnds maxSize stream ⟨.error endOfFile, none, []⟩
  /-- The six bytes of the header are consumed, and the size exceeds the
  limit. -/
  | afterSize (sized : 6 ≤ stream.length)
      (valid : 1 ≤ announcedType stream ∧ announcedType stream ≤ 12)
      (large : maxSize < announcedSize stream) :
      ReadEnds maxSize stream
        ⟨.error ⟨.invalidType, "Message was too large"⟩, none, stream.drop 6⟩
  /-- A buffer of the announced size is allocated, and the stream ends
  before it is full. -/
  | incomplete (sized : 6 ≤ stream.length)
      (valid : 1 ≤ announcedType stream ∧ announcedType stream ≤ 12)
      (bounded : announcedSize stream ≤ maxSize)
      (short : stream.length < 6 + (announcedSize stream).toNat) :
      ReadEnds maxSize stream ⟨.error endOfFile, some (announcedSize stream), []⟩
  /-- The header and the announced payload are consumed, and nothing after
  them. -/
  | message (valid : 1 ≤ announcedType stream ∧ announcedType stream ≤ 12)
      (bounded : announcedSize stream ≤ maxSize)
      (complete : 6 + (announcedSize stream).toNat ≤ stream.length) :
      ReadEnds maxSize stream
        ⟨.content (announcedType stream) (announcedPayload stream), some (announcedSize stream),
          stream.drop (6 + (announcedSize stream).toNat)⟩

/-- Every read ends in one of these ways, on whatever the socket delivers.
The cases are those of `readMessage_eq`, in their order. -/
theorem readMessage_ends (host : Host) (maxSize : UInt32) (stream : Bytes) :
    ReadEnds maxSize stream (readMessage host maxSize stream) := by
  rw [readMessage_eq]
  split
  · next untyped => exact .untyped untyped
  next typed =>
  rw [not_lt] at typed
  split
  · next invalid => exact .afterType typed ((refused_iff _).mp invalid)
  next accepted =>
  rw [refused_iff, not_not] at accepted
  split
  · next unsized => exact .unsized typed accepted unsized
  next sized =>
  rw [not_lt] at sized
  split
  · next large => exact .afterSize sized accepted large
  next fits =>
  have bounded := UInt32.not_lt.mp fits
  split
  · next incomplete => exact .incomplete sized accepted bounded incomplete
  next complete => exact .message accepted bounded (not_lt.mp complete)

/-- No payload buffer is larger than the limit, whatever size the stream
announces. -/
theorem readMessage_allocated (host : Host) (maxSize : UInt32) (stream : Bytes) (size : UInt32)
    (allocated : (readMessage host maxSize stream).allocated = some size) : size ≤ maxSize := by
  have ends := readMessage_ends host maxSize stream
  generalize readMessage host maxSize stream = result at ends allocated
  cases ends with
  | incomplete _ _ bounded _ => exact Option.some.inj allocated ▸ bounded
  | message _ bounded _ => exact Option.some.inj allocated ▸ bounded
  | untyped | afterType | unsized | afterSize => cases allocated

/-- Framing is a round trip: messages written one after the other are read
back, and the stream is consumed exactly. Every read of an arbitrary stream
ends as its header announces, and never allocates more than the limit. -/
theorem framing_round_trip :
    (∀ (writer reader : Host) (maxSize : UInt32) (messages : List (Acceptable maxSize)),
      readMessages reader maxSize messages.length
          (messages.flatMap fun message => writeMessage writer message.type message.payload) =
        (messages.map fun message => (message.type, message.payload), [])) ∧
    ∀ (host : Host) (maxSize : UInt32) (stream : Bytes),
      ReadEnds maxSize stream (readMessage host maxSize stream) ∧
        ∀ size, (readMessage host maxSize stream).allocated = some size → size ≤ maxSize := by
  refine ⟨fun writer reader maxSize messages => ?_, fun host maxSize stream =>
    ⟨readMessage_ends host maxSize stream, readMessage_allocated host maxSize stream⟩⟩
  simpa using readMessages_written writer reader maxSize messages []

example : writeMessage .little 5 [7, 8] = [0, 5, 0, 0, 0, 2, 7, 8] := by decide

end MessageUtil

end Sopmq
