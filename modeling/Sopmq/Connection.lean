import Sopmq.Machine
import Sopmq.MessageUtil

/-!
# Frames on a connection

`connection_base::send_message` starts an `async_write` of the frame of a message at
once, also when earlier writes have not completed. `async_write` is a series of
`async_write_some` steps, each of which transfers some of the bytes that are left, and
the steps of several outstanding writes on one socket may alternate.

With one write at a time the socket carries whole frames. With two outstanding writes
it need not: the frames then mix.
-/

namespace Sopmq

/-- A connection: the messages handed to `send_message`, the bytes put on
the socket, and what each outstanding `async_write` has not transferred
yet. -/
structure Connection where
  sent : List (MessageType × Bytes)
  wire : Bytes
  outstanding : List Bytes
deriving Repr

/-- A call of `send_message` with the serialized message, or a step of an
outstanding write that transfers some bytes. -/
inductive ConnectionEvent where
  | sendMessage (type : MessageType) (messageBuf : Bytes)
  | asyncWriteSome (write : Nat) (count : Nat)

namespace Connection

open ByteOrder MessageUtil

/-- A connection on which nothing was sent and nothing is outstanding. -/
def opened : Connection where
  sent := []
  wire := []
  outstanding := []

/-- The frame of a message, as `write_message` makes it. -/
def frame (host : Host) (message : MessageType × Bytes) : Bytes :=
  writeMessage host message.1.code message.2

/-- `connection_base::send_message`: a write of the frame is started,
whether or not others are outstanding. -/
def sendMessage (host : Host) (connection : Connection) (type : MessageType)
    (messageBuf : Bytes) : Connection :=
  { connection with
    sent := connection.sent ++ [(type, messageBuf)]
    outstanding := connection.outstanding ++ [writeMessage host type.code messageBuf] }

/-- A step of an outstanding write, which transfers at least one byte. A
write that has nothing left is complete. -/
def asyncWriteSome (connection : Connection) (write count : Nat) : Option Connection :=
  match connection.outstanding[write]? with
  | none => none
  | some remaining =>
      if 0 < count ∧ count ≤ remaining.length then
        some { connection with
          wire := connection.wire ++ remaining.take count
          outstanding :=
            if count = remaining.length then connection.outstanding.eraseIdx write
            else connection.outstanding.set write (remaining.drop count) }
      else
        none

/-- One event of a connection, with any number of outstanding writes. -/
def step (host : Host) (connection : Connection) : ConnectionEvent → Option Connection
  | .sendMessage type messageBuf => some (connection.sendMessage host type messageBuf)
  | .asyncWriteSome write count => connection.asyncWriteSome write count

/-- The same, when `send_message` is called only while there are fewer
outstanding writes than the limit. -/
def stepWithin (limit : Nat) (host : Host) (connection : Connection) :
    ConnectionEvent → Option Connection
  | .sendMessage type messageBuf =>
      if connection.outstanding.length < limit then
        some (connection.sendMessage host type messageBuf)
      else
        none
  | .asyncWriteSome write count => connection.asyncWriteSome write count

/-- The bytes on the socket are a beginning of whole frames of sent
messages, each of them at most once. -/
def Framed (host : Host) (connection : Connection) : Prop :=
  ∃ whole : List (MessageType × Bytes),
    whole.Subperm connection.sent ∧ connection.wire <+: whole.flatMap (frame host)

/-- With at most one outstanding write, what is on the socket and what is
left of the write are together the frames of the sent messages, in order. -/
structure Serial (host : Host) (connection : Connection) : Prop where
  single : connection.outstanding.length ≤ 1
  whole : connection.wire ++ connection.outstanding.flatten =
    connection.sent.flatMap (frame host)

/-- In such a state the bytes on the socket are a beginning of the frames of
the messages sent. -/
theorem Serial.framed {host : Host} {connection : Connection} (serial : Serial host connection) :
    Framed host connection :=
  ⟨connection.sent, List.Subperm.refl _, serial.whole ▸ List.prefix_append _ _⟩

/-- A message that is sent when nothing is outstanding is the only one
outstanding. -/
theorem Serial.sendMessage {host : Host} {connection : Connection}
    (serial : Serial host connection) (idle : connection.outstanding = []) (type : MessageType)
    (messageBuf : Bytes) : Serial host (connection.sendMessage host type messageBuf) := by
  have whole := serial.whole
  rw [idle, List.flatten_nil, List.append_nil] at whole
  refine ⟨by simp [Connection.sendMessage, idle], ?_⟩
  simp [Connection.sendMessage, idle, whole, frame]

/-- A step transfers the front of what its write has left, and is made by a
write that is outstanding. -/
theorem asyncWriteSome_some (connection after : Connection) (write count : Nat)
    (moved : connection.asyncWriteSome write count = some after) :
    ∃ remaining, connection.outstanding[write]? = some remaining ∧
      after = { connection with
        wire := connection.wire ++ remaining.take count
        outstanding :=
          if count = remaining.length then connection.outstanding.eraseIdx write
          else connection.outstanding.set write (remaining.drop count) } := by
  unfold asyncWriteSome at moved
  split at moved
  · exact absurd moved (by simp)
  · next remaining found =>
    split at moved
    · exact ⟨remaining, found, (Option.some.inj moved).symm⟩
    · exact absurd moved (by simp)

/-- A step of the only outstanding write moves bytes from it to the socket,
so the two together stay the same. -/
theorem Serial.asyncWriteSome {host : Host} {connection after : Connection}
    (serial : Serial host connection) (write count : Nat)
    (moved : connection.asyncWriteSome write count = some after) : Serial host after := by
  obtain ⟨remaining, found, rfl⟩ := connection.asyncWriteSome_some after write count moved
  obtain ⟨bound, rfl⟩ := List.getElem?_eq_some_iff.mp found
  obtain ⟨sent, wire, outstanding⟩ := connection
  obtain ⟨single, whole⟩ := serial
  simp only at bound single whole ⊢
  obtain ⟨remaining, rfl⟩ := List.length_eq_one_iff.mp (by omega : outstanding.length = 1)
  obtain rfl : write = 0 := by simpa using bound
  rw [List.flatten_singleton] at whole
  refine ⟨?_, ?_⟩
  · split <;> simp
  · split
    · next all => simpa [all] using whole
    · simpa using whole

/-- With a limit of one, every event keeps the order of the frames. -/
theorem Serial.stepWithin {host : Host} {connection after : Connection} (limit : Nat)
    (low : limit ≤ 1) (serial : Serial host connection) (event : ConnectionEvent)
    (moved : connection.stepWithin limit host event = some after) : Serial host after := by
  cases event with
  | sendMessage type messageBuf =>
    simp only [Connection.stepWithin] at moved
    split at moved
    · next fewer =>
      cases moved
      exact serial.sendMessage (List.eq_nil_of_length_eq_zero (by omega)) type messageBuf
    · exact absurd moved (by simp)
  | asyncWriteSome write count => exact serial.asyncWriteSome write count moved

/-- The frame of a message starts with a zero byte and the code of its type,
as there are fewer than 256 types. -/
theorem frame_head (host : Host) (message : MessageType × Bytes) :
    ∃ tail, frame host message = 0 :: UInt8.ofNat message.1.code.toNat :: tail := by
  obtain ⟨type, messageBuf⟩ := message
  rw [frame, writeMessage]
  simp only [image_convert]
  cases type <;> exact ⟨_, rfl⟩

/-- No frame starts with two zero bytes, because no type has the code
zero. -/
theorem not_framed_of_zeros (host : Host) (connection : Connection)
    (zeros : connection.wire = [0, 0]) : ¬ Framed host connection := by
  rintro ⟨whole, _, front⟩
  rw [zeros] at front
  cases whole with
  | nil => exact absurd front.length_le (by simp)
  | cons message rest =>
    obtain ⟨tail, head⟩ := frame_head host message
    rw [List.flatMap_cons, head] at front
    have second : (0 : UInt8) = UInt8.ofNat message.1.code.toNat := by
      simpa using front.getElem (i := 1) (by simp)
    revert second
    cases message.1 <;> decide

/-- Two messages are sent, and the first step of each write transfers one
byte. Both bytes are zero. -/
def overlappingEvents : List ConnectionEvent :=
  [.sendMessage .publish [], .sendMessage .publish [], .asyncWriteSome 0 1, .asyncWriteSome 1 1]

/-- The socket carries whole frames in every run of every length and
schedule exactly when there is at most one outstanding write at a time.

Proof: with one write at a time, the socket and the rest of the write make
up the sent frames. With two, the first byte of each of two frames makes two
zero bytes. -/
theorem frames_whole_iff (host : Host) (limit : Nat) :
    (∀ connection, Machine.Reaches (stepWithin limit host) opened connection →
      Framed host connection) ↔ limit ≤ 1 := by
  constructor
  · intro framed
    by_contra high
    have two : 1 < limit := not_le.mp high
    have one : 0 < limit := by omega
    have written : writeMessage host MessageType.publish.code [] = [0, 5, 0, 0, 0, 0] := by
      cases host <;> decide
    have ran : Machine.run (stepWithin limit host) opened overlappingEvents = some
        { sent := [(.publish, []), (.publish, [])]
          wire := [0, 0]
          outstanding := [[5, 0, 0, 0, 0], [5, 0, 0, 0, 0]] } := by
      simp [Machine.run, overlappingEvents, stepWithin, sendMessage, opened, asyncWriteSome, one,
        two, written]
    exact not_framed_of_zeros host _ rfl
      (framed _ (Machine.reaches_of_run _ opened _ overlappingEvents ran))
  · intro low connection reached
    refine (reached.invariant (Serial host) (fun _ event _ serial moved =>
      serial.stepWithin limit low event moved) ⟨by simp [opened], by simp [opened]⟩).framed

/-- What these events leave on the socket is the beginning of no frame. A
reader finds an invalid type. -/
theorem overlapping_sends_mix :
    ∃ connection, Machine.run (step .little) opened overlappingEvents = some connection ∧
      connection.wire = [0, 0] ∧ ¬ Framed .little connection :=
  ⟨_, rfl, rfl, not_framed_of_zeros .little _ rfl⟩

end Connection

end Sopmq
