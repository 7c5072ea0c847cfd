import Mathlib.Data.List.TakeWhile
import Sopmq.AuthenticatedSession

/-!
# The callbacks of a client's publishes

Each call of `publish_message` has a callback, which is to be told what became of the message. The
handler of the response is registered under the identifier of the message once the message has been
written. A response calls the handler that it names, and a failed read calls all of them.

Over any run a callback is called once at most. The status that it is given is that of a response
to its own message. A message that could not be written has no handler, and its callback is never
called.
-/

namespace Sopmq

namespace AuthenticatedSession

/-- The handlers of responses, by the numbers of their publishes. -/
def registered (session : AuthenticatedSession) : List Nat :=
  ((session.dispatcher.handlers .publishResponse).entries.map Prod.snd).filterMap id

/-- The numbers of the publishes whose messages are being written. -/
def writing (session : AuthenticatedSession) : List Nat := session.writes.map Prod.fst

/-- The numbers of the publishes whose callbacks have been called, in the
order of the calls. -/
def told (session : AuthenticatedSession) : List Nat := session.callbacks.map Prod.fst

/-- The call carries a network error, or the status of a response to the
message that was received. -/
def Justified (session : AuthenticatedSession) (message : PublishMessage)
    (status : PublishMessageResponse) : Prop :=
  status = .networkError ∨ ∃ response, .publishResponse response ∈ session.received ∧
    response.identity.inReplyTo = message.identity.id ∧
    status = PublishMessageResponse.ofStatus response.status

/-- The publish has been sent, and the write of its message has completed
with success. -/
def Written (session : AuthenticatedSession) (serial : Nat) (message : PublishMessage) : Prop :=
  (∃ flags, session.sent[serial]? = some (message, flags)) ∧ (serial, true) ∈ session.completed

/-- What holds of the handlers and the callbacks in every run: a write is in
progress or over and not both, a handler belongs to a message that has been
written, and a callback that has been called was called once, for such a
message. -/
structure Accounted (session : AuthenticatedSession) : Prop where
  single : session.reads ≤ 1
  distinct : session.writing.Nodup
  sent : ∀ write ∈ session.writes, ∃ flags, session.sent[write.1]? = some (write.2, flags)
  ended : ∀ write ∈ session.completed, write.1 < session.sent.length ∧ write.1 ∉ session.writing
  table : ∀ type, type ≠ .publishResponse → session.dispatcher.handlers type = KeyedMap.empty
  filled : ∀ id handler, (session.dispatcher.handlers .publishResponse).find id = some handler →
    ∃ serial message, handler = some serial ∧ session.Written serial message ∧
      message.identity.id = id
  quiet : session.reads = 1 → session.callbacks = []
  once : session.told.Nodup
  justified : ∀ call ∈ session.callbacks, ∃ message, session.Written call.1 message ∧
    session.Justified message call.2

/-- A message that is being written belongs to a publish that was made. -/
theorem Accounted.writing_lt {session : AuthenticatedSession} (accounted : session.Accounted)
    {serial : Nat} (member : serial ∈ session.writing) : serial < session.sent.length := by
  obtain ⟨write, present, rfl⟩ := List.mem_map.mp member
  obtain ⟨flags, place⟩ := accounted.sent write present
  exact (List.getElem?_eq_some_iff.mp place).1

/-- A handler is registered for one message, since each is registered when
its write has completed, under its own identifier. -/
theorem Accounted.registered_nodup {session : AuthenticatedSession}
    (accounted : session.Accounted) : session.registered.Nodup := by
  have entries := (session.dispatcher.handlers .publishResponse).distinct
  refine List.Nodup.filterMap (fun _ _ _ here there => here.trans there.symm)
    (List.Nodup.map_on ?_ entries.of_map)
  rintro ⟨id, handler⟩ member ⟨id', handler'⟩ member' same
  obtain ⟨serial, message, held, ⟨⟨flags, place⟩, -⟩, rfl⟩ :=
    accounted.filled id handler ((KeyedMap.mem_entries_iff _ _ _).mp member)
  obtain ⟨serial', message', held', ⟨⟨flags', place'⟩, -⟩, rfl⟩ :=
    accounted.filled id' handler' ((KeyedMap.mem_entries_iff _ _ _).mp member')
  have handlers : handler = handler' := same
  rw [held, held', Option.some.injEq] at handlers
  subst handlers
  rw [place, Option.some.injEq, Prod.mk.injEq] at place'
  rw [place'.1, held, held']

/-- A failed read calls the registered handlers, each once, in the order in
which the table is gone through. The other tables have none. -/
theorem Accounted.cancelAllWithError {session : AuthenticatedSession}
    (accounted : session.Accounted)
    (order : MessageType → KeyedMap.Iteration UInt32 (Option Nat)) :
    (session.dispatcher.cancelAllWithError order).Perm session.registered := by
  have visited : session.dispatcher.cancelVisits order =
      ((order .publishResponse).visit (session.dispatcher.handlers .publishResponse)).map
        Prod.snd := by
    have others : ∀ type, type ≠ .publishResponse →
        (order type).visit (session.dispatcher.handlers type) = [] := by
      intro type other
      have each := (order type).each (session.dispatcher.handlers type)
      rw [accounted.table type other] at each ⊢
      exact each.eq_nil
    simp [MessageDispatcher.cancelVisits, MessageDispatcher.cancelOrder, others]
  have each := ((order .publishResponse).each
    (session.dispatcher.handlers .publishResponse)).map Prod.snd
  have present : ∀ handler ∈
      ((order .publishResponse).visit (session.dispatcher.handlers .publishResponse)).map Prod.snd,
        handler.isSome := by
    intro handler member
    obtain ⟨⟨id, found⟩, entry, rfl⟩ := List.mem_map.mp (each.mem_iff.mp member)
    obtain ⟨serial, -, held, -⟩ :=
      accounted.filled id found ((KeyedMap.mem_entries_iff _ _ _).mp entry)
    rw [held]
    rfl
  rw [MessageDispatcher.cancelAllWithError, visited, List.takeWhile_eq_self_iff.mpr present]
  exact each.filterMap _

/-- A further publish leaves what has been written. -/
theorem Written.publishMessage {session : AuthenticatedSession} {serial : Nat}
    {message : PublishMessage} (written : session.Written serial message) (messageId : Bytes)
    (call : PublishCall) : (session.publishMessage messageId call).Written serial message := by
  obtain ⟨⟨flags, place⟩, completed⟩ := written
  have inside := (List.getElem?_eq_some_iff.mp place).1
  exact ⟨⟨flags, (List.getElem?_append_left inside).trans place⟩, completed⟩

/-- A publish adds a write with the next number, and keeps the account. -/
theorem Accounted.publishMessage {session : AuthenticatedSession} (accounted : session.Accounted)
    (messageId : Bytes) (call : PublishCall) :
    (session.publishMessage messageId call).Accounted where
  single := accounted.single
  distinct := by
    simp only [writing, AuthenticatedSession.publishMessage, List.map_append]
    refine List.nodup_append.mpr ⟨accounted.distinct, List.nodup_singleton _, ?_⟩
    rintro serial member _ last rfl
    exact (accounted.writing_lt member).ne (List.mem_singleton.mp last)
  sent := by
    intro write member
    rcases List.mem_append.mp member with old | new
    · obtain ⟨flags, place⟩ := accounted.sent write old
      have inside := (List.getElem?_eq_some_iff.mp place).1
      exact ⟨flags, (List.getElem?_append_left inside).trans place⟩
    · rw [List.mem_singleton.mp new]
      exact ⟨_, List.getElem?_concat_length⟩
  ended := by
    intro write member
    obtain ⟨inside, ended⟩ := accounted.ended write member
    simp only [writing, AuthenticatedSession.publishMessage, List.map_append, List.mem_append,
      List.length_append]
    refine ⟨Nat.lt_add_right _ inside, ?_⟩
    rintro (writing | last)
    · exact ended writing
    · exact inside.ne (List.mem_singleton.mp last)
  table := accounted.table
  filled := by
    intro id handler found
    obtain ⟨serial, message, held, written, same⟩ := accounted.filled id handler found
    exact ⟨serial, message, held, written.publishMessage messageId call, same⟩
  quiet := accounted.quiet
  once := accounted.once
  justified := by
    intro told member
    obtain ⟨message, written, justified⟩ := accounted.justified told member
    exact ⟨message, written.publishMessage messageId call, justified⟩

/-- A write that has completed is over, and the others go on. Its number
does not come again. -/
theorem Accounted.eraseIdx {session : AuthenticatedSession} (accounted : session.Accounted)
    {index serial : Nat} {message : PublishMessage}
    (place : session.writes[index]? = some (serial, message)) :
    serial ∉ (session.writes.eraseIdx index).map Prod.fst ∧
      (session.writes.eraseIdx index).map Prod.fst ⊆ session.writing := by
  rw [← List.eraseIdx_map]
  refine ⟨?_, (List.eraseIdx_sublist _ _).subset⟩
  have located : (session.writes.map Prod.fst)[index]? = some serial := by
    rw [List.getElem?_map, place, Option.map_some]
  obtain ⟨inside, here⟩ := List.getElem?_eq_some_iff.mp located
  have distinct : (session.writes.map Prod.fst).Nodup := accounted.distinct
  rw [← distinct.erase_getElem index inside, here]
  exact distinct.not_mem_erase

/-- What a completed write does: it is taken from those in progress, and
registers the handler or reports the failure. -/
theorem writeCompleted_eq_some {session after : AuthenticatedSession} {index : Nat}
    {success : Bool} (moved : session.writeCompleted index success = some after) :
    ∃ serial message, session.writes[index]? = some (serial, message) ∧
      after =
        (if success then
          { session with
            writes := session.writes.eraseIdx index
            completed := session.completed ++ [(serial, success)]
            dispatcher := session.dispatcher.setHandlerFor .publishResponse (some serial)
              message.identity.id }
        else
          { session with
            writes := session.writes.eraseIdx index
            completed := session.completed ++ [(serial, success)]
            failed := true }) := by
  unfold writeCompleted at moved
  split at moved
  · cases moved
  · next serial message place =>
    exact ⟨serial, message, place, (Option.some.inj moved).symm⟩

/-- What has been written stays written when another write is over. -/
theorem Written.endWrite {session : AuthenticatedSession} {serial : Nat}
    {message : PublishMessage} (written : session.Written serial message)
    (writes : List (Nat × PublishMessage)) (last : Nat × Bool) :
    { session with
      writes := writes
      completed := session.completed ++ [last] }.Written serial message :=
  ⟨written.1, List.mem_append_left _ written.2⟩

/-- A write that is over leaves the writes in progress for the completed
ones, whether it has succeeded or not. -/
theorem Accounted.endWrite {session : AuthenticatedSession} (accounted : session.Accounted)
    {index serial : Nat} {message : PublishMessage}
    (place : session.writes[index]? = some (serial, message)) (success : Bool) :
    { session with
      writes := session.writes.eraseIdx index
      completed := session.completed ++ [(serial, success)] }.Accounted where
  single := accounted.single
  distinct := by
    simp only [writing, ← List.eraseIdx_map]
    exact accounted.distinct.eraseIdx index
  sent write member := accounted.sent write (List.mem_of_mem_eraseIdx member)
  ended := by
    obtain ⟨ended, others⟩ := accounted.eraseIdx place
    obtain ⟨flags, sent⟩ := accounted.sent _ (List.mem_of_getElem? place)
    intro write member
    rcases List.mem_append.mp member with before | last
    · obtain ⟨inside, unwritten⟩ := accounted.ended write before
      exact ⟨inside, fun writing => unwritten (others writing)⟩
    · rw [List.mem_singleton.mp last]
      exact ⟨(List.getElem?_eq_some_iff.mp sent).1, ended⟩
  table := accounted.table
  filled := by
    intro id handler found
    obtain ⟨other, sentMessage, held, written, same⟩ := accounted.filled id handler found
    exact ⟨other, sentMessage, held, written.endWrite _ _, same⟩
  quiet := accounted.quiet
  once := accounted.once
  justified := by
    intro call member
    obtain ⟨sentMessage, written, status⟩ := accounted.justified call member
    exact ⟨sentMessage, written.endWrite _ _, status⟩

/-- The handler of a message that has been written may be registered under
the identifier of the message. -/
theorem Accounted.setHandlerFor {session : AuthenticatedSession} (accounted : session.Accounted)
    {serial : Nat} {message : PublishMessage} (written : session.Written serial message) :
    { session with
      dispatcher := session.dispatcher.setHandlerFor .publishResponse (some serial)
        message.identity.id }.Accounted where
  single := accounted.single
  distinct := accounted.distinct
  sent := accounted.sent
  ended := accounted.ended
  table := by
    intro type other
    simp only [MessageDispatcher.setHandlerFor, MessageDispatcher.withHandlers, if_neg other]
    exact accounted.table type other
  filled := by
    intro id handler found
    simp only [MessageDispatcher.find_setHandlerFor, true_and] at found
    split at found
    · next same => exact ⟨serial, message, (Option.some.inj found).symm, written, same.symm⟩
    · exact accounted.filled id handler found
  quiet := accounted.quiet
  once := accounted.once
  justified := accounted.justified

/-- A completed write keeps the account: the handler it registers belongs to
a message that has been written. -/
theorem Accounted.writeCompleted {session after : AuthenticatedSession}
    (accounted : session.Accounted) {index : Nat} {success : Bool}
    (moved : session.writeCompleted index success = some after) : after.Accounted := by
  obtain ⟨serial, message, place, rfl⟩ := writeCompleted_eq_some moved
  have ended := accounted.endWrite place success
  cases success with
  | false =>
    exact ⟨ended.single, ended.distinct, ended.sent, ended.ended, ended.table, ended.filled,
      ended.quiet, ended.once, ended.justified⟩
  | true =>
    have sent := accounted.sent _ (List.mem_of_getElem? place)
    exact ended.setHandlerFor ⟨sent, List.mem_append_right _ List.mem_cons_self⟩

/-- What a dispatched message calls: the handler it names, if it is a
response with one, and otherwise no callback. -/
theorem dispatch_cases (session : AuthenticatedSession) (message : ServerMessage) :
    (∃ serial response, message = .publishResponse response ∧
      (session.dispatcher.handlers .publishResponse).find response.identity.inReplyTo =
        some (some serial) ∧
      session.dispatch message =
        { session with
          callbacks := session.callbacks ++
            [(serial, PublishMessageResponse.ofStatus response.status)] }) ∨
    (∃ valid, session.dispatch message = { session with valid := valid }) := by
  unfold dispatch
  split
  · next serial response called =>
    refine Or.inl ⟨serial, response, rfl, ?_, rfl⟩
    simp only [MessageDispatcher.dispatch, MessageDispatcher.doDispatch] at called
    split at called
    · next found =>
      cases called
      exact found
    · cases called
    · cases called
  · exact Or.inr ⟨false, rfl⟩
  · exact Or.inr ⟨session.valid, rfl⟩

/-- The read that ends is the only one, and no callback has been called
before. -/
theorem Accounted.lastRead {session : AuthenticatedSession} (accounted : session.Accounted)
    {reads : Nat} (count : session.reads = reads + 1) :
    reads = 0 ∧ session.callbacks = [] := by
  have single := accounted.single
  exact ⟨by omega, accounted.quiet (by omega)⟩

/-- The session after its read has ended, with a message or without, before
anything is called. -/
theorem Accounted.endRead {session : AuthenticatedSession} (accounted : session.Accounted)
    (reads : Nat) (count : session.reads = reads + 1) (received : List ServerMessage)
    (failed valid : Bool) :
    { session with
      reads := reads
      received := received
      failed := failed
      valid := valid }.Accounted := by
  obtain ⟨noRead, none⟩ := accounted.lastRead count
  refine ⟨noRead.le.trans zero_le_one, accounted.distinct, accounted.sent, accounted.ended,
    accounted.table, accounted.filled, fun more => absurd more (by simp [noRead]), accounted.once,
    ?_⟩
  intro call member
  rw [none] at member
  cases member

/-- A message that is read keeps the account. The callback it may call is
the first one to be called. -/
theorem Accounted.messageRead {session : AuthenticatedSession} (accounted : session.Accounted)
    (reads : Nat) (count : session.reads = reads + 1) (message : ServerMessage) :
    ({ session with reads := reads }.messageRead message).Accounted := by
  obtain ⟨noRead, none⟩ := accounted.lastRead count
  have ended := accounted.endRead reads count (session.received ++ [message]) session.failed
    session.valid
  rw [AuthenticatedSession.messageRead]
  rcases dispatch_cases
    { session with reads := reads, received := session.received ++ [message] } message with
    ⟨serial, response, rfl, found, result⟩ | ⟨valid, result⟩
  · rw [result]
    obtain ⟨_, sentMessage, held, written, same⟩ := accounted.filled _ _ found
    cases held
    refine ⟨ended.single, ended.distinct, ended.sent, ended.ended, ended.table, ended.filled,
      fun more => absurd more (by simp [noRead]), ?_, ?_⟩
    · simp [told, none]
    · intro call member
      simp only [none, List.nil_append, List.mem_singleton] at member
      rw [member]
      exact ⟨sentMessage, written, Or.inr ⟨response, List.mem_append_right _
        List.mem_cons_self, same.symm, rfl⟩⟩
  · rw [result]
    exact ⟨ended.single, ended.distinct, ended.sent, ended.ended, ended.table, ended.filled,
      ended.quiet, ended.once, ended.justified⟩

/-- A failed read keeps the account. Each handler is called once, and no
callback had been called before. -/
theorem Accounted.readFailed {session : AuthenticatedSession} (accounted : session.Accounted)
    (reads : Nat) (count : session.reads = reads + 1)
    (order : MessageType → KeyedMap.Iteration UInt32 (Option Nat)) :
    ({ session with reads := reads }.readFailed order).Accounted := by
  obtain ⟨noRead, none⟩ := accounted.lastRead count
  have called := accounted.cancelAllWithError order
  refine ⟨noRead.le.trans zero_le_one, accounted.distinct, accounted.sent, accounted.ended,
    accounted.table, accounted.filled, fun more => absurd more (by simp
      [AuthenticatedSession.readFailed, connectionError, noRead]), ?_, ?_⟩
  · simp only [told, AuthenticatedSession.readFailed, none, List.nil_append, List.map_map]
    simpa [Function.comp_def] using called.nodup_iff.mpr accounted.registered_nodup
  · intro call member
    simp only [AuthenticatedSession.readFailed, none, List.nil_append] at member
    obtain ⟨serial, present, rfl⟩ := List.mem_map.mp member
    obtain ⟨handler, entry, held⟩ := List.mem_filterMap.mp (called.mem_iff.mp present)
    obtain ⟨⟨id, filed⟩, stored, rfl⟩ := List.mem_map.mp entry
    obtain ⟨other, message, same, written, -⟩ :=
      accounted.filled id filed ((KeyedMap.mem_entries_iff _ _ _).mp stored)
    obtain rfl : other = serial := Option.some.inj (same.symm.trans held)
    exact ⟨message, written, Or.inl rfl⟩

/-- Every step keeps the account of handlers and callbacks. -/
theorem Accounted.step {session after : AuthenticatedSession} {event : SessionEvent}
    (accounted : session.Accounted) (moved : session.step event = some after) :
    after.Accounted := by
  cases event with
  | publishMessage messageId call =>
    cases moved
    exact accounted.publishMessage messageId call
  | writeCompleted index success => exact accounted.writeCompleted moved
  | messageRead message =>
    obtain ⟨reads, count, rfl⟩ := endRead_map_some session after _ moved
    exact accounted.messageRead reads count message
  | parseFailed =>
    obtain ⟨reads, count, rfl⟩ := endRead_map_some session after _ moved
    exact accounted.endRead reads count session.received true session.valid
  | readFailed order =>
    obtain ⟨reads, count, rfl⟩ := endRead_map_some session after _ moved
    exact accounted.readFailed reads count order

/-- At the entry of the state there are no handlers and no calls. -/
theorem accounted_stateEntry (nextId : UInt32) : (stateEntry nextId).Accounted where
  single := le_rfl
  distinct := List.nodup_nil
  sent _ member := by cases member
  ended _ member := by cases member
  table _ _ := rfl
  filled id handler found := by cases found
  quiet _ := rfl
  once := List.nodup_nil
  justified _ member := by cases member

/-- The account holds in every state of every run. -/
theorem accounted_of_reached {nextId : UInt32} {session : AuthenticatedSession}
    (reached : Machine.Reaches step (stateEntry nextId) session) : session.Accounted :=
  reached.invariant Accounted (fun _ _ _ before moved => before.step moved)
    (accounted_stateEntry nextId)

/-- Over every run of a session, with any messages from the server and any
failures: the callback of a publish is called once at most, and only after
the write of its message has succeeded. It is told a network error, or the
status of a received response that names the identifier of its message.

Proof: a handler is in the table only for a message that has been written,
under the identifier of that message. The one read of the session ends
before the first callback is called, and calls each handler once at most. -/
theorem callbacks_justified (nextId : UInt32) (session : AuthenticatedSession)
    (reached : Machine.Reaches step (stateEntry nextId) session) :
    session.told.Nodup ∧ ∀ call ∈ session.callbacks, ∃ message,
      session.Written call.1 message ∧ session.Justified message call.2 := by
  have accounted := accounted_of_reached reached
  exact ⟨accounted.once, accounted.justified⟩

/-- Three publishes, of which the message of the last one cannot be written,
and a read that fails. -/
def cancelledEvents : List SessionEvent :=
  [.publishMessage [1] someCall, .publishMessage [2] someCall, .publishMessage [3] someCall,
    .writeCompleted 1 true, .writeCompleted 0 true, .writeCompleted 0 false,
    .readFailed fun _ => .listed]

/-- The callbacks of the two written messages are told, in some order, and
the third is not. -/
theorem callbacks_justified_cancelled :
    ∃ session, Machine.run step (stateEntry 2) cancelledEvents = some session ∧
      session.told.Perm [0, 1] ∧ session.told.Nodup := by
  refine ⟨_, rfl, List.Perm.swap _ _ _, ?_⟩
  exact (callbacks_justified 2 _
    (Machine.reaches_of_run step (stateEntry 2) _ cancelledEvents rfl)).1

/-- A publish that is not being written has no handler, and has not been
told. -/
structure Lost (serial : Nat) (session : AuthenticatedSession) : Prop where
  accounted : session.Accounted
  sent : serial < session.sent.length
  unwritten : serial ∉ session.writing
  unhandled : serial ∉ session.registered
  untold : serial ∉ session.told

/-- A handler is registered if the table has it under some identifier. -/
theorem mem_registered_iff (session : AuthenticatedSession) (serial : Nat) :
    serial ∈ session.registered ↔
      ∃ id, (session.dispatcher.handlers .publishResponse).find id = some (some serial) := by
  constructor
  · intro member
    obtain ⟨handler, entry, held⟩ := List.mem_filterMap.mp member
    obtain ⟨⟨id, filed⟩, stored, rfl⟩ := List.mem_map.mp entry
    have same : filed = some serial := held
    exact ⟨id, (KeyedMap.mem_entries_iff _ _ _).mp (same ▸ stored)⟩
  · rintro ⟨id, found⟩
    have stored := (KeyedMap.mem_entries_iff _ _ _).mpr found
    exact List.mem_filterMap.mpr ⟨some serial, List.mem_map.mpr ⟨_, stored, rfl⟩, rfl⟩

/-- A completed write registers the handler of its own message, which is
another one. -/
theorem Lost.writeCompleted {serial : Nat} {session after : AuthenticatedSession}
    (lost : Lost serial session) {index : Nat} {success : Bool}
    (moved : session.writeCompleted index success = some after) : Lost serial after := by
  have accounted := lost.accounted.writeCompleted moved
  obtain ⟨other, message, place, rfl⟩ := writeCompleted_eq_some moved
  have writing := (lost.accounted.eraseIdx place).2
  cases success with
  | false =>
    exact ⟨accounted, lost.sent, fun member => lost.unwritten (writing member), lost.unhandled,
      lost.untold⟩
  | true =>
    refine ⟨accounted, lost.sent, fun member => lost.unwritten (writing member), ?_, lost.untold⟩
    rw [mem_registered_iff]
    rintro ⟨id, found⟩
    simp only [if_true, MessageDispatcher.find_setHandlerFor, true_and] at found
    split at found
    · have same : other = serial := Option.some.inj (Option.some.inj found)
      exact lost.unwritten (same ▸ List.mem_map.mpr ⟨_, List.mem_of_getElem? place, rfl⟩)
    · exact lost.unhandled ((mem_registered_iff session serial).mpr ⟨id, found⟩)

/-- A further publish has a number of its own. -/
theorem Lost.publishMessage {serial : Nat} {session : AuthenticatedSession}
    (lost : Lost serial session) (messageId : Bytes) (call : PublishCall) :
    Lost serial (session.publishMessage messageId call) where
  accounted := lost.accounted.publishMessage messageId call
  sent := by
    simp only [AuthenticatedSession.publishMessage, List.length_append]
    exact Nat.lt_add_right _ lost.sent
  unwritten := by
    simp only [writing, AuthenticatedSession.publishMessage, List.map_append, List.mem_append]
    rintro (member | member)
    · exact lost.unwritten member
    · exact lost.sent.ne (List.mem_singleton.mp member)
  unhandled := lost.unhandled
  untold := lost.untold

/-- A message calls the callback of a registered handler, which is not that
of the lost publish. -/
theorem Lost.messageRead {serial : Nat} {session : AuthenticatedSession}
    (lost : Lost serial session) (reads : Nat) (count : session.reads = reads + 1)
    (message : ServerMessage) :
    Lost serial ({ session with reads := reads }.messageRead message) := by
  have accounted := lost.accounted.messageRead reads count message
  rw [AuthenticatedSession.messageRead] at accounted ⊢
  rcases dispatch_cases
    { session with reads := reads, received := session.received ++ [message] } message with
    ⟨other, response, rfl, found, result⟩ | ⟨valid, result⟩
  · rw [result] at accounted ⊢
    refine ⟨accounted, lost.sent, lost.unwritten, lost.unhandled, ?_⟩
    simp only [told, List.map_append, List.mem_append]
    rintro (member | member)
    · exact lost.untold member
    · have same : serial = other := List.mem_singleton.mp member
      exact lost.unhandled ((mem_registered_iff session serial).mpr ⟨_, same ▸ found⟩)
  · rw [result] at accounted ⊢
    exact ⟨accounted, lost.sent, lost.unwritten, lost.unhandled, lost.untold⟩

/-- A failed read calls the callbacks of the registered handlers only. -/
theorem Lost.readFailed {serial : Nat} {session : AuthenticatedSession}
    (lost : Lost serial session) (reads : Nat) (count : session.reads = reads + 1)
    (order : MessageType → KeyedMap.Iteration UInt32 (Option Nat)) :
    Lost serial ({ session with reads := reads }.readFailed order) := by
  refine ⟨lost.accounted.readFailed reads count order, lost.sent, lost.unwritten,
    lost.unhandled, ?_⟩
  simp only [told, AuthenticatedSession.readFailed, List.map_append, List.map_map, List.mem_append]
  rintro (member | member)
  · exact lost.untold member
  · have called := lost.accounted.cancelAllWithError order
    exact lost.unhandled (called.mem_iff.mp (by simpa [Function.comp_def] using member))

/-- Nothing that happens later tells it, by cases on the event. -/
theorem Lost.step {serial : Nat} {session after : AuthenticatedSession} {event : SessionEvent}
    (lost : Lost serial session) (moved : session.step event = some after) :
    Lost serial after := by
  cases event with
  | publishMessage messageId call =>
    cases moved
    exact lost.publishMessage messageId call
  | writeCompleted index success => exact lost.writeCompleted moved
  | messageRead message =>
    obtain ⟨reads, count, rfl⟩ := endRead_map_some session after _ moved
    exact lost.messageRead reads count message
  | parseFailed =>
    have accounted := lost.accounted.step moved
    obtain ⟨reads, count, rfl⟩ := endRead_map_some session after _ moved
    exact ⟨accounted, lost.sent, lost.unwritten, lost.unhandled, lost.untold⟩
  | readFailed order =>
    obtain ⟨reads, count, rfl⟩ := endRead_map_some session after _ moved
    exact lost.readFailed reads count order

/-- A write that fails in a run leaves its publish lost: nothing has been
registered for it, and nothing will be. -/
theorem Accounted.lost {session after : AuthenticatedSession} (accounted : session.Accounted)
    {index serial : Nat} {message : PublishMessage}
    (place : session.writes[index]? = some (serial, message))
    (failed : session.writeCompleted index false = some after) : Lost serial after := by
  have member : serial ∈ session.writing :=
    List.mem_map.mpr ⟨_, List.mem_of_getElem? place, rfl⟩
  have kept := accounted.writeCompleted failed
  obtain ⟨other, written, located, rfl⟩ := writeCompleted_eq_some failed
  obtain ⟨rfl, rfl⟩ := Prod.mk.inj (Option.some.inj (located.symm.trans place))
  refine ⟨kept, accounted.writing_lt member, (accounted.eraseIdx place).1, ?_, ?_⟩
  · intro handled
    obtain ⟨id, found⟩ := (mem_registered_iff session other).mp handled
    obtain ⟨_, _, held, ⟨-, completed⟩, -⟩ := accounted.filled id _ found
    cases held
    exact (accounted.ended _ completed).2 member
  · intro called
    obtain ⟨call, present, rfl⟩ := List.mem_map.mp called
    obtain ⟨_, ⟨-, completed⟩, -⟩ := accounted.justified call present
    exact (accounted.ended _ completed).2 member

/-- A publish whose message could not be written is never told, whatever
happens later: neither by a message from the server nor by the failure of
the connection. -/
theorem failed_write_untold (nextId : UInt32) (session after later : AuthenticatedSession)
    (reached : Machine.Reaches step (stateEntry nextId) session) (index serial : Nat)
    (message : PublishMessage) (place : session.writes[index]? = some (serial, message))
    (failed : session.step (.writeCompleted index false) = some after)
    (continued : Machine.Reaches step after later) : serial ∉ later.told := by
  have lost : Lost serial after := (accounted_of_reached reached).lost place failed
  exact (continued.invariant (fun last : AuthenticatedSession => Lost serial last)
    (fun _ _ _ before moved => before.step moved) lost).untold

/-- The message of a publish cannot be written, and then the read fails. Its
callback hears of neither. -/
theorem failed_write_untold_broken :
    ∃ session after later, Machine.run step (stateEntry 2) [.publishMessage [1] someCall] =
        some session ∧ session.step (.writeCompleted 0 false) = some after ∧
      Machine.run step after [.readFailed fun _ => .listed] = some later ∧ 0 ∉ later.told := by
  refine ⟨_, _, _, rfl, rfl, rfl, ?_⟩
  exact failed_write_untold 2 _ _ _ (Machine.reaches_of_run step (stateEntry 2) _
    [.publishMessage [1] someCall] rfl) 0 0 _ rfl rfl
    (Machine.reaches_of_run step _ _ [.readFailed fun _ => .listed] rfl)

end AuthenticatedSession

end Sopmq
