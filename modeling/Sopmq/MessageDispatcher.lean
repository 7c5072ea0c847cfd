import Sopmq.KeyedMap
import Sopmq.Messages

/-!
# Dispatch of messages to handlers

`message_dispatcher` has one table of handlers for each type of message, from the
identifier that a message replies to to the handler. The twelve tables and the
overloads for them are one definition with the type as an argument. A handler is a
`std::function`, which may be empty; calling an empty one raises.

`do_dispatch` takes the table by value. It looks the handler up in its own copy, calls
it, and then erases the entry from the copy. A run of a dispatcher is a list of events:
calls of `set_handler`, `dispatch` and `cancel_all_with_error`, and the return of
handlers and of `do_dispatch`. What a handler does while it runs are the events
between the dispatch and its return. Each `set_handler` call has a serial number, so
that a registration can be told from the next one under the same identifier.
-/

namespace Sopmq

/-- What `do_dispatch` calls: a handler, an empty function, or the unhandled
handler. -/
inductive Dispatched (H : Type) where
  | handler (handler : H)
  | badFunctionCall
  | unhandled
deriving DecidableEq, Repr

/-- `message_dispatcher`: the tables of handlers by type, with the handlers
left abstract. -/
structure MessageDispatcher (H : Type) where
  handlers : MessageType → KeyedMap UInt32 (Option H)

namespace MessageDispatcher

variable {H : Type}

/-- A dispatcher without handlers, in which every message is unhandled. -/
def create : MessageDispatcher H where
  handlers _ := KeyedMap.empty

/-- Change the table of one type, and leave the others. -/
def withHandlers (dispatcher : MessageDispatcher H) (type : MessageType)
    (table : KeyedMap UInt32 (Option H)) : MessageDispatcher H where
  handlers other := if other = type then table else dispatcher.handlers other

/-- `message_dispatcher::set_handler` without an identifier: an empty
function clears the handler. -/
def setHandler (dispatcher : MessageDispatcher H) (type : MessageType) (handler : Option H) :
    MessageDispatcher H :=
  match handler with
  | some _ => dispatcher.withHandlers type ((dispatcher.handlers type).set 0 handler)
  | none => dispatcher.withHandlers type ((dispatcher.handlers type).erase 0)

/-- `message_dispatcher::set_handler` with an identifier: the function is
stored, empty or not. -/
def setHandlerFor (dispatcher : MessageDispatcher H) (type : MessageType) (handler : Option H)
    (inReplyTo : UInt32) : MessageDispatcher H :=
  dispatcher.withHandlers type ((dispatcher.handlers type).set inReplyTo handler)

/-- The call that `do_dispatch` makes for a message in reply to the
identifier, by its own copy of the table. -/
def doDispatch (h : KeyedMap UInt32 (Option H)) (id : UInt32) : Dispatched H :=
  match h.find id with
  | some (some handler) => .handler handler
  | some none => .badFunctionCall
  | none => .unhandled

/-- What `do_dispatch` does to its copy of the table once the handler has
returned. -/
def afterHandler (h : KeyedMap UInt32 (Option H)) (id : UInt32) : KeyedMap UInt32 (Option H) :=
  if id ≠ 0 then h.erase id else h

/-- `message_dispatcher::dispatch`, for a message of the type. The tables of
the dispatcher stay as they are. -/
def dispatch (dispatcher : MessageDispatcher H) (type : MessageType) (inReplyTo : UInt32) :
    Dispatched H :=
  doDispatch (dispatcher.handlers type) inReplyTo

/-- The order in which `cancel_all_with_error` goes through the tables,
which is that of its statements. -/
def cancelOrder : List MessageType :=
  [.answerChallenge, .authAck, .challengeResponse, .consumeFromQueue, .consumeResponse,
    .getChallenge, .gossip, .proxyPublish, .proxyPublishResponse, .publish, .publishResponse,
    .stamp]

/-- The functions that `cancel_all_with_error` comes to. Each table is a
`std::unordered_map`, which is gone through in an order of its own. -/
def cancelVisits (dispatcher : MessageDispatcher H)
    (order : MessageType → KeyedMap.Iteration UInt32 (Option H)) : List (Option H) :=
  cancelOrder.flatMap fun type => ((order type).visit (dispatcher.handlers type)).map Prod.snd

/-- The handlers that `message_dispatcher::cancel_all_with_error` calls, up
to the first empty one. It erases nothing. -/
def cancelAllWithError (dispatcher : MessageDispatcher H)
    (order : MessageType → KeyedMap.Iteration UInt32 (Option H)) : List H :=
  ((dispatcher.cancelVisits order).takeWhile Option.isSome).filterMap fun handler => handler

/-- Without an identifier, the handler is set or cleared under zero, for its
type only. -/
theorem find_setHandler (dispatcher : MessageDispatcher H) (type other : MessageType)
    (handler : Option H) (id : UInt32) :
    ((dispatcher.setHandler type handler).handlers other).find id =
      if other = type ∧ id = 0 then handler.map some else (dispatcher.handlers other).find id := by
  cases handler with
  | none =>
    by_cases same : other = type
    · simp [setHandler, withHandlers, same, KeyedMap.find_erase]
    · simp [setHandler, withHandlers, same]
  | some handler =>
    by_cases same : other = type
    · simp [setHandler, withHandlers, same, KeyedMap.find_set]
    · simp [setHandler, withHandlers, same]

/-- With an identifier, the function is found under it, for its type
only. -/
theorem find_setHandlerFor (dispatcher : MessageDispatcher H) (type other : MessageType)
    (handler : Option H) (inReplyTo id : UInt32) :
    ((dispatcher.setHandlerFor type handler inReplyTo).handlers other).find id =
      if other = type ∧ id = inReplyTo then some handler
      else (dispatcher.handlers other).find id := by
  by_cases same : other = type
  · simp [setHandlerFor, withHandlers, same, KeyedMap.find_set]
  · simp [setHandlerFor, withHandlers, same]

/-- A handler set without an identifier is called for messages that reply to
nothing. -/
theorem dispatch_setHandler (dispatcher : MessageDispatcher H) (type : MessageType)
    (handler : H) : (dispatcher.setHandler type (some handler)).dispatch type 0 =
      .handler handler := by
  simp [dispatch, doDispatch, find_setHandler]

/-- A handler set for an identifier is called for replies to it. -/
theorem dispatch_setHandlerFor (dispatcher : MessageDispatcher H) (type : MessageType)
    (handler : H) (id : UInt32) :
    (dispatcher.setHandlerFor type (some handler) id).dispatch type id = .handler handler := by
  simp [dispatch, doDispatch, find_setHandlerFor]

end MessageDispatcher

/-- A handler with the serial number of the call that registered it, by
which registrations of one function are told apart. -/
structure Registered (H : Type) where
  serial : Nat
  handler : H
deriving DecidableEq, Repr

/-- An event of a run of a dispatcher: a call, or the return of a handler or
of `do_dispatch`. -/
inductive DispatcherEvent (H : Type) where
  | setHandler (type : MessageType) (handler : Option H)
  | setHandlerFor (type : MessageType) (handler : Option H) (inReplyTo : UInt32)
  | dispatch (type : MessageType) (inReplyTo : UInt32)
  | handlerReturned
  | dispatchReturned
  | cancelAllWithError (order : MessageType → KeyedMap.Iteration UInt32 (Option (Registered H)))

/-- A running `do_dispatch`: its copy of the table, and the identifier it
looks up. -/
structure DispatchFrame (H : Type) where
  h : KeyedMap UInt32 (Option H)
  id : UInt32

/-- A dispatcher in a run: the number of registrations so far, the running
`do_dispatch` calls, and the handlers called by `cancel_all_with_error`. -/
structure DispatcherRun (H : Type) where
  dispatcher : MessageDispatcher (Registered H)
  registrations : Nat
  frames : List (DispatchFrame (Registered H))
  cancelled : List (Registered H)

/-- The event sets or clears the handler for this type and identifier. -/
def DispatcherEvent.Registers {H : Type} (type : MessageType) (id : UInt32) :
    DispatcherEvent H → Prop
  | setHandler other _ => other = type ∧ id = 0
  | setHandlerFor other _ inReplyTo => other = type ∧ inReplyTo = id
  | _ => False

namespace DispatcherRun

variable {H : Type}

/-- A dispatcher on which nothing was called, with serial numbers from zero
on. -/
def start : DispatcherRun H where
  dispatcher := MessageDispatcher.create
  registrations := 0
  frames := []
  cancelled := []

/-- One event. A dispatch puts its copy of the table on the stack, and the
return of the handler erases from that copy only. -/
def perform (run : DispatcherRun H) : DispatcherEvent H → DispatcherRun H
  | .setHandler type handler =>
      { run with
        dispatcher :=
          run.dispatcher.setHandler type (handler.map (Registered.mk run.registrations))
        registrations := run.registrations + 1 }
  | .setHandlerFor type handler inReplyTo =>
      { run with
        dispatcher := run.dispatcher.setHandlerFor type
          (handler.map (Registered.mk run.registrations)) inReplyTo
        registrations := run.registrations + 1 }
  | .dispatch type inReplyTo =>
      { run with frames := ⟨run.dispatcher.handlers type, inReplyTo⟩ :: run.frames }
  | .handlerReturned =>
      { run with
        frames :=
          match run.frames with
          | [] => []
          | frame :: outer => ⟨MessageDispatcher.afterHandler frame.h frame.id, frame.id⟩ :: outer }
  | .dispatchReturned => { run with frames := run.frames.tail }
  | .cancelAllWithError order =>
      { run with cancelled := run.cancelled ++ run.dispatcher.cancelAllWithError order }

/-- The dispatcher after the events, from the first to the last. -/
def after (events : List (DispatcherEvent H)) : DispatcherRun H := events.foldl perform start

/-- What the dispatch of a message of the type, in reply to the identifier,
calls after the events. -/
def called (events : List (DispatcherEvent H)) (type : MessageType) (id : UInt32) :
    Dispatched (Registered H) :=
  (after events).dispatcher.dispatch type id

/-- Events that do not register under a type and identifier leave its
handler alone. Neither the return of a handler nor that of `do_dispatch`
reaches the table. -/
theorem find_perform (run : DispatcherRun H) (event : DispatcherEvent H) (type : MessageType)
    (id : UInt32) (other : ¬ event.Registers type id) :
    ((run.perform event).dispatcher.handlers type).find id =
      (run.dispatcher.handlers type).find id := by
  cases event with
  | setHandler changed handler =>
    have different : ¬ (type = changed ∧ id = 0) := fun same => other ⟨same.1.symm, same.2⟩
    simp only [perform, MessageDispatcher.find_setHandler, if_neg different]
  | setHandlerFor changed handler inReplyTo =>
    have different : ¬ (type = changed ∧ id = inReplyTo) :=
      fun same => other ⟨same.1.symm, same.2.symm⟩
    simp only [perform, MessageDispatcher.find_setHandlerFor, if_neg different]
  | dispatch => rfl
  | handlerReturned => rfl
  | dispatchReturned => rfl
  | cancelAllWithError => rfl

/-- A sequence of such events leaves the handler alone. By induction on the
events. -/
theorem find_foldl (run : DispatcherRun H) (events : List (DispatcherEvent H))
    (type : MessageType) (id : UInt32) (others : ∀ event ∈ events, ¬ event.Registers type id) :
    ((events.foldl perform run).dispatcher.handlers type).find id =
      (run.dispatcher.handlers type).find id := by
  induction events generalizing run with
  | nil => rfl
  | cons event rest inductionHypothesis =>
    rw [List.foldl_cons, inductionHypothesis (run.perform event)
      (fun later member => others later (List.mem_cons_of_mem _ member)),
      find_perform run event type id (others event List.mem_cons_self)]

/-- A run goes on from where its first part has ended. -/
theorem after_append (front back : List (DispatcherEvent H)) :
    after (front ++ back) = back.foldl perform (after front) :=
  List.foldl_append

/-- As long as nothing is registered under a type and identifier, its
messages go where they went. -/
theorem called_append (front back : List (DispatcherEvent H)) (type : MessageType)
    (id : UInt32) (others : ∀ event ∈ back, ¬ event.Registers type id) :
    called (front ++ back) type id = called front type id := by
  rw [called, called, MessageDispatcher.dispatch, MessageDispatcher.dispatch,
    MessageDispatcher.doDispatch, MessageDispatcher.doDispatch, after_append,
    find_foldl (after front) back type id others]

/-- A message that replies to the identifier calls the handler just
registered for it. -/
theorem called_setHandlerFor (events : List (DispatcherEvent H)) (type : MessageType)
    (handler : H) (id : UInt32) :
    called (events ++ [.setHandlerFor type (some handler) id]) type id =
      .handler ⟨(after events).registrations, handler⟩ := by
  rw [called, after_append]
  exact MessageDispatcher.dispatch_setHandlerFor _ _ _ _

/-- A message that replies to nothing calls the handler just registered
without an identifier. -/
theorem called_setHandler (events : List (DispatcherEvent H)) (type : MessageType)
    (handler : H) :
    called (events ++ [.setHandler type (some handler)]) type 0 =
      .handler ⟨(after events).registrations, handler⟩ := by
  rw [called, after_append]
  exact MessageDispatcher.dispatch_setHandler _ _ _

/-- Serial numbers are not given twice: the count of registrations never
goes down. -/
theorem registrations_foldl (run : DispatcherRun H) (events : List (DispatcherEvent H)) :
    run.registrations ≤ (events.foldl perform run).registrations := by
  induction events generalizing run with
  | nil => exact le_refl _
  | cons event rest inductionHypothesis =>
    refine le_trans ?_ (inductionHypothesis (run.perform event))
    cases event <;> simp [perform]

/-- A handler that is called for a reply was registered under its
identifier, and nothing was registered under it since. -/
theorem registration_of_called (events : List (DispatcherEvent H)) (type : MessageType)
    (id : UInt32) (registered : Registered H) (reply : id ≠ 0)
    (hit : called events type id = .handler registered) :
    ∃ before between,
      events = before ++ .setHandlerFor type (some registered.handler) id :: between ∧
      registered.serial = (after before).registrations ∧
      ∀ event ∈ between, ¬ event.Registers type id := by
  induction events using List.reverseRecOn with
  | nil => exact absurd hit (by simp [called, after, start, MessageDispatcher.create,
      MessageDispatcher.dispatch, MessageDispatcher.doDispatch, KeyedMap.find_empty])
  | append_singleton events event inductionHypothesis =>
    by_cases registers : event.Registers type id
    · cases event with
      | setHandler changed handler => exact absurd registers.2 reply
      | setHandlerFor changed handler inReplyTo =>
        obtain ⟨rfl, rfl⟩ := registers
        cases handler with
        | none =>
          exact absurd hit (by simp [called, MessageDispatcher.dispatch,
            MessageDispatcher.doDispatch, after_append, perform,
            MessageDispatcher.find_setHandlerFor])
        | some handler =>
          rw [called_setHandlerFor] at hit
          cases hit
          exact ⟨events, [], rfl, rfl, by simp⟩
      | dispatch => exact registers.elim
      | handlerReturned => exact registers.elim
      | dispatchReturned => exact registers.elim
      | cancelAllWithError => exact registers.elim
    · rw [called_append events [event] type id (by simpa using registers)] at hit
      obtain ⟨before, between, rfl, serial, others⟩ := inductionHypothesis hit
      refine ⟨before, between ++ [event], by simp, serial, ?_⟩
      intro later member
      rcases List.mem_append.mp member with earlier | last
      · exact others later earlier
      · rw [List.mem_singleton.mp last]
        exact registers

/-- A reply handler is called at most once, and the handler for identifier
zero stays. The registration that a message finds belongs to the message's
type and identifier, so that only messages of one type and identifier can
call one registration. -/
structure OneShot (events : List (DispatcherEvent H)) : Prop where
  /-- No registration is called by two messages. -/
  once : ∀ before between later type id registered,
    events = before ++ .dispatch type id :: between ++ .dispatch type id :: later → id ≠ 0 →
    called before type id = .handler registered →
    called (before ++ .dispatch type id :: between) type id ≠ .handler registered
  /-- A further message goes to the unhandled handler. -/
  further : ∀ before between later type id registered,
    events = before ++ .dispatch type id :: between ++ .dispatch type id :: later → id ≠ 0 →
    called before type id = .handler registered →
    (∀ event ∈ between, ¬ event.Registers type id) →
    called (before ++ .dispatch type id :: between) type id = .unhandled
  /-- A handler for identifier zero is called until it is cleared or
  replaced. -/
  standing : ∀ before between later type handler event,
    events = before ++ event :: between ++ .dispatch type 0 :: later →
    (event = .setHandler type (some handler) ∨ event = .setHandlerFor type (some handler) 0) →
    (∀ event ∈ between, ¬ event.Registers type 0) →
    called (before ++ event :: between) type 0 = .handler ⟨(after before).registrations, handler⟩

/-- Between two replies to an identifier that find a handler, there is a
registration under it. -/
def NoRepeatedReply (events : List (DispatcherEvent H)) : Prop :=
  ∀ before between later beyond type handler id,
    events = before ++ .setHandlerFor type (some handler) id :: between ++
      .dispatch type id :: later ++ .dispatch type id :: beyond → id ≠ 0 →
    (∀ event ∈ between, ¬ event.Registers type id) →
    ∃ event ∈ later, event.Registers type id

/-- A handler stays registered until the next registration under its type
and identifier. -/
theorem called_since (before between : List (DispatcherEvent H)) (type : MessageType)
    (handler : H) (id : UInt32) (others : ∀ event ∈ between, ¬ event.Registers type id) :
    called (before ++ .setHandlerFor type (some handler) id :: between) type id =
      .handler ⟨(after before).registrations, handler⟩ := by
  rw [List.append_cons, called_append _ between type id others, called_setHandlerFor]

/-- A registration that is called after another registration under its
identifier is a newer one. -/
theorem newer_registration (before between : List (DispatcherEvent H)) (type : MessageType)
    (id : UInt32) (reply : id ≠ 0) (first second : Registered H)
    (hit : called before type id = .handler first)
    (again : called (before ++ .dispatch type id :: between) type id = .handler second)
    (renewed : ∃ event ∈ between, event.Registers type id) : first.serial < second.serial := by
  obtain ⟨event, member, registers⟩ := renewed
  obtain ⟨earlier, since, rfl, firstSerial, _⟩ :=
    registration_of_called before type id first reply hit
  obtain ⟨later, rest, split, secondSerial, others⟩ :=
    registration_of_called _ type id second reply again
  rcases List.append_eq_append_iff.mp split with ⟨middle, rfl, _⟩ | ⟨middle, _, tail⟩
  · have grown := registrations_foldl
      (after (earlier ++ [.setHandlerFor type (some first.handler) id])) (since ++ middle)
    rw [← after_append, List.append_assoc, List.singleton_append, ← List.cons_append,
      ← List.append_assoc, after_append earlier] at grown
    rw [firstSerial, secondSerial]
    exact Nat.lt_of_lt_of_le (Nat.lt_succ_self _) grown
  · cases middle with
    | nil => exact absurd tail (by simp)
    | cons head inner =>
      have inside : event ∈ rest := by
        rw [(List.cons.inj tail).2]
        exact List.mem_append_right _ (List.mem_cons_of_mem _ member)
      exact absurd registers (others event inside)

/-- Reply handlers are one-shot in exactly the runs in which no two replies
to an identifier arrive without a registration between them: the entry of
the table is never erased, so that a further reply calls the same handler
again. The handler for identifier zero stays in every run. -/
theorem one_shot_iff (events : List (DispatcherEvent H)) :
    OneShot events ↔ NoRepeatedReply events := by
  constructor
  · intro oneShot before between later beyond type handler id split reply others
    by_contra none
    have quiet : ∀ event ∈ DispatcherEvent.dispatch type id :: later,
        ¬ event.Registers type id := by
      intro event member registers
      rcases List.mem_cons.mp member with rfl | inside
      · exact registers
      · exact none ⟨event, inside, registers⟩
    have first := called_since before between type handler id others
    have second := (called_append _ _ type id quiet).trans first
    exact oneShot.once _ later beyond type id _ split reply first second
  · intro noRepeat
    have renewed : ∀ before between later type id registered,
        events = before ++ .dispatch type id :: between ++ .dispatch type id :: later → id ≠ 0 →
        called before type id = .handler registered →
        ∃ event ∈ between, event.Registers type id := by
      intro before between later type id registered split reply hit
      obtain ⟨earlier, since, rfl, _, others⟩ :=
        registration_of_called before type id registered reply hit
      exact noRepeat earlier since between later type registered.handler id split reply others
    refine ⟨?_, ?_, ?_⟩
    · intro before between later type id registered split reply hit again
      exact absurd (newer_registration before between type id reply registered registered hit again
        (renewed before between later type id registered split reply hit)) (lt_irrefl _)
    · intro before between later type id registered split reply hit others
      obtain ⟨event, member, registers⟩ :=
        renewed before between later type id registered split reply hit
      exact absurd registers (others event member)
    · intro before between later type handler event _ registration others
      rcases registration with rfl | rfl
      · rw [List.append_cons, called_append _ between type 0 others, called_setHandler]
      · exact called_since before between type handler 0 others

/-- One registration and two replies to it, the second one after the
dispatch of the first has returned. -/
def repeatedReply : List (DispatcherEvent Unit) :=
  [.setHandlerFor .publishResponse (some ()) 1, .dispatch .publishResponse 1, .handlerReturned,
    .dispatchReturned, .dispatch .publishResponse 1]

/-- The second reply calls the handler again, with the same registration. -/
theorem repeated_reply_called_again :
    called (repeatedReply.take 1) .publishResponse 1 = .handler ⟨0, ()⟩ ∧
      called (repeatedReply.take 4) .publishResponse 1 = .handler ⟨0, ()⟩ ∧
      ¬ OneShot repeatedReply := by
  refine ⟨rfl, rfl, fun oneShot => ?_⟩
  exact oneShot.once (repeatedReply.take 1) [.handlerReturned, .dispatchReturned] []
    .publishResponse 1 ⟨0, ()⟩ rfl (by decide) rfl rfl

end DispatcherRun

end Sopmq
