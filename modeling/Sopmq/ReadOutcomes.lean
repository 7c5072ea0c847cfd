import Mathlib.Data.List.TakeWhile
import Sopmq.MessageDispatcher
import Sopmq.MessageUtil

/-!
# What a read does

`messageutil::read_message` ends in one of two places. `on_read_error` hands the error to
the status callback and then to every handler of the dispatcher; `template_dispatch` parses
the payload, and either hands an error to the status callback alone, or reports success and
dispatches the message.

Parsing is an opaque test of a payload. The dispatcher is the one that the status callback
leaves behind, and the handlers called by `cancel_all_with_error` do not change its tables
while it goes through them.
-/

namespace Sopmq

namespace MessageType

/-- The cases of the switch in `messageutil::switch_dispatch`. Any other
value goes to its default. -/
def ofCode : UInt16 → Option MessageType
  | 1 => some getChallenge
  | 2 => some challengeResponse
  | 3 => some answerChallenge
  | 4 => some authAck
  | 5 => some publish
  | 6 => some publishResponse
  | 7 => some consumeFromQueue
  | 8 => some consumeResponse
  | 9 => some gossip
  | 10 => some proxyPublish
  | 11 => some proxyPublishResponse
  | 12 => some stamp
  | _ => none

/-- The bounds of the enumeration leave exactly the values of the switch, so
its default is never reached from a read. -/
theorem ofCode_eq_none_iff (code : UInt16) :
    ofCode code = none ↔ code ≤ invalid ∨ code ≥ invalidOutOfRange := by
  constructor
  · intro unknown
    by_contra inside
    have low : 1 ≤ code.toNat ∧ code.toNat ≤ 12 := by
      simp only [invalid, invalidOutOfRange, UInt16.le_iff_toNat_le, ge_iff_le] at inside
      simp at inside
      omega
    have known : ((List.range' 1 12).all fun n => (ofCode (UInt16.ofNat n)).isSome) = true := by
      decide
    have found := List.all_eq_true.mp known code.toNat (List.mem_range'_1.mpr ⟨low.1, by omega⟩)
    rw [UInt16.ofNat_toNat, unknown] at found
    exact absurd found (by decide)
  · intro outside
    unfold ofCode
    split <;> first | rfl | exact absurd outside (by decide)

end MessageType

/-- `network_operation_result::success`, which carries no text. -/
def NetworkOperationResult.success : NetworkOperationResult := ⟨.none, ""⟩

namespace MessageDispatcher

variable {H : Type}

/-- Whether `cancel_all_with_error` meets an empty function, which raises
there and then. -/
def cancelRaises (dispatcher : MessageDispatcher H)
    (order : MessageType → KeyedMap.Iteration UInt32 (Option H)) : Bool :=
  (dispatcher.cancelVisits order).any Option.isNone

/-- No stored function is empty, so that every one of them may be called. -/
def Callable (dispatcher : MessageDispatcher H) : Prop :=
  ∀ type id, (dispatcher.handlers type).find id ≠ some none

/-- The calls are one of each registered handler, in any order. A function
registered twice is called twice. -/
def EachOnce (dispatcher : MessageDispatcher H) (calls : List H) : Prop :=
  ∃ entries : List ((MessageType × UInt32) × H),
    (entries.map Prod.fst).Nodup ∧
    (∀ type id handler, ((type, id), handler) ∈ entries ↔
      (dispatcher.handlers type).find id = some (some handler)) ∧
    calls = entries.map Prod.snd

/-- The stored functions with their types and identifiers, in the order of
`cancel_all_with_error`. -/
def stored (dispatcher : MessageDispatcher H)
    (order : MessageType → KeyedMap.Iteration UInt32 (Option H)) :
    List ((MessageType × UInt32) × Option H) :=
  cancelOrder.flatMap fun type =>
    ((order type).visit (dispatcher.handlers type)).map fun entry => ((type, entry.1), entry.2)

variable (dispatcher : MessageDispatcher H)
  (order : MessageType → KeyedMap.Iteration UInt32 (Option H))

/-- Every type has its table gone through. -/
theorem mem_cancelOrder (type : MessageType) : type ∈ cancelOrder := by
  cases type <;> decide

/-- The functions that are come to are the stored ones, in this order. -/
theorem stored_functions :
    dispatcher.cancelVisits order = (dispatcher.stored order).map Prod.snd := by
  simp [cancelVisits, stored, List.map_flatMap, Function.comp_def]

/-- What is stored is what the tables hold, in whatever order they are gone
through. -/
theorem mem_stored_iff (type : MessageType) (id : UInt32) (function : Option H) :
    ((type, id), function) ∈ dispatcher.stored order ↔
      (dispatcher.handlers type).find id = some function := by
  rw [← KeyedMap.mem_entries_iff, ← ((order type).each _).mem_iff, stored, List.mem_flatMap]
  constructor
  · rintro ⟨other, -, member⟩
    obtain ⟨entry, filed, same⟩ := List.mem_map.mp member
    cases same
    exact filed
  · intro filed
    exact ⟨type, mem_cancelOrder type, List.mem_map.mpr ⟨_, filed, rfl⟩⟩

/-- No type and identifier come twice. -/
theorem stored_distinct : ((dispatcher.stored order).map Prod.fst).Nodup := by
  rw [stored, List.map_flatMap, List.nodup_flatMap]
  constructor
  · intro type _
    rw [List.map_map]
    have distinct := (((order type).each (dispatcher.handlers type)).map Prod.fst).nodup_iff.mpr
      (dispatcher.handlers type).distinct
    have keys := distinct.map (Prod.mk_right_injective type)
    rwa [List.map_map] at keys
  · refine List.Pairwise.imp ?_ (by decide : cancelOrder.Nodup)
    intro first second different key inFirst inSecond
    simp only [List.map_map, List.mem_map, Function.comp_apply] at inFirst inSecond
    obtain ⟨_, -, rfl⟩ := inFirst
    obtain ⟨_, -, same⟩ := inSecond
    exact different (congrArg Prod.fst same).symm

/-- An empty function is met if one is stored, whatever the order. -/
theorem cancelRaises_iff :
    dispatcher.cancelRaises order = true ↔ ¬ dispatcher.Callable := by
  rw [cancelRaises, stored_functions, List.any_map, List.any_eq_true]
  constructor
  · rintro ⟨⟨⟨type, id⟩, function⟩, member, empty⟩ callable
    rw [Function.comp_apply, Option.isNone_iff_eq_none] at empty
    exact callable type id ((dispatcher.mem_stored_iff order type id none).mp (empty ▸ member))
  · intro uncallable
    simp only [Callable, not_forall, not_not] at uncallable
    obtain ⟨type, id, found⟩ := uncallable
    exact ⟨((type, id), none), (dispatcher.mem_stored_iff order type id none).mpr found, rfl⟩

variable {dispatcher}

/-- Without empty functions every handler is called, whatever the order of
the tables. -/
theorem Callable.cancelAllWithError (callable : dispatcher.Callable) :
    dispatcher.EachOnce (dispatcher.cancelAllWithError order) := by
  have full : dispatcher.stored order ∈ Set.range (List.map
      fun entry : (MessageType × UInt32) × H => (entry.1, some entry.2)) := by
    rw [Set.range_list_map]
    rintro ⟨⟨type, id⟩, function⟩ member
    have found := (dispatcher.mem_stored_iff order type id function).mp member
    cases function with
    | none => exact absurd found (callable type id)
    | some handler => exact ⟨((type, id), handler), rfl⟩
  obtain ⟨entries, listed⟩ := full
  refine ⟨entries, ?_, fun type id handler => ?_, ?_⟩
  · have distinct := dispatcher.stored_distinct order
    rwa [← listed, List.map_map] at distinct
  · rw [← dispatcher.mem_stored_iff order, ← listed]
    simp
  · rw [MessageDispatcher.cancelAllWithError, stored_functions, ← listed]
    rw [List.map_map, List.takeWhile_eq_self_iff.mpr (List.forall_mem_map.mpr fun _ _ => rfl)]
    simp [Function.comp_def]

end MessageDispatcher

namespace MessageUtil

open ByteOrder

/-- What the caller of `read_message` and the handlers see of a read. A
cancelled handler gets the error and a null message. -/
inductive ReadEffect (H : Type) where
  | statusCallback (result : NetworkOperationResult)
  | dispatch (type : MessageType) (messageBuffer : Bytes)
  | cancel (handler : H) (result : NetworkOperationResult)
  | badFunctionCall
  | runtimeError (what : String)
deriving DecidableEq, Repr

variable {H : Type}

/-- The effect is a call of the status callback. -/
def ReadEffect.isStatusCallback : ReadEffect H → Bool
  | .statusCallback _ => true
  | _ => false

/-- `messageutil::on_read_error`: the status callback first, and then the
handlers up to an empty one. -/
def onReadError (dispatcher : MessageDispatcher H)
    (order : MessageType → KeyedMap.Iteration UInt32 (Option H)) (error : NetworkOperationResult) :
    List (ReadEffect H) :=
  .statusCallback error :: ((dispatcher.cancelAllWithError order).map (.cancel · error) ++
    if dispatcher.cancelRaises order then [.badFunctionCall] else [])

/-- `messageutil::template_dispatch`. A payload that does not parse is
reported to the status callback alone. -/
def templateDispatch (parses : MessageType → Bytes → Bool) (type : MessageType)
    (messageBuffer : Bytes) : List (ReadEffect H) :=
  if !parses type messageBuffer then
    [.statusCallback ⟨.network, "Unable to parse new message of type " ++ toString type.code ++
      " message corrupted?"⟩]
  else
    [.statusCallback .success, .dispatch type messageBuffer]

/-- `messageutil::switch_dispatch`, whose default raises. -/
def switchDispatch (parses : MessageType → Bytes → Bool) (type : UInt16) (messageBuffer : Bytes) :
    List (ReadEffect H) :=
  match MessageType.ofCode type with
  | some type => templateDispatch parses type messageBuffer
  | none =>
      [.runtimeError ("messageutil::switch_dispatch() unhandled message type " ++ toString type)]

/-- One `messageutil::read_message` call, to its end, on a stream that is
followed by its end. -/
def readEffects (host : Host) (maxSize : UInt32) (parses : MessageType → Bytes → Bool)
    (dispatcher : MessageDispatcher H)
    (order : MessageType → KeyedMap.Iteration UInt32 (Option H)) (stream : Bytes) :
    List (ReadEffect H) :=
  match (readMessage host maxSize stream).outcome with
  | .error error => onReadError dispatcher order error
  | .content type messageBuffer => switchDispatch parses type messageBuffer

/-- What a stream begins with: a message, or an error of this type. -/
inductive Meaning where
  | message (type : MessageType) (payload : Bytes)
  | error (type : ErrorType)
deriving DecidableEq, Repr

/-- The meaning of a stream, by its bytes alone. The parts of a frame are
judged in the order in which they arrive. -/
def meaning (maxSize : UInt32) (parses : MessageType → Bytes → Bool) (stream : Bytes) : Meaning :=
  if stream.length < 2 then .error .network
  else
    match MessageType.ofCode (announcedType stream) with
    | none => .error .invalidType
    | some type =>
        if stream.length < 6 then .error .network
        else if announcedSize stream > maxSize then .error .tooLarge
        else if stream.length < 6 + (announcedSize stream).toNat then .error .network
        else if parses type (announcedPayload stream) then .message type (announcedPayload stream)
        else .error .parse

/-- The effects that a meaning asks for. A message is reported as a success
and dispatched. An error is reported under its type, and every registered
handler is called with it once. -/
def AsMeant (dispatcher : MessageDispatcher H) : Meaning → List (ReadEffect H) → Prop
  | .message type payload, effects =>
      effects = [.statusCallback .success, .dispatch type payload]
  | .error type, effects =>
      ∃ error calls, error.errorType = type ∧ dispatcher.EachOnce calls ∧
        effects = .statusCallback error :: calls.map (.cancel · error)

/-- The type under which `on_read_error` hears of an error. Only one type is
reported as another. -/
def reportedType : ErrorType → ErrorType
  | .tooLarge => .invalidType
  | type => type

/-- Every error but that of a message which is too large is reported under
its own type. -/
theorem reportedType_eq_iff (type : ErrorType) : reportedType type = type ↔ type ≠ .tooLarge := by
  cases type <;> simp [reportedType]

/-- The effects that a read has. A payload that does not parse is reported
as a network error, and no handler hears of it. -/
inductive Performed (dispatcher : MessageDispatcher H)
    (order : MessageType → KeyedMap.Iteration UInt32 (Option H)) :
    Meaning → List (ReadEffect H) → Prop
  | message (type : MessageType) (payload : Bytes) :
      Performed dispatcher order (.message type payload)
        [.statusCallback .success, .dispatch type payload]
  | readError (type : ErrorType) (what : String) (framing : type ≠ .parse) :
      Performed dispatcher order (.error type)
        (onReadError dispatcher order ⟨reportedType type, what⟩)
  | parseError (what : String) :
      Performed dispatcher order (.error .parse) [.statusCallback ⟨.network, what⟩]

variable (dispatcher : MessageDispatcher H)
  (order : MessageType → KeyedMap.Iteration UInt32 (Option H))

/-- Every read has the effects of its meaning, by the cases of the read. -/
theorem readEffects_performed (host : Host) (maxSize : UInt32)
    (parses : MessageType → Bytes → Bool) (stream : Bytes) :
    Performed dispatcher order (meaning maxSize parses stream)
      (readEffects host maxSize parses dispatcher order stream) := by
  rw [readEffects, readMessage_eq, meaning]
  by_cases untyped : stream.length < 2
  · rw [if_pos untyped, if_pos untyped]
    exact .readError .network _ (by decide)
  rw [if_neg untyped, if_neg untyped]
  cases known : MessageType.ofCode (announcedType stream) with
  | none =>
    rw [if_pos ((MessageType.ofCode_eq_none_iff _).mp known)]
    exact .readError .invalidType _ (by decide)
  | some type =>
    have valid : ¬ (announcedType stream ≤ MessageType.invalid ∨
        announcedType stream ≥ MessageType.invalidOutOfRange) := by
      rw [← MessageType.ofCode_eq_none_iff, known]
      exact Option.some_ne_none type
    rw [if_neg valid]
    by_cases unsized : stream.length < 6
    · simp only [if_pos unsized]
      exact .readError .network _ (by decide)
    by_cases large : announcedSize stream > maxSize
    · simp only [if_neg unsized, if_pos large]
      exact .readError .tooLarge _ (by decide)
    by_cases incomplete : stream.length < 6 + (announcedSize stream).toNat
    · simp only [if_neg unsized, if_neg large, if_pos incomplete]
      exact .readError .network _ (by decide)
    simp only [if_neg unsized, if_neg large, if_neg incomplete, switchDispatch, known,
      templateDispatch]
    cases parses type (announcedPayload stream) with
    | false => exact .parseError _
    | true => exact .message type _

variable {dispatcher} in
/-- An error that is reported as meant has the type that is meant. -/
theorem AsMeant.errorType {type : ErrorType} {error : NetworkOperationResult}
    {later : List (ReadEffect H)}
    (meant : AsMeant dispatcher (.error type) (.statusCallback error :: later)) :
    error.errorType = type := by
  obtain ⟨reported, calls, typed, -, same⟩ := meant
  obtain rfl := ReadEffect.statusCallback.inj (List.cons.inj same).1
  exact typed

/-- The effects of `on_read_error` are those that are meant if its type is,
and no stored function is empty. -/
theorem onReadError_asMeant_iff (type : ErrorType) (error : NetworkOperationResult) :
    AsMeant dispatcher (.error type) (onReadError dispatcher order error) ↔
      error.errorType = type ∧ dispatcher.Callable := by
  constructor
  · intro meant
    refine ⟨meant.errorType, ?_⟩
    by_contra uncallable
    obtain ⟨reported, calls, -, -, same⟩ := meant
    have raised : (.badFunctionCall : ReadEffect H) ∈ onReadError dispatcher order error := by
      rw [onReadError, if_pos ((dispatcher.cancelRaises_iff order).mpr uncallable)]
      simp
    simp [same] at raised
  · rintro ⟨typed, callable⟩
    refine ⟨error, _, typed, callable.cancelAllWithError order, ?_⟩
    rw [onReadError, if_neg (mt (dispatcher.cancelRaises_iff order).mp (not_not.mpr callable)),
      List.append_nil]

/-- It calls the status callback once. -/
theorem onReadError_statusCallbacks (error : NetworkOperationResult) :
    (onReadError dispatcher order error).countP ReadEffect.isStatusCallback = 1 := by
  have others : ((dispatcher.cancelAllWithError order).map (ReadEffect.cancel · error)).countP
      ReadEffect.isStatusCallback = 0 := by
    simp [List.countP_eq_zero, ReadEffect.isStatusCallback]
  rw [onReadError, List.countP_cons, List.countP_append, others]
  split <;> rfl

/-- It dispatches no message. -/
theorem dispatch_notMem_onReadError (error : NetworkOperationResult) (type : MessageType)
    (payload : Bytes) : .dispatch type payload ∉ onReadError dispatcher order error := by
  unfold onReadError
  split <;> simp

/-- Every read makes one status call, and dispatches a message exactly when
the stream begins with it. The effects are those that are meant unless the
frame is oversized, its payload does not parse, or an error meets an empty
function among the registered ones. The order in which the tables of the
dispatcher are gone through does not matter. -/
theorem read_as_meant_iff (host : Host) (maxSize : UInt32) (parses : MessageType → Bytes → Bool)
    (dispatcher : MessageDispatcher H)
    (order : MessageType → KeyedMap.Iteration UInt32 (Option H)) (stream : Bytes) :
    (readEffects host maxSize parses dispatcher order stream).countP
      ReadEffect.isStatusCallback = 1 ∧
    (∀ type payload,
      .dispatch type payload ∈ readEffects host maxSize parses dispatcher order stream ↔
        meaning maxSize parses stream = .message type payload) ∧
    (AsMeant dispatcher (meaning maxSize parses stream)
        (readEffects host maxSize parses dispatcher order stream) ↔
      meaning maxSize parses stream ≠ .error .tooLarge ∧
      meaning maxSize parses stream ≠ .error .parse ∧
      ((∃ type, meaning maxSize parses stream = .error type) → dispatcher.Callable)) := by
  have performed := readEffects_performed dispatcher order host maxSize parses stream
  generalize readEffects host maxSize parses dispatcher order stream = effects at performed ⊢
  generalize meaning maxSize parses stream = meant at performed ⊢
  cases performed with
  | message type payload =>
    refine ⟨rfl, fun other bytes => ?_, ?_⟩
    · simp [eq_comm]
    · exact iff_of_true rfl ⟨by simp, by simp, by simp⟩
  | readError type what framing =>
    refine ⟨onReadError_statusCallbacks _ _ _, fun other bytes => ?_, ?_⟩
    · exact iff_of_false (dispatch_notMem_onReadError _ _ _ _ _) (by simp)
    · rw [onReadError_asMeant_iff, reportedType_eq_iff]
      simp [framing]
  | parseError what =>
    refine ⟨rfl, fun other bytes => by simp, iff_of_false ?_ fun right => right.2.1 rfl⟩
    intro meant
    cases meant.errorType

/-- A dispatcher with one handler, which waits for the reply to message
1. -/
def waitingDispatcher : MessageDispatcher Unit :=
  MessageDispatcher.create.setHandlerFor .authAck (some ()) 1

/-- The tables are gone through as they are listed, which is one of the
orders. -/
def listed : MessageType → KeyedMap.Iteration UInt32 (Option Unit) := fun _ => .listed

/-- The header of an AuthAck of 5 bytes. The payload does not matter. -/
def largeFrame : Bytes := [0, 4, 0, 0, 0, 5]

/-- An AuthAck of one byte, with its header. -/
def smallFrame : Bytes := [0, 4, 0, 0, 0, 1, 255]

/-- Where 4 bytes are allowed and nothing parses, the large frame is
reported as an invalid type. The small one is reported as a network error,
and the handler that waits is not called. -/
theorem oversized_and_unparsable_frames :
    (meaning 4 (fun _ _ => false) largeFrame = .error .tooLarge ∧
      readEffects .little 4 (fun _ _ => false) waitingDispatcher listed largeFrame =
        [.statusCallback ⟨.invalidType, "Message was too large"⟩,
          .cancel () ⟨.invalidType, "Message was too large"⟩] ∧
      ¬ AsMeant waitingDispatcher (meaning 4 (fun _ _ => false) largeFrame)
        (readEffects .little 4 (fun _ _ => false) waitingDispatcher listed largeFrame)) ∧
    meaning 4 (fun _ _ => false) smallFrame = .error .parse ∧
      readEffects .little 4 (fun _ _ => false) waitingDispatcher listed smallFrame =
        [.statusCallback
          ⟨.network, "Unable to parse new message of type 4 message corrupted?"⟩] ∧
      ¬ AsMeant waitingDispatcher (meaning 4 (fun _ _ => false) smallFrame)
        (readEffects .little 4 (fun _ _ => false) waitingDispatcher listed smallFrame) := by
  refine ⟨⟨by decide, by decide, ?_⟩, by decide, by decide, ?_⟩
  · intro meant
    cases @AsMeant.errorType Unit waitingDispatcher .tooLarge _ _ meant
  · intro meant
    cases @AsMeant.errorType Unit waitingDispatcher .parse _ _ meant

end MessageUtil

end Sopmq
