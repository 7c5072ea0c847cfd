import Sopmq.UserAccount

/-!
# Asynchronous queries of the storage

A query is driven by three callbacks of the Cassandra driver: after the connection, after the
result and after the session is closed. Between them its state lives on the heap, together with
what the driver has handed out. Each of these objects is given back once, by its owner or by a
destructor. All of them belong to one query, so that the query has an account of what it holds: to
take an object that is held, to use or to give back one that is not, ends the run without a result.

A callback may be called at once when it is set, if its future is complete, or on a thread of the
driver. After it has set a callback no function touches the state of the query again. `after_result`
alone has something left to do then: it frees the result, which it owns itself, before or after the
callback that it has set. So its return is an event of its own.
-/

namespace Sopmq

/-- An object that a query takes from the heap or from the driver, and has
to give back. -/
inductive Resource where
  | qstate
  | connectFuture
  | session
  | statement
  | resultFuture
  | result
  | rows
  | closeFuture
deriving DecidableEq, Repr

namespace Resource

/-- Take an object. To take one that is held already is an error of the
program. -/
def take (resource : Resource) (held : List Resource) : Option (List Resource) :=
  if resource ∈ held then none else some (resource :: held)

/-- Give an object back. To give back one that is not held is an error of
the program. -/
def release (resource : Resource) (held : List Resource) : Option (List Resource) :=
  if resource ∈ held then some (held.erase resource) else none

/-- Use an object. To use one that is not held is an error of the
program. -/
def use (resource : Resource) (held : List Resource) : Option Unit :=
  if resource ∈ held then some () else none

/-- Give an object back if the pointer to it is not null, as the smart
pointers of the members do. -/
def releaseOwned (owned : Bool) (resource : Resource) (held : List Resource) :
    Option (List Resource) :=
  if owned then resource.release held else some held

end Resource

/-- The callbacks of the driver, in the order in which a query sets them. -/
inductive QueryCallback where
  | afterConnect
  | afterResult
  | afterSessionClosed
deriving DecidableEq, Repr

/-- `async_query_state`, with the objects that it holds, the callback that
the driver has still to call, whether `after_result` has still to free its
result, and what the result callback has been called with. A pointer is
given by whether it is null, and that of the statement by the strings that
are bound to it. -/
structure AsyncQuery where
  params : List Bytes
  error : Option StorageError
  connectFuture : Bool
  session : Bool
  statement : Option (List Bytes)
  resultFuture : Bool
  rows : Option (List UserRow)
  held : List Resource
  pending : Option QueryCallback
  returning : Bool
  calls : List AsyncQueryState

/-- What the driver completes a future with, whatever the service answers,
and the return of `after_result`. -/
inductive Completion where
  | connected (outcome : Except String Unit)
  | executed (outcome : Except String (List UserRow))
  | closed
  | returned

/-- The contents of a `std::string` up to its first zero byte, which is what
`c_str` hands on. -/
def cStr (text : Bytes) : Bytes := text.takeWhile (· ≠ 0)

namespace AsyncQuery

/-- A new `async_query_state` with its parameters, and `async_query`, which
connects. -/
def asyncQuery (params : List Bytes) : AsyncQuery where
  params := params
  error := none
  connectFuture := false
  session := false
  statement := none
  resultFuture := false
  rows := none
  held := [.connectFuture, .qstate]
  pending := some .afterConnect
  returning := false
  calls := []

/-- The result callback that `find_user` sets. It moves an error out of the
state, and otherwise reads a row, which needs the iterator and the result
that it runs over. -/
def resultCallback (qstate : AsyncQuery) : Option AsyncQuery :=
  match qstate.error with
  | some error =>
      some { qstate with error := none, calls := qstate.calls ++ [⟨some error, []⟩] }
  | none => do
      Resource.use .rows qstate.held
      Resource.use .result qstate.held
      let rows ← qstate.rows
      some { qstate with rows := some rows.tail, calls := qstate.calls ++ [⟨none, rows⟩] }

/-- `delete qstate`: the members are destroyed in reverse order, and then
the state itself is freed. -/
def delete (qstate : AsyncQuery) : Option AsyncQuery := do
  let held ← Resource.releaseOwned qstate.rows.isSome .rows qstate.held
  let held ← Resource.releaseOwned qstate.resultFuture .resultFuture held
  let held ← Resource.releaseOwned qstate.statement.isSome .statement held
  let held ← Resource.releaseOwned qstate.connectFuture .connectFuture held
  let held ← Resource.release .qstate held
  some { qstate with held := held }

/-- `cass_session_close`, which takes the session back, and the callback for
its future. -/
def closeSession (qstate : AsyncQuery) : Option AsyncQuery := do
  let held ← Resource.release .session qstate.held
  let held ← Resource.take .closeFuture held
  some { qstate with held := held, pending := some .afterSessionClosed }

/-- `after_session_closed`: the future is freed, and the query deletes
itself. -/
def afterSessionClosed (qstate : AsyncQuery) : Option AsyncQuery := do
  let held ← Resource.release .closeFuture qstate.held
  delete { qstate with held := held }

/-- `check_async_future_error`, for a future that has an error. Without a
session the query ends there. -/
def futureError (qstate : AsyncQuery) (message : String) : Option AsyncQuery := do
  let qstate := { qstate with error := some ⟨message⟩ }
  if !qstate.session then
    let qstate ← qstate.resultCallback
    qstate.delete
  else
    let qstate ← qstate.resultCallback
    qstate.closeSession

/-- `after_result`, up to the call that sets its callback. What is left is
the freeing of the result. -/
def afterResult (qstate : AsyncQuery) (outcome : Except String (List UserRow)) :
    Option AsyncQuery := do
  Resource.use .qstate qstate.held
  Resource.use .resultFuture qstate.held
  let qstate := { qstate with resultFuture := true }
  match outcome with
  | .error message => qstate.futureError message
  | .ok rows =>
      let held ← Resource.take .result qstate.held
      let held ← Resource.take .rows held
      let qstate ← { qstate with held := held, rows := some rows }.resultCallback
      let qstate ← qstate.closeSession
      some { qstate with returning := true }

/-- The return of `after_result`, which frees the result. The query may be
gone by then. -/
def resultFreed (qstate : AsyncQuery) : Option AsyncQuery := do
  let held ← Resource.release .result qstate.held
  some { qstate with held := held, returning := false }

/-- `after_connect`. The parameters are bound as C strings, and the
statement is executed. -/
def afterConnect (qstate : AsyncQuery) (outcome : Except String Unit) : Option AsyncQuery := do
  Resource.use .qstate qstate.held
  Resource.use .connectFuture qstate.held
  let qstate := { qstate with connectFuture := true }
  match outcome with
  | .error message => qstate.futureError message
  | .ok () =>
      let held ← Resource.take .session qstate.held
      let held ← Resource.take .statement held
      let held ← Resource.take .resultFuture held
      some
        { qstate with
          held := held
          session := true
          statement := some (qstate.params.map cStr)
          pending := some .afterResult }

/-- The driver completes a future and calls its callback, which it does
once, or `after_result` returns. -/
def complete (qstate : AsyncQuery) (completion : Completion) : Option AsyncQuery :=
  match qstate.pending, completion with
  | some .afterConnect, .connected outcome => afterConnect { qstate with pending := none } outcome
  | some .afterResult, .executed outcome => afterResult { qstate with pending := none } outcome
  | some .afterSessionClosed, .closed => afterSessionClosed { qstate with pending := none }
  | _, .returned => if qstate.returning then qstate.resultFreed else none
  | _, _ => none

/-- This may happen next: the driver completes the future whose callback is
set, with any outcome, or `after_result` returns where it has not. -/
def Awaits (qstate : AsyncQuery) : Completion → Prop
  | .connected _ => qstate.pending = some .afterConnect
  | .executed _ => qstate.pending = some .afterResult
  | .closed => qstate.pending = some .afterSessionClosed
  | .returned => qstate.returning = true

/-- The query waits for its result, with the session and the statement in
its hands. -/
def executing (params : List Bytes) : AsyncQuery where
  params := params
  error := none
  connectFuture := true
  session := true
  statement := some (params.map cStr)
  resultFuture := false
  rows := none
  held := [.resultFuture, .statement, .session, .connectFuture, .qstate]
  pending := some .afterResult
  returning := false
  calls := []

/-- The execution has failed, the callback of the query has been called with
the error, and the session is being closed. -/
def failing (params : List Bytes) (message : String) : AsyncQuery where
  params := params
  error := none
  connectFuture := true
  session := true
  statement := some (params.map cStr)
  resultFuture := true
  rows := none
  held := [.closeFuture, .resultFuture, .statement, .connectFuture, .qstate]
  pending := some .afterSessionClosed
  returning := false
  calls := [⟨some ⟨message⟩, []⟩]

/-- The callback of the query has been called with the rows, and the session
is being closed. As long as `after_result` has not returned, the result is
still there. -/
def closing (params : List Bytes) (rows : List UserRow) (returning : Bool) : AsyncQuery where
  params := params
  error := none
  connectFuture := true
  session := true
  statement := some (params.map cStr)
  resultFuture := true
  rows := some rows.tail
  held := [.closeFuture, .rows] ++ (if returning then [.result] else []) ++
    [.resultFuture, .statement, .connectFuture, .qstate]
  pending := some .afterSessionClosed
  returning := returning
  calls := [⟨none, rows⟩]

/-- What the result callback is told for an outcome of the execution: the
error, or the rows. -/
def told : Except String (List UserRow) → AsyncQueryState
  | .error message => ⟨some ⟨message⟩, []⟩
  | .ok rows => ⟨none, rows⟩

/-- The query has been deleted: its callback has been called once, the
driver has nothing to complete, and nothing is held but the result that
`after_result` may still have to free. -/
structure Finished (qstate : AsyncQuery) : Prop where
  held : qstate.held = if qstate.returning then [.result] else []
  pending : qstate.pending = none
  called : ∃ result, qstate.calls = [result]

/-- The states of a query between the callbacks of the driver. -/
inductive Phase (params : List Bytes) : AsyncQuery → Prop where
  | connecting : Phase params (asyncQuery params)
  | executing : Phase params (executing params)
  | failing (message : String) : Phase params (failing params message)
  | closing (rows : List UserRow) (returning : Bool) :
      Phase params (closing params rows returning)
  | finished (qstate : AsyncQuery) (ended : Finished qstate) : Phase params qstate

/-- A callback of a query adds to the calls and leaves a statement that is
there as it is. -/
structure Extends (qstate next : AsyncQuery) : Prop where
  calls : qstate.calls <+: next.calls
  statement : ∀ bound, qstate.statement = some bound → next.statement = some bound

/-- A connection that is made is followed by the execution of the
statement. -/
theorem complete_connected (params : List Bytes) :
    (asyncQuery params).complete (.connected (.ok ())) = some (executing params) := rfl

/-- A connection that fails ends the query, and its callback is told the
error. -/
theorem complete_refused (params : List Bytes) (message : String) :
    ∃ next, (asyncQuery params).complete (.connected (.error message)) = some next ∧
      Finished next ∧ next.calls = [⟨some ⟨message⟩, []⟩] :=
  ⟨_, rfl, ⟨rfl, rfl, ⟨_, rfl⟩⟩, rfl⟩

/-- The execution calls the callback of the query with its outcome, whatever
that is, and the session is closed. -/
theorem complete_executed (params : List Bytes) (outcome : Except String (List UserRow)) :
    ∃ next, (executing params).complete (.executed outcome) = some next ∧ Phase params next ∧
      next.calls = [told outcome] ∧ next.statement = some (params.map cStr) := by
  cases outcome with
  | error message => exact ⟨_, rfl, .failing message, rfl, rfl⟩
  | ok rows => exact ⟨_, rfl, .closing rows true, rfl, rfl⟩

/-- Once the session is closed, the query is deleted, with or without a
result that is still to be freed. -/
theorem complete_closed (params : List Bytes) (rows : List UserRow) (returning : Bool) :
    ∃ next, (closing params rows returning).complete .closed = some next ∧
      Finished next ∧ next.calls = [⟨none, rows⟩] ∧
      next.statement = some (params.map cStr) := by
  cases returning with
  | false => exact ⟨_, rfl, ⟨rfl, rfl, ⟨_, rfl⟩⟩, rfl, rfl⟩
  | true => exact ⟨_, rfl, ⟨rfl, rfl, ⟨_, rfl⟩⟩, rfl, rfl⟩

/-- The result of a query that has been deleted is freed all the same, as
`after_result` owns it. -/
theorem Finished.complete_returned {qstate : AsyncQuery} (ended : Finished qstate)
    (returning : qstate.returning = true) :
    ∃ next, qstate.complete .returned = some next ∧ Finished next ∧
      qstate.Extends next := by
  have held : qstate.held = [.result] := by rw [ended.held, if_pos returning]
  refine ⟨{ qstate with held := [], returning := false }, ?_,
    ⟨rfl, ended.pending, ended.called⟩, ⟨List.prefix_rfl, fun _ same => same⟩⟩
  simp [complete, ended.pending, returning, resultFreed, Resource.release, held]

/-- Whatever happens next to a query, the function that runs comes to its
end, and the query is in one of its states again. -/
theorem Phase.complete {params : List Bytes} {qstate : AsyncQuery} (phase : Phase params qstate)
    (completion : Completion) (awaits : qstate.Awaits completion) :
    ∃ next, qstate.complete completion = some next ∧ Phase params next ∧ qstate.Extends next := by
  cases phase with
  | connecting =>
    cases completion with
    | connected outcome =>
      cases outcome with
      | error message =>
        obtain ⟨next, moved, ended, -⟩ := complete_refused params message
        exact ⟨next, moved, .finished next ended, ⟨List.nil_prefix, fun _ none => by cases none⟩⟩
      | ok _ =>
        exact ⟨_, complete_connected params, .executing,
          ⟨List.nil_prefix, fun _ none => by cases none⟩⟩
    | executed outcome => cases awaits
    | closed => cases awaits
    | returned => cases awaits
  | executing =>
    cases completion with
    | connected outcome => cases awaits
    | executed outcome =>
      obtain ⟨next, moved, phase, -, statement⟩ := complete_executed params outcome
      exact ⟨next, moved, phase, ⟨List.nil_prefix, fun _ same => statement.trans same⟩⟩
    | closed => cases awaits
    | returned => cases awaits
  | failing message =>
    cases completion with
    | connected outcome => cases awaits
    | executed outcome => cases awaits
    | closed =>
      exact ⟨_, rfl, .finished _ ⟨rfl, rfl, ⟨_, rfl⟩⟩,
        ⟨List.prefix_rfl, fun _ same => same⟩⟩
    | returned => cases awaits
  | closing rows returning =>
    cases completion with
    | connected outcome => cases awaits
    | executed outcome => cases awaits
    | closed =>
      obtain ⟨next, moved, ended, calls, statement⟩ := complete_closed params rows returning
      exact ⟨next, moved, .finished next ended,
        ⟨calls ▸ List.prefix_rfl, fun _ same => statement.trans same⟩⟩
    | returned =>
      obtain rfl : returning = true := awaits
      exact ⟨_, rfl, .closing rows false, ⟨List.prefix_rfl, fun _ same => same⟩⟩
  | finished _ ended =>
    have none := ended.pending
    cases completion with
    | connected outcome => cases none.symm.trans awaits
    | executed outcome => cases none.symm.trans awaits
    | closed => cases none.symm.trans awaits
    | returned =>
      obtain ⟨next, moved, after, kept⟩ := ended.complete_returned awaits
      exact ⟨next, moved, .finished next after, kept⟩

/-- A step of a query is one that may happen: its callback is set, or
`after_result` has still to return. -/
theorem awaits_of_complete {qstate next : AsyncQuery} {completion : Completion}
    (moved : qstate.complete completion = some next) : qstate.Awaits completion := by
  unfold complete at moved
  split at moved
  · next waiting => exact waiting
  · next waiting => exact waiting
  · next waiting => exact waiting
  · split at moved
    · next returning => exact returning
    · cases moved
  · cases moved

/-- The callback has been called once, or not at all as long as the query
connects or executes. A query for which the driver has nothing to complete
has given everything back, once `after_result` has returned. -/
theorem Phase.called {params : List Bytes} {qstate : AsyncQuery} (phase : Phase params qstate) :
    (qstate.calls = [] ∨ ∃ result, qstate.calls = [result]) ∧
      (qstate.calls = [] ↔
        qstate.pending = some .afterConnect ∨ qstate.pending = some .afterResult) ∧
      (qstate.pending = none → qstate.returning = false → qstate.held = []) := by
  cases phase with
  | connecting => exact ⟨Or.inl rfl, ⟨fun _ => Or.inl rfl, fun _ => rfl⟩, by simp [asyncQuery]⟩
  | executing =>
    exact ⟨Or.inl rfl, ⟨fun _ => Or.inr rfl, fun _ => rfl⟩, by simp [AsyncQuery.executing]⟩
  | failing message =>
    exact ⟨Or.inr ⟨_, rfl⟩, by simp [AsyncQuery.failing], by simp [AsyncQuery.failing]⟩
  | closing rows returning =>
    exact ⟨Or.inr ⟨_, rfl⟩, by simp [AsyncQuery.closing], by simp [AsyncQuery.closing]⟩
  | finished _ ended =>
    obtain ⟨result, calls⟩ := ended.called
    refine ⟨Or.inr ⟨result, calls⟩, by simp [calls, ended.pending], fun _ returned => ?_⟩
    rw [ended.held, returned]
    rfl

/-- A query whose callback has been called does not call it again, and keeps
the statement that was bound for it. -/
theorem Phase.keeps_call {params : List Bytes} {qstate next : AsyncQuery}
    (phase : Phase params qstate) {completion : Completion}
    (completed : qstate.complete completion = some next) {bound : List Bytes}
    {result : AsyncQueryState} (statement : qstate.statement = some bound)
    (calls : qstate.calls = [result]) :
    next.statement = some bound ∧ next.calls = [result] := by
  obtain ⟨reached, same, kept, extended⟩ := phase.complete _ (awaits_of_complete completed)
  obtain rfl : reached = next := Option.some.inj (same.symm.trans completed)
  refine ⟨extended.statement bound statement, ?_⟩
  have prefixed := extended.calls
  rw [calls] at prefixed
  rcases kept.called.1 with none | ⟨last, once⟩
  · rw [none] at prefixed
    cases List.prefix_nil.mp prefixed
  · rw [once] at prefixed ⊢
    exact (prefixed.eq_of_length rfl).symm

/-- A query that waits for its result. -/
theorem Phase.eq_executing {params : List Bytes} {qstate : AsyncQuery}
    (phase : Phase params qstate) (waiting : qstate.pending = some .afterResult) :
    qstate = AsyncQuery.executing params := by
  cases phase with
  | connecting => cases waiting
  | executing => rfl
  | failing message => cases waiting
  | closing rows returning => cases waiting
  | finished _ ended => cases ended.pending.symm.trans waiting

end AsyncQuery

end Sopmq
