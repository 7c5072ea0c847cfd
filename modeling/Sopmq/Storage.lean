import Mathlib.Data.List.TakeWhile
import Sopmq.Machine
import Sopmq.StorageQuery

/-!
# The storage of the accounts

Accounts are written by `create_user`, which waits for each answer of the driver, and read by
`find_user`, whose queries are in progress side by side: each of them connects, executes and closes
its own session, in any order with the others and with what is written.

The service behind the driver is not part of the program. Every statement may succeed or fail, and
a query may be answered with any rows. What the program decides is what it binds to its statements,
and what it makes of the rows it gets. Where a synchronous call fails after it has connected, the
error is thrown past the call that closes the session.
-/

namespace Sopmq

/-- How far a synchronous call gets with the driver: no connection, a
statement that fails, or to its end. -/
inductive DriverAttempt where
  | refused (message : String)
  | failed (message : String)
  | succeeded
deriving DecidableEq, Repr

/-- The call fails with its session open, since it throws before it
closes. -/
def DriverAttempt.leavesOpen : DriverAttempt → Bool
  | failed _ => true
  | _ => false

/-- The queries of `find_user` in the order in which they were started, the
rows that `create_user` has handed to the driver, and the number of sessions
that synchronous calls have left open. -/
structure Storage where
  lookups : List AsyncQuery
  inserted : List UserRow
  openSessions : Nat

/-- What is done with the storage: calls from the node, what the driver
completes with any outcome, and the return of `after_result`. -/
inductive StorageEvent where
  | init (attempt : DriverAttempt)
  | createUser (usernameHash username pwHash : Bytes) (userLevel : Int32) (attempt : DriverAttempt)
  | findUser (usernameHash : Bytes)
  | connected (lookup : Nat) (outcome : Except String Unit)
  | executed (lookup : Nat) (outcome : Except String (List UserRow))
  | closed (lookup : Nat)
  | returned (lookup : Nat)

namespace Storage

/-- A storage that nothing was asked of yet, with no session open. -/
def empty : Storage where
  lookups := []
  inserted := []
  openSessions := 0

/-- Connect, execute and close: what is left of the storage, and the error
that is thrown. The rows are those that are bound to the statement, which is
executed once there is a connection. -/
def execute (storage : Storage) (attempt : DriverAttempt) (rows : List UserRow) :
    Storage × Except StorageError Unit :=
  match attempt with
  | .refused message => (storage, .error ⟨message⟩)
  | .failed message =>
      ({ storage with
          inserted := storage.inserted ++ rows
          openSessions := storage.openSessions + 1 }, .error ⟨message⟩)
  | .succeeded => ({ storage with inserted := storage.inserted ++ rows }, .ok ())

/-- `cassandra_storage::init`, whose statements create what is not there and
bind nothing. -/
def init (storage : Storage) (attempt : DriverAttempt) : Storage × Except StorageError Unit :=
  storage.execute attempt []

/-- `cassandra_storage::create_user`. The strings are bound as C strings, so
each is cut at its first zero byte. -/
def createUser (storage : Storage) (usernameHash username pwHash : Bytes) (userLevel : Int32)
    (attempt : DriverAttempt) : Storage × Except StorageError Unit :=
  storage.execute attempt
    [UserAccount.row ⟨cStr usernameHash, cStr username, cStr pwHash, userLevel⟩]

/-- `cassandra_storage::find_user`: a query is started, with the hash as its
one parameter. -/
def findUser (storage : Storage) (usernameHash : Bytes) : Storage :=
  { storage with lookups := storage.lookups ++ [AsyncQuery.asyncQuery [usernameHash]] }

/-- A query makes a step, and the others stay as they are. -/
def complete (storage : Storage) (lookup : Nat) (completion : Completion) : Option Storage := do
  let qstate ← storage.lookups[lookup]?
  let next ← qstate.complete completion
  some { storage with lookups := storage.lookups.set lookup next }

/-- One event. There is none if the driver does not do this, or if the
callback does what it must not. -/
def step (storage : Storage) : StorageEvent → Option Storage
  | .init attempt => some (storage.init attempt).1
  | .createUser usernameHash username pwHash userLevel attempt =>
      some (storage.createUser usernameHash username pwHash userLevel attempt).1
  | .findUser usernameHash => some (storage.findUser usernameHash)
  | .connected lookup outcome => storage.complete lookup (.connected outcome)
  | .executed lookup outcome => storage.complete lookup (.executed outcome)
  | .closed lookup => storage.complete lookup .closed
  | .returned lookup => storage.complete lookup .returned

/-- The event may happen: the driver completes what a query waits for, with
any outcome, or `after_result` returns. -/
def Enabled (storage : Storage) : StorageEvent → Prop
  | .init _ | .createUser _ _ _ _ _ | .findUser _ => True
  | .connected lookup _ =>
      ∃ qstate, storage.lookups[lookup]? = some qstate ∧ qstate.pending = some .afterConnect
  | .executed lookup _ =>
      ∃ qstate, storage.lookups[lookup]? = some qstate ∧ qstate.pending = some .afterResult
  | .closed lookup =>
      ∃ qstate, storage.lookups[lookup]? = some qstate ∧ qstate.pending = some .afterSessionClosed
  | .returned lookup =>
      ∃ qstate, storage.lookups[lookup]? = some qstate ∧ qstate.returning = true

/-- The users that were looked up, by their hashes, in the order of the
queries. -/
def lookedUp (events : List StorageEvent) : List Bytes :=
  events.filterMap fun event =>
    match event with
    | .findUser usernameHash => some usernameHash
    | _ => none

/-- The event is a synchronous call that fails with its session open. -/
def leavesOpen : StorageEvent → Bool
  | .init attempt => attempt.leavesOpen
  | .createUser _ _ _ _ attempt => attempt.leavesOpen
  | _ => false

/-- Every query is in one of its states, with the parameter it was started
with. -/
structure Orderly (storage : Storage) (hashes : List Bytes) : Prop where
  length : storage.lookups.length = hashes.length
  phase : ∀ (lookup : Nat) (qstate : AsyncQuery), storage.lookups[lookup]? = some qstate →
    ∃ usernameHash, hashes[lookup]? = some usernameHash ∧ AsyncQuery.Phase [usernameHash] qstate

/-- A query that makes a step is there, and only its own entry changes. -/
theorem complete_eq_some {storage after : Storage} {lookup : Nat} {completion : Completion}
    (moved : storage.complete lookup completion = some after) :
    ∃ qstate next, storage.lookups[lookup]? = some qstate ∧
      qstate.complete completion = some next ∧
      after = { storage with lookups := storage.lookups.set lookup next } := by
  obtain ⟨qstate, present, rest⟩ := Option.bind_eq_some_iff.mp moved
  obtain ⟨next, completed, same⟩ := Option.bind_eq_some_iff.mp rest
  exact ⟨qstate, next, present, completed, (Option.some.inj same).symm⟩

/-- A synchronous call leaves the queries alone. It leaves a session open
exactly if it fails after it has connected. -/
theorem execute_frame (storage : Storage) (attempt : DriverAttempt) (rows : List UserRow) :
    (storage.execute attempt rows).1.lookups = storage.lookups ∧
      (storage.execute attempt rows).1.openSessions =
        storage.openSessions + if attempt.leavesOpen then 1 else 0 := by
  cases attempt with
  | refused message => exact ⟨rfl, rfl⟩
  | failed message => exact ⟨rfl, rfl⟩
  | succeeded => exact ⟨rfl, rfl⟩

/-- What one event does to the queries: nothing, the start of a new one, or
a step of one of them. -/
inductive Change (storage after : Storage) : StorageEvent → Prop
  | called (event : StorageEvent) (quiet : lookedUp [event] = [])
      (lookups : after.lookups = storage.lookups) : Change storage after event
  | started (usernameHash : Bytes)
      (lookups : after.lookups = storage.lookups ++ [AsyncQuery.asyncQuery [usernameHash]]) :
      Change storage after (.findUser usernameHash)
  | completed (event : StorageEvent) (lookup : Nat) (completion : Completion)
      (quiet : lookedUp [event] = []) (moved : storage.complete lookup completion = some after) :
      Change storage after event

/-- Every event is one of these, and a session stays open for each call that
fails with its session open. -/
theorem step_change {storage after : Storage} {event : StorageEvent}
    (moved : storage.step event = some after) :
    Change storage after event ∧
      after.openSessions = storage.openSessions + if leavesOpen event then 1 else 0 := by
  have kept : ∀ {lookup : Nat} {completion : Completion},
      storage.complete lookup completion = some after →
        after.openSessions = storage.openSessions := by
    intro lookup completion completed
    obtain ⟨qstate, next, -, -, rfl⟩ := complete_eq_some completed
    rfl
  cases event with
  | init attempt =>
    cases moved
    obtain ⟨lookups, sessions⟩ := execute_frame storage attempt []
    exact ⟨.called _ rfl lookups, sessions⟩
  | createUser usernameHash username pwHash userLevel attempt =>
    cases moved
    obtain ⟨lookups, sessions⟩ := execute_frame storage attempt
      [UserAccount.row ⟨cStr usernameHash, cStr username, cStr pwHash, userLevel⟩]
    exact ⟨.called _ rfl lookups, sessions⟩
  | findUser usernameHash =>
    cases moved
    exact ⟨.started usernameHash rfl, rfl⟩
  | connected lookup outcome => exact ⟨.completed _ lookup _ rfl moved, kept moved⟩
  | executed lookup outcome => exact ⟨.completed _ lookup _ rfl moved, kept moved⟩
  | closed lookup => exact ⟨.completed _ lookup _ rfl moved, kept moved⟩
  | returned lookup => exact ⟨.completed _ lookup _ rfl moved, kept moved⟩

/-- A step of a query leaves it in one of its states, and the others where
they were. -/
theorem Orderly.complete {storage after : Storage} {hashes : List Bytes} {lookup : Nat}
    {completion : Completion} (orderly : storage.Orderly hashes)
    (moved : storage.complete lookup completion = some after) : after.Orderly hashes := by
  obtain ⟨qstate, next, present, completed, rfl⟩ := complete_eq_some moved
  obtain ⟨usernameHash, started, phase⟩ := orderly.phase lookup qstate present
  obtain ⟨reached, same, kept, -⟩ :=
    phase.complete _ (AsyncQuery.awaits_of_complete completed)
  obtain rfl : reached = next := Option.some.inj (same.symm.trans completed)
  refine ⟨(List.length_set).trans orderly.length, fun other found place => ?_⟩
  by_cases here : lookup = other
  · subst here
    rw [List.getElem?_set_self (List.getElem?_eq_some_iff.mp present).1] at place
    cases place
    exact ⟨usernameHash, started, kept⟩
  · rw [List.getElem?_set_ne here] at place
    exact orderly.phase other found place

/-- One event keeps every query in order, and adds the user of a query that
it starts. -/
theorem Orderly.step {storage after : Storage} {hashes : List Bytes} {event : StorageEvent}
    (orderly : storage.Orderly hashes) (moved : storage.step event = some after) :
    after.Orderly (hashes ++ lookedUp [event]) := by
  cases (step_change moved).1 with
  | called _ quiet lookups =>
    rw [quiet, List.append_nil]
    exact ⟨lookups ▸ orderly.length, lookups ▸ orderly.phase⟩
  | started usernameHash lookups =>
    refine ⟨by simp [lookups, lookedUp, orderly.length], fun lookup qstate place => ?_⟩
    rw [lookups, List.getElem?_append] at place
    rw [List.getElem?_append, ← orderly.length]
    split at place
    · next earlier =>
      rw [if_pos earlier]
      exact orderly.phase lookup qstate place
    · next latest =>
      rw [if_neg latest]
      rw [List.getElem?_singleton] at place
      obtain ⟨first, ⟨⟩⟩ := Option.ite_none_right_eq_some.mp place
      exact ⟨usernameHash, by simp [lookedUp, first], .connecting⟩
  | completed _ lookup completion quiet completed =>
    rw [quiet, List.append_nil]
    exact orderly.complete completed

/-- The users that are looked up in a run, by its last event. -/
theorem lookedUp_append (events : List StorageEvent) (event : StorageEvent) :
    lookedUp (events ++ [event]) = lookedUp events ++ lookedUp [event] :=
  List.filterMap_append

/-- A whole run keeps every query in order. By induction on its events. -/
theorem Orderly.run {storage after : Storage} {hashes : List Bytes} (events : List StorageEvent)
    (orderly : storage.Orderly hashes)
    (ran : Machine.run Storage.step storage events = some after) :
    after.Orderly (hashes ++ lookedUp events) := by
  refine Machine.run_invariant (fun past state => state.Orderly (hashes ++ lookedUp past)) ?_ ran
    (by simpa [lookedUp] using orderly)
  intro past before event next holds moved
  rw [lookedUp_append, ← List.append_assoc]
  exact holds.step moved

/-- In every run that begins with nothing, the queries are in order. -/
theorem orderly_of_run {storage : Storage} {events : List StorageEvent}
    (ran : Machine.run step empty events = some storage) : storage.Orderly (lookedUp events) := by
  have started : empty.Orderly [] := ⟨rfl, fun _ _ place => by cases place⟩
  exact started.run events ran

/-- The open sessions of a run are counted by the calls that left them open.
Nothing closes these. -/
theorem openSessions_of_run {storage after : Storage} (events : List StorageEvent)
    (ran : Machine.run step storage events = some after) :
    after.openSessions = storage.openSessions + events.countP leavesOpen := by
  refine Machine.run_invariant (fun past state =>
    state.openSessions = storage.openSessions + past.countP leavesOpen) ?_ ran rfl
  intro past before event next holds moved
  rw [(step_change moved).2, holds, List.countP_append, List.countP_singleton, Nat.add_assoc]

/-- What may happen to a query runs to its end, because the query is in one
of its states. -/
theorem Orderly.progress {storage : Storage} {hashes : List Bytes}
    (orderly : storage.Orderly hashes) (lookup : Nat) (qstate : AsyncQuery)
    (present : storage.lookups[lookup]? = some qstate) (completion : Completion)
    (awaits : qstate.Awaits completion) :
    ∃ next, storage.complete lookup completion = some next := by
  obtain ⟨usernameHash, -, phase⟩ := orderly.phase lookup qstate present
  obtain ⟨next, completed, -, -⟩ := phase.complete _ awaits
  exact ⟨{ storage with lookups := storage.lookups.set lookup next },
    by simp [Storage.complete, present, completed]⟩

/-- Whatever may happen to a storage whose queries are in order has a next
state: the calls always, and a completion where a query waits for it. -/
theorem Orderly.step_enabled {storage : Storage} {hashes : List Bytes}
    (orderly : storage.Orderly hashes) (event : StorageEvent) (enabled : storage.Enabled event) :
    ∃ next, storage.step event = some next := by
  cases event with
  | init attempt => exact ⟨_, rfl⟩
  | createUser usernameHash username pwHash userLevel attempt => exact ⟨_, rfl⟩
  | findUser usernameHash => exact ⟨_, rfl⟩
  | connected lookup outcome =>
    obtain ⟨qstate, present, waiting⟩ := enabled
    exact orderly.progress lookup qstate present _ waiting
  | executed lookup outcome =>
    obtain ⟨qstate, present, waiting⟩ := enabled
    exact orderly.progress lookup qstate present _ waiting
  | closed lookup =>
    obtain ⟨qstate, present, waiting⟩ := enabled
    exact orderly.progress lookup qstate present _ waiting
  | returned lookup =>
    obtain ⟨qstate, present, waiting⟩ := enabled
    exact orderly.progress lookup qstate present _ waiting

/-- Over every run of the storage, with any number of queries in progress
side by side and whatever the driver answers: what may happen next never
makes a function take an object twice, use one that is gone or free one
twice. The result callback of a query is called once, when the connection
fails or the result is there, and a query that is over has given back all
that it took. A session stays open for each synchronous call that failed
after it had connected, and for no other.

Proof: a query goes through a few states, in each of which what it holds is
known. The completions lead from one to the next, whatever the other queries
do. -/
theorem storage_orderly (events : List StorageEvent) (storage : Storage)
    (ran : Machine.run step empty events = some storage) :
    (∀ event, storage.Enabled event → ∃ next, storage.step event = some next) ∧
      (∀ (lookup : Nat) (qstate : AsyncQuery), storage.lookups[lookup]? = some qstate →
        (qstate.calls = [] ∨ ∃ result, qstate.calls = [result]) ∧
        (qstate.calls = [] ↔
          qstate.pending = some .afterConnect ∨ qstate.pending = some .afterResult) ∧
        (qstate.pending = none → qstate.returning = false → qstate.held = [])) ∧
      storage.openSessions = events.countP leavesOpen := by
  have orderly := orderly_of_run ran
  refine ⟨orderly.step_enabled, ?_, ?_⟩
  · intro lookup qstate present
    obtain ⟨usernameHash, -, phase⟩ := orderly.phase lookup qstate present
    exact phase.called
  · rw [openSessions_of_run events ran]
    exact Nat.zero_add _

/-- A user is written, with a statement that fails, while a query for
another one connects. The session of the query is closed before
`after_result` has freed its result. -/
def contested : List StorageEvent :=
  [.findUser [1], .createUser [1] [2] [3] 1 (.failed "timeout"), .connected 0 (.ok ()),
    .executed 0 (.ok []), .closed 0, .returned 0]

/-- The session of the failed call stays open, and the query has given back
what it took. -/
theorem storage_orderly_contested :
    ∃ storage qstate, Machine.run step empty contested = some storage ∧
      storage.openSessions = 1 ∧ storage.lookups[0]? = some qstate ∧ qstate.held = [] := by
  obtain ⟨-, orderly, sessions⟩ := storage_orderly contested _ rfl
  exact ⟨_, _, rfl, sessions, rfl, (orderly 0 _ rfl).2.2 rfl rfl⟩

/-- The result callback of the query has been called with this, and this is
bound to the statement that the query has executed. -/
def CalledWith (storage : Storage) (lookup : Nat) (bound : List Bytes)
    (result : AsyncQueryState) : Prop :=
  ∃ qstate, storage.lookups[lookup]? = some qstate ∧ qstate.statement = some bound ∧
    qstate.calls = [result]

/-- The callback of a query is not called again by a later step of any
query, its own included. -/
theorem CalledWith.complete {storage after : Storage} {hashes : List Bytes} {lookup other : Nat}
    {bound : List Bytes} {result : AsyncQueryState} {completion : Completion}
    (called : storage.CalledWith lookup bound result) (orderly : storage.Orderly hashes)
    (moved : storage.complete other completion = some after) :
    after.CalledWith lookup bound result := by
  obtain ⟨qstate, present, statement, calls⟩ := called
  obtain ⟨moving, next, there, completed, rfl⟩ := complete_eq_some moved
  by_cases here : other = lookup
  · subst here
    obtain rfl : qstate = moving := Option.some.inj (present.symm.trans there)
    obtain ⟨usernameHash, -, phase⟩ := orderly.phase other qstate present
    obtain ⟨bound, told⟩ := phase.keeps_call completed statement calls
    exact ⟨next, List.getElem?_set_self (List.getElem?_eq_some_iff.mp present).1, bound, told⟩
  · exact ⟨qstate, (List.getElem?_set_ne here).trans present, statement, calls⟩

/-- No event takes back what a callback was told, nor what was bound for
it. -/
theorem CalledWith.step {storage after : Storage} {hashes : List Bytes} {lookup : Nat}
    {bound : List Bytes} {result : AsyncQueryState} {event : StorageEvent}
    (called : storage.CalledWith lookup bound result) (orderly : storage.Orderly hashes)
    (moved : storage.step event = some after) : after.CalledWith lookup bound result := by
  cases (step_change moved).1 with
  | called _ quiet lookups =>
    obtain ⟨qstate, present, rest⟩ := called
    exact ⟨qstate, lookups ▸ present, rest⟩
  | started usernameHash lookups =>
    obtain ⟨qstate, present, rest⟩ := called
    have inside := (List.getElem?_eq_some_iff.mp present).1
    exact ⟨qstate, by rw [lookups, List.getElem?_append_left inside, present], rest⟩
  | completed _ other completion quiet completed => exact called.complete orderly completed

/-- Nor does a run of them. By induction on its events. -/
theorem CalledWith.run {storage after : Storage} {hashes : List Bytes} {lookup : Nat}
    {bound : List Bytes} {result : AsyncQueryState} (events : List StorageEvent)
    (called : storage.CalledWith lookup bound result) (orderly : storage.Orderly hashes)
    (ran : Machine.run Storage.step storage events = some after) :
    after.CalledWith lookup bound result := by
  have kept : after.Orderly (hashes ++ lookedUp events) ∧
      after.CalledWith lookup bound result := by
    refine Machine.run_invariant (fun past state =>
      state.Orderly (hashes ++ lookedUp past) ∧ state.CalledWith lookup bound result) ?_ ran
      ⟨by simpa [lookedUp] using orderly, called⟩
    rintro past before event next ⟨holds, calls⟩ moved
    rw [lookedUp_append, ← List.append_assoc]
    exact ⟨holds.step moved, calls.step holds moved⟩
  exact kept.2

/-- The callback of a query that was executed has been told what the driver
answered, whatever has happened since, and its statement was bound to the
hash of the user that it was started for. -/
theorem calledWith_of_executed {storage : Storage} {before after : List StorageEvent}
    {lookup : Nat} {outcome : Except String (List UserRow)}
    (ran : Machine.run step empty (before ++ .executed lookup outcome :: after) = some storage) :
    ∃ usernameHash, (lookedUp before)[lookup]? = some usernameHash ∧
      storage.CalledWith lookup [cStr usernameHash] (AsyncQuery.told outcome) := by
  rw [Machine.run_append] at ran
  obtain ⟨reached, first, rest⟩ := Option.bind_eq_some_iff.mp ran
  obtain ⟨next, moved, continued⟩ := Option.bind_eq_some_iff.mp rest
  have orderly := orderly_of_run first
  obtain ⟨qstate, done, present, completed, same⟩ := complete_eq_some moved
  obtain ⟨usernameHash, started, phase⟩ := orderly.phase lookup qstate present
  have waiting : qstate.pending = some .afterResult := AsyncQuery.awaits_of_complete completed
  obtain rfl := phase.eq_executing waiting
  obtain ⟨executed, answered, -, calls, statement⟩ :=
    AsyncQuery.complete_executed [usernameHash] outcome
  obtain rfl : executed = done := Option.some.inj (answered.symm.trans completed)
  have called : next.CalledWith lookup [cStr usernameHash] (AsyncQuery.told outcome) := by
    refine ⟨executed, ?_, statement, calls⟩
    rw [same]
    exact List.getElem?_set_self (List.getElem?_eq_some_iff.mp present).1
  exact ⟨usernameHash, started, called.run after (orderly.step moved) continued⟩

/-- A row that `create_user` hands to the driver has the strings of the
call, each up to its first zero byte. -/
theorem row_of_inserted {writer written : Storage} (usernameHash username pwHash : Bytes)
    (userLevel : Int32) (attempt : DriverAttempt) (row : UserRow)
    (bound : writer.step (.createUser usernameHash username pwHash userLevel attempt) =
      some written)
    (handed : written.inserted = writer.inserted ++ [row]) :
    row = UserAccount.row ⟨cStr usernameHash, cStr username, cStr pwHash, userLevel⟩ := by
  cases bound
  cases attempt with
  | refused message => simp [createUser, execute] at handed
  | failed message => simpa [createUser, execute, eq_comm] using handed
  | succeeded => simpa [createUser, execute, eq_comm] using handed

/-- A text without zero bytes is handed on as it is. -/
theorem cStr_eq_self (text : Bytes) (noZero : 0 ∉ text) : cStr text = text := by
  rw [cStr, List.takeWhile_eq_self_iff]
  intro byte member
  exact decide_eq_true fun zero => noZero (zero ▸ member)

end Storage

namespace UserAccount

open Storage

/-- `user_account::find`, for the outcome of its query: what `findCallback`
is called with. An error is handed on like a missing user. -/
def find (qstate : AsyncQueryState) : Bool × UserAccount :=
  let fur := findUser qstate
  if !fur.userFound then (false, {}) else (true, fur.account)

/-- The call of `create_user` by `user_account::create`, with the fields of
the account. -/
def createEvent (account : UserAccount) (attempt : DriverAttempt) : StorageEvent :=
  .createUser account.nameHash account.username account.pwHash account.userLevel attempt

/-- A row that `create_user` has bound for an account is read back as the
account. The row is the one that the call hands to the driver, on any
storage. A query for the name of the user binds the key of that row; and
when the driver answers the query with the row, in any run of the storage,
`find` hands on the account, with its name cut at the first zero byte, and a
user whose level is not zero is authorized, once, exactly for the good
response. The hash is encoded without zero bytes.

Proof: the callback of the query is told what the driver answered, whatever
else goes on. The strings of the row are the ones of the account, since only
the name may have a zero byte. -/
theorem created_account_found (crypto : Crypto)
    (encoded : ∀ data, 0 ∉ crypto.sha256HexString data) (userName password : Bytes)
    (userLevel : Int32) (attempt : DriverAttempt) (writer written : Storage) (row : UserRow)
    (bound : writer.step (createEvent (create crypto userName password userLevel) attempt) =
      some written)
    (handed : written.inserted = writer.inserted ++ [row])
    (before after : List StorageEvent) (lookup : Nat) (more : List UserRow) (storage : Storage)
    (asked : (lookedUp before)[lookup]? = some (crypto.sha256HexString userName))
    (ran : Machine.run Storage.step Storage.empty
      (before ++ .executed lookup (.ok (row :: more)) :: after) = some storage) :
    ∃ key result, row.unameHash = some key ∧ storage.CalledWith lookup [key] result ∧
      find result =
        (true, { create crypto userName password userLevel with username := cStr userName }) ∧
      (userLevel ≠ 0 → ∀ challengeBytes response,
        isAuthorized crypto result challengeBytes response =
          [decide (goodResponse crypto (create crypto userName password userLevel)
            challengeBytes = response)]) := by
  obtain ⟨usernameHash, started, called⟩ := calledWith_of_executed ran
  obtain rfl : usernameHash = crypto.sha256HexString userName :=
    Option.some.inj (started.symm.trans asked)
  have hash := cStr_eq_self _ (encoded userName)
  have inserted := row_of_inserted _ _ _ _ attempt row bound handed
  simp only [create, hash, cStr_eq_self _ (encoded password)] at inserted
  have found : findUser (AsyncQuery.told (.ok (row :: more))) =
      ⟨true, none, { create crypto userName password userLevel with
        username := cStr userName }⟩ := by
    rw [inserted]
    rfl
  refine ⟨_, _, congrArg UserRow.unameHash inserted, hash ▸ called, ?_, ?_⟩
  · rw [find, found]
    rfl
  · intro enabled challengeBytes response
    rw [isAuthorized_enabled, found]
    · rfl
    · rw [found]
      exact ⟨rfl, enabled⟩

/-- A hash that keeps the length, encoded as a letter for each byte. Its
texts have no zero bytes. -/
def letterCrypto : Crypto where
  sha256 := id
  hexEncode data := data.map fun _ => 65

/-- The row of a user whose name has a zero byte, as the answer to a query
for the user that connects while the row is written. -/
theorem created_account_found_cut :
    ∃ storage result, Machine.run Storage.step Storage.empty
        [.findUser [65, 65, 65], createEvent (create letterCrypto [7, 0, 8] [8, 9] 1) .succeeded,
          .connected 0 (.ok ()),
          .executed 0 (.ok [⟨some [65, 65, 65], some [7], some [65, 65], some 1⟩]), .closed 0] =
            some storage ∧
      storage.CalledWith 0 [[65, 65, 65]] result ∧
      find result = (true, ⟨[65, 65, 65], [7], [65, 65], 1⟩) := by
  have encoded : ∀ data, 0 ∉ letterCrypto.sha256HexString data := by
    intro data
    simp [Crypto.sha256HexString, letterCrypto]
  obtain ⟨_, result, ⟨⟩, called, found, -⟩ := created_account_found letterCrypto encoded [7, 0, 8]
    [8, 9] 1 .succeeded Storage.empty _ _ rfl rfl
    [.findUser [65, 65, 65], createEvent (create letterCrypto [7, 0, 8] [8, 9] 1) .succeeded,
      .connected 0 (.ok ())] [.closed 0] 0 [] _ rfl rfl
  exact ⟨_, result, rfl, called, found⟩

end UserAccount

end Sopmq
