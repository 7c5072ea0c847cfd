import Sopmq.ClientCluster

/-!
# Connecting to a cluster

`cluster::connect` checks for expired deaths, picks a live endpoint at random and connects to it in
two steps of the network: the name is resolved, and the first address it resolves to is connected
to. What comes of it goes to the handler. Any number of connects are in progress side by side, and
each step of each of them completes at any time.

`kill_endpoint` is private, and nothing calls it. The dead endpoints are therefore none, and a
connect that fails is not tried with another endpoint. The outcomes of the steps are kept as a
history.
-/

namespace Sopmq

universe u

/-- What the handler of a connect is called with: the endpoint of the
connection of a new session, if there is one, and the text of the error. -/
structure HandlerCall (Ptr : Type u) where
  session : Option Ptr
  error : String
deriving DecidableEq, Repr

/-- A step of the network that is in progress: a name is resolved, or an
address is connected to. -/
inductive NetworkStep where
  | resolving
  | connecting
deriving DecidableEq, Repr

/-- A call of `cluster::connect`: the endpoint of its context, if one was
picked, the step in progress, the outcomes of its steps so far, and the
calls of its handler. -/
structure ConnectCall (Ptr : Type u) where
  endpoint : Option Ptr
  pending : Option NetworkStep
  outcomes : List (Except String Unit)
  calls : List (HandlerCall Ptr)

/-- A cluster, and the connects in the order of the calls. Connects stay in
the list when they are over. -/
structure ConnectRun (Ptr : Type u) [LinearOrder Ptr] where
  cluster : ClientCluster Ptr
  connects : List (ConnectCall Ptr)

/-- A call of `connect`, with the clock that is read and the choice that is
made, or the completion of a step of one of the connects. -/
inductive ConnectEvent (Ptr : Type u) where
  | connect (clock : Ptr → Time) (choice : Nat)
  | resolved (connect : Nat) (outcome : Except String Unit)
  | connected (connect : Nat) (outcome : Except String Unit)

/-- `network_operation_result::from_error_code`, with the information of the
caller in front of the text of the error. -/
def fromErrorCode (info message : String) : Except String Unit := .error (info ++ ": " ++ message)

namespace ConnectCall

variable {Ptr : Type u}

/-- `cluster::connection_result`: the handler is called, with a session over
the connection or with the error. -/
def connectionResult (self : ConnectCall Ptr) (result : Except String Unit) : ConnectCall Ptr :=
  match result with
  | .ok () => { self with calls := self.calls ++ [⟨self.endpoint, ""⟩] }
  | .error what => { self with calls := self.calls ++ [⟨none, what⟩] }

/-- `connection_base::after_resolve`. An error ends the connect; else the
first address is connected to, and the others are not tried. -/
def afterResolve (self : ConnectCall Ptr) (outcome : Except String Unit) : ConnectCall Ptr :=
  match outcome with
  | .ok () => { self with pending := some .connecting }
  | .error message => self.connectionResult (fromErrorCode "name resolution failed" message)

/-- `connection_base::after_connect`: either way the connect has come to its
end. -/
def afterConnect (self : ConnectCall Ptr) (outcome : Except String Unit) : ConnectCall Ptr :=
  match outcome with
  | .ok () => self.connectionResult (.ok ())
  | .error message => self.connectionResult (fromErrorCode "connect failed" message)

/-- A step completes, and its callback is called. Only the step that is in
progress can complete. -/
def complete (self : ConnectCall Ptr) (finished : NetworkStep) (outcome : Except String Unit) :
    Option (ConnectCall Ptr) :=
  if self.pending = some finished then
    let waiting := { self with pending := none, outcomes := self.outcomes ++ [outcome] }
    some
      (match finished with
      | .resolving => waiting.afterResolve outcome
      | .connecting => waiting.afterConnect outcome)
  else none

/-- What the outcomes of its steps make of a connect to an endpoint. It is
stated by the outcomes alone, without the callbacks. -/
def verdict (ep : Ptr) : List (Except String Unit) → List (HandlerCall Ptr)
  | [.error message] => [⟨none, "name resolution failed: " ++ message⟩]
  | [.ok (), .error message] => [⟨none, "connect failed: " ++ message⟩]
  | [.ok (), .ok ()] => [⟨some ep, ""⟩]
  | _ => []

end ConnectCall

namespace ConnectRun

variable {Ptr : Type u} [LinearOrder Ptr]

/-- `cluster::try_connect_next_endpoint`. The choice is below the number of
live endpoints. Without a live endpoint the handler is called at once. -/
def tryConnectNextEndpoint (cluster : ClientCluster Ptr) (clock : Ptr → Time) (choice : Nat) :
    Option (ClientCluster Ptr × ConnectCall Ptr) :=
  let cluster := cluster.checkForExpiredDeaths clock
  if cluster.liveEndpoints.length = 0 then
    some (cluster, ⟨none, none, [], [⟨none, "no nodes available"⟩]⟩)
  else
    cluster.liveEndpoints[choice]?.map fun ep => (cluster, ⟨some ep, some .resolving, [], []⟩)

/-- A step of one of the connects completes, and the others stay as they
are. -/
def complete (self : ConnectRun Ptr) (connect : Nat) (finished : NetworkStep)
    (outcome : Except String Unit) : Option (ConnectRun Ptr) := do
  let call ← self.connects[connect]?
  let next ← call.complete finished outcome
  some { self with connects := self.connects.set connect next }

/-- What happens next: a connect is called, which checks for expired deaths
and picks an endpoint, or a step of one of the connects completes. -/
def step (self : ConnectRun Ptr) : ConnectEvent Ptr → Option (ConnectRun Ptr)
  | .connect clock choice =>
      (tryConnectNextEndpoint self.cluster clock choice).map fun tried =>
        { cluster := tried.1
          connects := self.connects ++ [tried.2] }
  | .resolved connect outcome => self.complete connect .resolving outcome
  | .connected connect outcome => self.complete connect .connecting outcome

/-- A cluster that `cluster_builder` has built, before any connect: all of
its endpoints are live. -/
def start (epCol : List Endpoint) (allocation : Allocation Ptr epCol.length) : ConnectRun Ptr where
  cluster := ClientCluster.create epCol allocation
  connects := []

end ConnectRun

namespace ConnectCall

variable {Ptr : Type u}

/-- How far a connect can have come, for a cluster with these endpoints: no
endpoint to pick, two steps in progress, and the two ends. -/
inductive Stage (endpoints : List Ptr) : ConnectCall Ptr → Prop where
  | unavailable (missing : endpoints = []) :
      Stage endpoints ⟨none, none, [], [⟨none, "no nodes available"⟩]⟩
  | resolving (ep : Ptr) (live : ep ∈ endpoints) :
      Stage endpoints ⟨some ep, some .resolving, [], []⟩
  | connecting (ep : Ptr) (live : ep ∈ endpoints) :
      Stage endpoints ⟨some ep, some .connecting, [.ok ()], []⟩
  | unresolved (ep : Ptr) (live : ep ∈ endpoints) (message : String) :
      Stage endpoints ⟨some ep, none, [.error message],
        [⟨none, "name resolution failed: " ++ message⟩]⟩
  | ended (ep : Ptr) (live : ep ∈ endpoints) (outcome : Except String Unit) :
      Stage endpoints ⟨some ep, none, [.ok (), outcome], verdict ep [.ok (), outcome]⟩

/-- A step that is in progress completes, and takes the connect to its next
stage, whatever the outcome. -/
theorem Stage.complete {endpoints : List Ptr} {call : ConnectCall Ptr}
    (stage : Stage endpoints call) (finished : NetworkStep) (outcome : Except String Unit)
    (pending : call.pending = some finished) :
    ∃ next, call.complete finished outcome = some next ∧ Stage endpoints next := by
  cases stage with
  | unavailable => cases pending
  | resolving ep live =>
    cases pending
    cases outcome with
    | ok _ => exact ⟨_, rfl, .connecting ep live⟩
    | error message => exact ⟨_, rfl, .unresolved ep live message⟩
  | connecting ep live =>
    cases pending
    cases outcome with
    | ok _ => exact ⟨_, rfl, .ended ep live (.ok ())⟩
    | error message => exact ⟨_, rfl, .ended ep live (.error message)⟩
  | unresolved => cases pending
  | ended => cases pending

/-- What a stage says about the handler: with whom the connect has to do,
that the handler has been called once exactly when nothing is in progress,
and with what. -/
theorem Stage.calls {endpoints : List Ptr} {call : ConnectCall Ptr} (stage : Stage endpoints call) :
    (call.endpoint = none ∧ endpoints = [] ∧ call.calls = [⟨none, "no nodes available"⟩] ∨
      ∃ ep ∈ endpoints, call.endpoint = some ep ∧ call.calls = verdict ep call.outcomes) ∧
    (call.pending = none ↔ ∃ result, call.calls = [result]) ∧
    (call.pending ≠ none → call.calls = []) := by
  cases stage with
  | unavailable missing => exact ⟨Or.inl ⟨rfl, missing, rfl⟩, by simp, by simp⟩
  | resolving ep live => exact ⟨Or.inr ⟨ep, live, rfl, rfl⟩, by simp, by simp⟩
  | connecting ep live => exact ⟨Or.inr ⟨ep, live, rfl, rfl⟩, by simp, by simp⟩
  | unresolved ep live message => exact ⟨Or.inr ⟨ep, live, rfl, rfl⟩, by simp, by simp⟩
  | ended ep live outcome =>
    refine ⟨Or.inr ⟨ep, live, rfl, rfl⟩, ?_, by simp⟩
    cases outcome <;> simp [verdict]

end ConnectCall

namespace ConnectRun

variable {Ptr : Type u} [LinearOrder Ptr]

/-- Without dead endpoints there is nothing to check, so the cluster stays
as it was built. -/
theorem checkForExpiredDeaths_create (epCol : List Endpoint)
    (allocation : Allocation Ptr epCol.length) (clock : Ptr → Time) :
    (ClientCluster.create epCol allocation).checkForExpiredDeaths clock =
      ClientCluster.create epCol allocation := rfl

/-- The cluster is as it was built, and every connect is at one of its
stages. Nothing kills an endpoint, so the first part is kept. -/
structure Settled (epCol : List Endpoint) (allocation : Allocation Ptr epCol.length)
    (run : ConnectRun Ptr) : Prop where
  cluster : run.cluster = ClientCluster.create epCol allocation
  stage : ∀ call ∈ run.connects, call.Stage (List.ofFn allocation.address)

/-- The completion of a step keeps this: one connect goes to its next stage,
and the others are where they were. -/
theorem Settled.complete {epCol : List Endpoint} {allocation : Allocation Ptr epCol.length}
    {run after : ConnectRun Ptr} {connect : Nat} {finished : NetworkStep}
    {outcome : Except String Unit} (settled : Settled epCol allocation run)
    (moved : run.complete connect finished outcome = some after) :
    Settled epCol allocation after := by
  obtain ⟨call, present, rest⟩ := Option.bind_eq_some_iff.mp moved
  obtain ⟨next, completed, same⟩ := Option.bind_eq_some_iff.mp rest
  cases same
  have pending : call.pending = some finished := (Option.ite_none_right_eq_some.mp completed).1
  obtain ⟨reached, equal, stage⟩ :=
    (settled.stage call (List.mem_of_getElem? present)).complete finished outcome pending
  obtain rfl : reached = next := Option.some.inj (equal.symm.trans completed)
  refine ⟨settled.cluster, fun other member => ?_⟩
  rcases List.mem_or_eq_of_mem_set member with old | new
  · exact settled.stage other old
  · exact new ▸ stage

/-- So does every event. A new connect begins at one of the first two
stages. -/
theorem Settled.step {epCol : List Endpoint} {allocation : Allocation Ptr epCol.length}
    {run after : ConnectRun Ptr} {event : ConnectEvent Ptr} (settled : Settled epCol allocation run)
    (moved : run.step event = some after) : Settled epCol allocation after := by
  cases event with
  | connect clock choice =>
    obtain ⟨tried, attempted, same⟩ := Option.map_eq_some_iff.mp moved
    rw [tryConnectNextEndpoint, settled.cluster, checkForExpiredDeaths_create] at attempted
    cases same
    refine ⟨?_, fun call member => ?_⟩
    · split at attempted
      · cases attempted
        rfl
      · obtain ⟨ep, -, rfl⟩ := Option.map_eq_some_iff.mp attempted
        rfl
    · rcases List.mem_append.mp member with old | new
      · exact settled.stage call old
      · rw [List.mem_singleton.mp new]
        split at attempted
        · next missing =>
          cases attempted
          exact .unavailable (List.length_eq_zero_iff.mp missing)
        · obtain ⟨ep, chosen, rfl⟩ := Option.map_eq_some_iff.mp attempted
          exact .resolving ep (List.mem_of_getElem? chosen)
  | resolved connect outcome => exact settled.complete moved
  | connected connect outcome => exact settled.complete moved

/-- Over every interleaving of connects and of the steps of the network: the
endpoints of the cluster stay live whatever happens to them. The handler of
a connect is called once, when no step of the connect is in progress any
more, and what it is called with is told by the outcomes of the steps of the
one endpoint that was picked: a session if both succeeded, else the text of
the first error. There is no endpoint to pick exactly when the cluster was
built without any. Each step that is in progress can complete. -/
theorem connects_settled (epCol : List Endpoint) (allocation : Allocation Ptr epCol.length)
    (run : ConnectRun Ptr) (reached : Machine.Reaches step (start epCol allocation) run) :
    run.cluster = ClientCluster.create epCol allocation ∧
    (∀ call ∈ run.connects,
      (call.endpoint = none ∧ epCol = [] ∧ call.calls = [⟨none, "no nodes available"⟩] ∨
        ∃ i, call.endpoint = some (allocation.address i) ∧
          call.calls = ConnectCall.verdict (allocation.address i) call.outcomes) ∧
      (call.pending = none ↔ ∃ result, call.calls = [result]) ∧
      (call.pending ≠ none → call.calls = [])) ∧
    ∀ (connect : Nat) (call : ConnectCall Ptr) (waiting : NetworkStep)
      (outcome : Except String Unit), run.connects[connect]? = some call →
      call.pending = some waiting → ∃ next, run.complete connect waiting outcome = some next := by
  have settled : Settled epCol allocation run :=
    reached.invariant (fun last : ConnectRun Ptr => Settled epCol allocation last)
      (fun _ _ _ before moved => before.step moved) ⟨rfl, fun _ member => by cases member⟩
  refine ⟨settled.cluster, ?_, ?_⟩
  · intro call member
    obtain ⟨told, once, silent⟩ := (settled.stage call member).calls
    refine ⟨?_, once, silent⟩
    rcases told with ⟨unpicked, missing, said⟩ | ⟨ep, live, picked, said⟩
    · refine Or.inl ⟨unpicked, ?_, said⟩
      rw [List.ofFn_eq_nil_iff] at missing
      exact List.length_eq_zero_iff.mp missing
    · obtain ⟨i, rfl⟩ := (List.mem_ofFn' _ _).mp live
      exact Or.inr ⟨i, picked, said⟩
  · intro connect call waiting outcome present pending
    obtain ⟨next, completed, -⟩ :=
      (settled.stage call (List.mem_of_getElem? present)).complete waiting outcome pending
    exact ⟨{ run with connects := run.connects.set connect next },
      by simp [complete, present, completed]⟩

/-- Two connects to one of two endpoints: the name of the one does not
resolve, and the other is picked all the same when it has refused before. -/
def refusals : List (ConnectEvent Nat) :=
  [.connect (fun _ => 0) 0, .connect (fun _ => 0) 1, .resolved 1 (.ok ()),
    .resolved 0 (.error "host not found"), .connected 1 (.error "refused"),
    .connect (fun _ => 1) 1]

/-- Both endpoints are still live after the failures, and the third connect
has the one that refused before it again. -/
theorem connects_settled_refusals :
    ∃ run, Machine.run step (start _ ClientCluster.twins) refusals = some run ∧
      run.cluster.liveEndpoints = [0, 1] ∧
      run.connects.map ConnectCall.calls =
        [[⟨none, "name resolution failed: host not found"⟩], [⟨none, "connect failed: refused"⟩],
          []] := by
  refine ⟨_, rfl, ?_, rfl⟩
  rw [(connects_settled _ ClientCluster.twins _
    (Machine.reaches_of_run step (start _ ClientCluster.twins) _ refusals rfl)).1]
  rfl

end ConnectRun

end Sopmq
