import Sopmq.ConnectionIn
import Mathlib.Data.Finset.Basic

/-!
# The connections of the server

`server` accepts connections one after the other and keeps the started ones in the set
`_connections`. A connection is known by its place in the order of the accepts. It enters
the set in `connection_in::start`, after its endpoint has been resolved. When the endpoint
of the socket is gone by then, `remote_endpoint` raises a `boost::system::system_error`.
`handle_accept` catches a `network_error` only, so that the exception leaves it before the
next accept is started, and leaves `io_service::run` too. `main` ends there; whether another
caller runs the io service again, for the connections that it has, is left open.

`connection_terminated` takes a connection out of the set. Nothing calls it:
`connection_in::handle_error`, through which every connection is closed, only closes the
socket. It is therefore no event here, and the set only grows.
-/

namespace Sopmq

/-- `server`, with every connection that it has accepted; one that has not
been started has no state. -/
structure Server where
  connections : List (Option ConnectionIn)
  tracked : Finset Nat
  accepting : Bool
  stopping : Bool

/-- What happens to a server: an accept completes, the server is stopped, or
something happens to one of the connections. -/
inductive ServerEvent where
  | accepted (error : Bool) (resolved : Bool)
  | stop
  | connection (index : Nat) (event : IncomingEvent)

namespace Server

/-- `server::start`: the first accept is in progress, and there are no
connections. -/
def start : Server where
  connections := []
  tracked := ∅
  accepting := true
  stopping := false

/-- `server::connection_started`: the connection is put into the set. -/
def connectionStarted (server : Server) (index : Nat) : Server :=
  { server with tracked := insert index server.tracked }

/-- `connection_in::start`, for the connection that has just been accepted.
When its endpoint cannot be resolved, the exception leaves before the
connection is in the set. -/
def startConnection (server : Server) (resolved : Bool) : Server :=
  if resolved then
    { server.connectionStarted server.connections.length with
      connections := server.connections ++ [some ConnectionIn.start] }
  else
    { server with connections := server.connections ++ [none], accepting := false }

/-- `server::handle_accept`. The next accept is started unless the server
stops or an exception leaves the function. -/
def handleAccept (server : Server) (error resolved : Bool) : Server :=
  if server.stopping then { server with accepting := false }
  else if error then server
  else server.startConnection resolved

/-- What an event does to a server. An accept completes only where one is in
progress, and only a connection that has been started makes steps. -/
def step (crypto : Crypto) (settings : AuthSettings) (server : Server) :
    ServerEvent → Option Server
  | .accepted error resolved =>
      if server.accepting then some (server.handleAccept error resolved) else none
  | .stop => some { server with stopping := true }
  | .connection index event =>
      match server.connections[index]? with
      | some (some conn) =>
          (conn.step crypto settings event).map fun after =>
            { server with connections := server.connections.set index (some after) }
      | _ => none

/-- What happens to the connection at an index in the course of a run, in
order. -/
def addressed (index : Nat) (events : List ServerEvent) : List IncomingEvent :=
  events.filterMap fun
    | .connection place event => if place = index then some event else none
    | _ => none

/-- The connection at the index has been started, and is now this one. -/
def Started (server : Server) (index : Nat) (conn : ConnectionIn) : Prop :=
  server.connections[index]? = some (some conn)

/-- The set holds exactly the connections that have been started and not
been closed. This is what the set is for. -/
def TracksOpen (server : Server) : Prop :=
  ∀ index, index ∈ server.tracked ↔
    ∃ conn, server.Started index conn ∧ conn.connection.closed = false

/-- The set holds every connection that has been started, closed or not, and
no other. -/
def TracksStarted (server : Server) : Prop :=
  ∀ index, index ∈ server.tracked ↔ ∃ conn, server.Started index conn

/-- What an event can do: leave the connections as they are, add one that
has not been started or one that has, or let one of those that have been
started make a step. Only in the last case is the event addressed to a
connection. -/
inductive Change (crypto : Crypto) (settings : AuthSettings) (server after : Server) :
    ServerEvent → Prop
  | unchanged (event : ServerEvent) (unaddressed : ∀ index, addressed index [event] = [])
      (connections : after.connections = server.connections)
      (tracked : after.tracked = server.tracked) : Change crypto settings server after event
  | dropped (event : ServerEvent) (unaddressed : ∀ index, addressed index [event] = [])
      (connections : after.connections = server.connections ++ [none])
      (tracked : after.tracked = server.tracked) : Change crypto settings server after event
  | added (event : ServerEvent) (unaddressed : ∀ index, addressed index [event] = [])
      (connections : after.connections = server.connections ++ [some ConnectionIn.start])
      (tracked : after.tracked = insert server.connections.length server.tracked) :
      Change crypto settings server after event
  | moved (index : Nat) (conn changed : ConnectionIn) (event : IncomingEvent)
      (started : server.Started index conn)
      (stepped : conn.step crypto settings event = some changed)
      (connections : after.connections = server.connections.set index (some changed))
      (tracked : after.tracked = server.tracked) :
      Change crypto settings server after (.connection index event)

/-- An accept adds at most one connection, and the set changes only for one
that starts. -/
theorem handleAccept_change (crypto : Crypto) (settings : AuthSettings) (server : Server)
    (error resolved : Bool) :
    Change crypto settings server (server.handleAccept error resolved)
      (.accepted error resolved) := by
  unfold handleAccept startConnection
  split_ifs
  · exact Change.unchanged _ (fun _ => rfl) rfl rfl
  · exact Change.unchanged _ (fun _ => rfl) rfl rfl
  · exact Change.added _ (fun _ => rfl) rfl rfl
  · exact Change.dropped _ (fun _ => rfl) rfl rfl

/-- Every step is one of these changes, so that invariants of the
connections and of the set are shown by cases on them. -/
theorem step_change (crypto : Crypto) (settings : AuthSettings) (server : Server)
    (event : ServerEvent) (after : Server)
    (moved : server.step crypto settings event = some after) :
    Change crypto settings server after event := by
  cases event with
  | accepted error resolved =>
    simp only [step] at moved
    split at moved
    · obtain rfl := Option.some.inj moved
      exact handleAccept_change crypto settings server error resolved
    · cases moved
  | stop =>
    obtain rfl := Option.some.inj moved
    exact Change.unchanged _ (fun _ => rfl) rfl rfl
  | connection index event =>
    simp only [step] at moved
    split at moved
    · next conn started =>
      obtain ⟨changed, stepped, rfl⟩ := Option.map_eq_some_iff.mp moved
      exact Change.moved index conn changed event started stepped rfl rfl
    · cases moved

/-- A new connection has the next index, and the others are as they were. -/
theorem getElem_accepted (server : Server) (accepted : Option ConnectionIn) (index : Nat)
    (conn : ConnectionIn) :
    (server.connections ++ [accepted])[index]? = some (some conn) ↔
      server.Started index conn ∨ index = server.connections.length ∧ accepted = some conn := by
  unfold Started
  rcases lt_trichotomy index server.connections.length with before | same | beyond
  · rw [List.getElem?_append_left before]
    simp [before.ne]
  · subst same
    simp
  · rw [List.getElem?_eq_none (by simpa using Nat.succ_le_of_lt beyond),
      List.getElem?_eq_none beyond.le]
    simp [beyond.ne']

/-- A connection that makes a step stays started, and the others are as they
were. -/
theorem getElem_moved (server : Server) (index other : Nat) (conn changed : ConnectionIn)
    (started : server.Started index conn) :
    (server.connections.set index (some changed))[other]? =
      if index = other then some (some changed) else server.connections[other]? := by
  have inside : index < server.connections.length := (List.getElem?_eq_some_iff.mp started).1
  rw [List.getElem?_set]
  split_ifs with same
  · rfl
  · rfl

/-- Every step keeps the started connections in the set, and no others. By
cases on what the step can do. -/
theorem step_tracksStarted (crypto : Crypto) (settings : AuthSettings) (server : Server)
    (event : ServerEvent) (after : Server) (tracks : server.TracksStarted)
    (moved : server.step crypto settings event = some after) : after.TracksStarted := by
  intro index
  unfold Started
  cases step_change crypto settings server event after moved with
  | unchanged _ _ connections tracked =>
    rw [connections, tracked]
    exact tracks index
  | dropped _ _ connections tracked =>
    rw [connections, tracked, tracks index]
    simp [getElem_accepted]
  | added _ _ connections tracked =>
    rw [connections, tracked, Finset.mem_insert, tracks index]
    simp [getElem_accepted, exists_or, or_comm]
  | moved place conn changed _ started _ connections tracked =>
    rw [connections, tracked, tracks index]
    simp only [getElem_moved server place index conn changed started]
    split_ifs with same
    · subst same
      exact ⟨fun _ => ⟨changed, rfl⟩, fun _ => ⟨conn, started⟩⟩
    · rfl

/-- The set is that of the started connections in every state of every
run. -/
theorem tracksStarted_of_reached (crypto : Crypto) (settings : AuthSettings) (server : Server)
    (reached : Machine.Reaches (step crypto settings) start server) : server.TracksStarted :=
  reached.invariant TracksStarted (step_tracksStarted crypto settings)
    (fun index => by simp [start, Started])

/-- So it is that of the open ones as long as no connection has been
closed. -/
theorem TracksStarted.tracksOpen_iff {server : Server} (tracks : server.TracksStarted) :
    server.TracksOpen ↔
      ∀ index conn, server.Started index conn → conn.connection.closed = false := by
  constructor
  · intro exact index conn started
    obtain ⟨same, startedToo, opened⟩ := (exact index).mp ((tracks index).mpr ⟨conn, started⟩)
    obtain rfl : conn = same :=
      Option.some.inj (Option.some.inj (started.symm.trans startedToo))
    exact opened
  · intro opened index
    rw [tracks index]
    exact exists_congr fun conn => ⟨fun started => ⟨started, opened index conn started⟩, And.left⟩

/-- In every state of every run, the set is that of the open connections
exactly when no connection has been closed so far: none is ever taken
out. -/
theorem tracks_open_iff (crypto : Crypto) (settings : AuthSettings) (server : Server)
    (reached : Machine.Reaches (step crypto settings) start server) :
    server.TracksOpen ↔
      ∀ index conn, server.Started index conn → conn.connection.closed = false :=
  (tracksStarted_of_reached crypto settings server reached).tracksOpen_iff

/-- A peer connects, and its connection stays open. -/
def acceptedEvents : List ServerEvent := [.accepted false true]

/-- The statement at this run, in which the set holds the open
connection. -/
theorem tracks_open_accepted :
    ∃ server, Machine.run (step Crypto.plain ConnectionIn.loginSettings) start
        acceptedEvents = some server ∧ 0 ∈ server.tracked ∧ server.TracksOpen := by
  refine ⟨_, rfl, by decide, ?_⟩
  refine (tracks_open_iff Crypto.plain ConnectionIn.loginSettings _
    (Machine.reaches_of_run _ start _ acceptedEvents rfl)).mpr ?_
  intro index conn started
  have listed : some conn ∈ [some ConnectionIn.start] := List.mem_of_getElem? started
  obtain rfl := Option.some.inj (List.mem_singleton.mp listed)
  rfl

/-- A peer connects and sends an `AuthAckMessage`, which the server does not
expect. It closes the connection. -/
def refusedEvents : List ServerEvent :=
  [.accepted false true,
    .connection 0 (.readCompleted (some (.auth (.authAck ⟨1, 0⟩ true)))),
    .connection 0 (.dispatch [] 0)]

/-- The connection is closed, and the set still holds it. -/
theorem closed_connection_tracked :
    ∃ server, Machine.run (step Crypto.plain ConnectionIn.loginSettings) start
        refusedEvents = some server ∧
      (∃ conn, server.Started 0 conn ∧ conn.connection.closed = true) ∧
      0 ∈ server.tracked ∧ ¬ server.TracksOpen := by
  refine ⟨_, rfl, ⟨_, rfl, rfl⟩, by decide, ?_⟩
  intro exact
  obtain ⟨conn, started, opened⟩ := (exact 0).mp (by decide)
  obtain rfl := Option.some.inj (Option.some.inj started)
  exact absurd opened (by decide)

/-- A connection that has been closed stays closed, at its index. -/
theorem step_stays_closed (crypto : Crypto) (settings : AuthSettings) (server : Server)
    (event : ServerEvent) (after : Server) (index : Nat)
    (closed : ∃ conn, server.Started index conn ∧ conn.connection.closed = true)
    (moved : server.step crypto settings event = some after) :
    ∃ conn, after.Started index conn ∧ conn.connection.closed = true := by
  obtain ⟨conn, started, shut⟩ := closed
  unfold Started
  cases step_change crypto settings server event after moved with
  | unchanged _ _ connections => exact ⟨conn, connections ▸ started, shut⟩
  | dropped _ _ connections =>
    exact ⟨conn, by rw [connections, getElem_accepted]; exact Or.inl started, shut⟩
  | added _ _ connections =>
    exact ⟨conn, by rw [connections, getElem_accepted]; exact Or.inl started, shut⟩
  | moved place before changed cause startedToo stepped connections =>
    rw [connections]
    simp only [getElem_moved server place index before changed startedToo]
    split_ifs with same
    · subst same
      obtain rfl : conn = before :=
        Option.some.inj (Option.some.inj (started.symm.trans startedToo))
      exact ⟨changed, rfl, ConnectionIn.step_closed crypto settings conn cause changed shut stepped⟩
    · exact ⟨conn, started, shut⟩

/-- Once a connection has been closed, the set is wrong for the rest of the
run, however this goes on. -/
theorem never_tracks_open_again (crypto : Crypto) (settings : AuthSettings)
    (server later : Server) (reached : Machine.Reaches (step crypto settings) start server)
    (index : Nat) (closed : ∃ conn, server.Started index conn ∧ conn.connection.closed = true)
    (continued : Machine.Reaches (step crypto settings) server later) : ¬ later.TracksOpen := by
  have stays : ∃ conn, later.Started index conn ∧ conn.connection.closed = true :=
    continued.invariant
      (fun last : Server => ∃ conn, last.Started index conn ∧ conn.connection.closed = true)
      (fun before event after shut moved =>
        step_stays_closed crypto settings before event after index shut moved) closed
  obtain ⟨conn, started, shut⟩ := stays
  have tracks := tracksStarted_of_reached crypto settings later (reached.trans continued)
  intro exact
  exact absurd (tracks.tracksOpen_iff.mp exact index conn started) (by simp [shut])

end Server

end Sopmq
