import Sopmq.PeerAuthentication
import Sopmq.Server

/-!
# The connections of a server do not meet

A server has any number of connections, and what happens to them happens in any order. Each of them
is in the state that it would be in without the others. In particular what lets a peer in has
happened on the connection of this peer: neither the challenge of another connection nor an answer
or a lookup there counts.
-/

namespace Sopmq

namespace Server

/-- What happens to a connection in a run, by the two parts of the run. -/
theorem addressed_append (index : Nat) (past later : List ServerEvent) :
    addressed index (past ++ later) = addressed index past ++ addressed index later :=
  List.filterMap_append

/-- Every connection that has been started has made its own run, and nothing
has happened to connections that have not been accepted. -/
structure Isolated (crypto : Crypto) (settings : AuthSettings) (past : List ServerEvent)
    (server : Server) : Prop where
  alone : ∀ index conn, server.Started index conn →
    Machine.run (ConnectionIn.step crypto settings) ConnectionIn.start (addressed index past) =
      some conn
  silent : ∀ index, server.connections.length ≤ index → addressed index past = []

section Steps

variable {crypto : Crypto} {settings : AuthSettings} {past : List ServerEvent} {server : Server}

/-- Something happens that is not addressed to a connection, and adds none.
All of them stay where they are. -/
theorem Isolated.unaddressed (isolated : Isolated crypto settings past server)
    (event : ServerEvent) (after : Server) (connections : after.connections = server.connections)
    (nowhere : ∀ index, addressed index [event] = []) :
    Isolated crypto settings (past ++ [event]) after := by
  refine ⟨fun index conn started => ?_, fun index beyond => ?_⟩
  · rw [addressed_append, nowhere, List.append_nil]
    exact isolated.alone index conn (by rwa [Started, ← connections])
  · rw [addressed_append, nowhere, List.append_nil]
    exact isolated.silent index (by rwa [← connections])

/-- A connection is accepted, and started or not. Nothing has happened to it
yet. -/
theorem Isolated.accepted (isolated : Isolated crypto settings past server)
    (event : ServerEvent) (after : Server) (accepted : Option ConnectionIn)
    (fresh : ∀ conn, accepted = some conn → conn = ConnectionIn.start)
    (connections : after.connections = server.connections ++ [accepted])
    (nowhere : ∀ index, addressed index [event] = []) :
    Isolated crypto settings (past ++ [event]) after := by
  refine ⟨fun index conn started => ?_, fun index beyond => ?_⟩
  · rw [addressed_append, nowhere, List.append_nil]
    rw [Started, connections, getElem_accepted] at started
    rcases started with earlier | ⟨rfl, given⟩
    · exact isolated.alone index conn earlier
    · rw [isolated.silent _ le_rfl, fresh conn given]
      rfl
  · rw [addressed_append, nowhere, List.append_nil]
    refine isolated.silent index (Nat.le_of_succ_le ?_)
    rwa [connections, List.length_append, List.length_singleton] at beyond

/-- A connection makes a step, and the others stay as they are. The step is
the next one of its own run. -/
theorem Isolated.moved (isolated : Isolated crypto settings past server) (index : Nat)
    (event : IncomingEvent) (conn changed : ConnectionIn) (after : Server)
    (started : server.Started index conn)
    (stepped : conn.step crypto settings event = some changed)
    (connections : after.connections = server.connections.set index (some changed)) :
    Isolated crypto settings (past ++ [.connection index event]) after := by
  refine ⟨fun other now startedNow => ?_, fun other beyond => ?_⟩
  · rw [Started, connections, getElem_moved server index other conn changed started] at startedNow
    rw [addressed_append]
    split at startedNow
    · next same =>
      subst same
      cases startedNow
      have here : addressed index [.connection index event] = [event] := by simp [addressed]
      rw [here, Machine.run_append, isolated.alone index conn started]
      simp [Machine.run, stepped]
    · next different =>
      have elsewhere : addressed other [.connection index event] = [] := by
        simp [addressed, different]
      rw [elsewhere, List.append_nil]
      exact isolated.alone other now startedNow
  · have inside : index < server.connections.length := (List.getElem?_eq_some_iff.mp started).1
    rw [connections, List.length_set] at beyond
    have elsewhere : addressed other [.connection index event] = [] := by
      simp [addressed, (inside.trans_le beyond).ne]
    rw [addressed_append, elsewhere, List.append_nil]
    exact isolated.silent other beyond

/-- Every event keeps the connections apart, by the cases of what it can
do. -/
theorem Isolated.step (isolated : Isolated crypto settings past server) (event : ServerEvent)
    (after : Server) (moved : server.step crypto settings event = some after) :
    Isolated crypto settings (past ++ [event]) after := by
  cases step_change crypto settings server event after moved with
  | unchanged _ unaddressed connections =>
    exact isolated.unaddressed event after connections unaddressed
  | dropped _ unaddressed connections =>
    exact isolated.accepted event after none (fun _ given => by cases given) connections
      unaddressed
  | added _ unaddressed connections =>
    exact isolated.accepted event after (some ConnectionIn.start)
      (fun _ given => (Option.some.inj given).symm) connections unaddressed
  | moved index conn changed cause started stepped connections =>
    exact isolated.moved index cause conn changed after started stepped connections

end Steps

/-- In every run of a server, each connection is in the state to which its
own events alone lead a connection. So a peer that has been let in has shown
the secret on its own connection, for the challenge that was drawn there. -/
theorem connections_isolated (crypto : Crypto) (settings : AuthSettings)
    (events : List ServerEvent) (server : Server)
    (ran : Machine.run (step crypto settings) start events = some server) (index : Nat)
    (conn : ConnectionIn) (started : server.Started index conn) :
    Machine.run (ConnectionIn.step crypto settings) ConnectionIn.start (addressed index events) =
        some conn ∧
      (conn.connection.state = .csauthenticated → ∃ type challenge answer,
        Challenged (addressed index events) type challenge
          [.readCompleted (some (.auth (.answerChallenge answer)))] ∧
        Shown crypto settings (addressed index events) challenge answer type) := by
  have isolated : Isolated crypto settings events server := by
    refine Machine.run_invariant (Isolated crypto settings) ?_ ran ⟨?_, fun _ _ => rfl⟩
    · intro past before event after isolated moved
      exact isolated.step event after moved
    · intro index conn started
      cases started
  have alone := isolated.alone index conn started
  exact ⟨alone, (ConnectionIn.stage_of_run alone).shown⟩

/-- Two connections ask for a challenge, and the peer of the second one logs
in. The events of the two are mixed. -/
def loginBesides : List ServerEvent :=
  [.accepted false true, .accepted false true,
    .connection 1 (.readCompleted (some (.auth (.getChallenge ⟨1, 0⟩ .client)))),
    .connection 0 (.readCompleted (some (.auth (.getChallenge ⟨1, 0⟩ .client)))),
    .connection 0 (.dispatch [8] 0), .connection 1 (.dispatch [7] 0),
    .connection 1 (.readCompleted (some (.auth (.answerChallenge ⟨⟨2, 1⟩, [1], [9, 7]⟩)))),
    .connection 1 (.dispatch [] 0), .connection 1 (.lookupFinished ConnectionIn.oneAccount),
    .connection 1 .runPosted]

/-- The peer of the second connection is let in, and has shown the secret
there. -/
theorem connections_isolated_login :
    ∃ server conn, Machine.run (step Crypto.plain ⟨[], []⟩) start loginBesides =
        some server ∧
      server.Started 1 conn ∧ conn.connection.state = .csauthenticated ∧
      ∃ type challenge answer,
        Challenged (addressed 1 loginBesides) type challenge
          [.readCompleted (some (.auth (.answerChallenge answer)))] ∧
        Shown Crypto.plain ⟨[], []⟩ (addressed 1 loginBesides) challenge answer
          type := by
  obtain ⟨server, conn, ran, started, granted⟩ : ∃ server conn,
      Machine.run (step Crypto.plain ⟨[], []⟩) start loginBesides = some server ∧
      server.Started 1 conn ∧ conn.connection.state = .csauthenticated := ⟨_, _, rfl, rfl, rfl⟩
  exact ⟨server, conn, ran, started, granted,
    (connections_isolated Crypto.plain ⟨[], []⟩ loginBesides server ran 1 conn
      started).2 granted⟩

end Server

end Sopmq
