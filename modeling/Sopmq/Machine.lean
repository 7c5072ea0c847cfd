import Mathlib.Logic.Relation

/-!
# Runs of a machine

A machine is a partial step function on states, driven by events. Its runs are
the finite sequences of enabled steps. Two rules carry every statement about
runs: an invariant that each step keeps holds in every reachable state, and a
measure that each step lowers makes a halted state reachable.
-/

namespace Sopmq.Machine

universe u v w
variable {State : Type u} {Event : Type v} (step : State → Event → Option State)

/-- One enabled step, by whichever event. -/
def Next (before after : State) : Prop := ∃ event, step before event = some after

/-- Any number of enabled steps, none included. -/
def Reaches : State → State → Prop := Relation.ReflTransGen (Next step)

/-- No event is enabled, so every run that comes here ends here. -/
def Halted (state : State) : Prop := ∀ event, step state event = none

/-- The state after the given events, if each of them is enabled in its
turn. -/
def run : State → List Event → Option State
  | state, [] => some state
  | state, event :: rest => (step state event).bind fun next => run next rest

/-- A run of two lists of events is a run of the first and, from where that
ends, of the second. -/
theorem run_append (state : State) (first second : List Event) :
    run step state (first ++ second) =
      (run step state first).bind fun next => run step next second := by
  induction first generalizing state with
  | nil => rfl
  | cons event rest inductionHypothesis =>
    rw [List.cons_append, run, run, Option.bind_assoc]
    exact Option.bind_congr fun next _ => inductionHypothesis next

/-- A run of a list of events reaches its end. Runs on fixed inputs are
turned into reachable states by this. -/
theorem reaches_of_run (before after : State) (events : List Event)
    (ran : run step before events = some after) : Reaches step before after := by
  induction events generalizing before with
  | nil =>
    cases ran
    exact Relation.ReflTransGen.refl
  | cons event rest inductionHypothesis =>
    obtain ⟨next, moved, continued⟩ := Option.bind_eq_some_iff.mp ran
    exact Relation.ReflTransGen.head ⟨event, moved⟩ (inductionHypothesis next continued)

/-- What each step keeps holds in every state of a run. By induction on the
number of steps. -/
theorem Reaches.invariant {step : State → Event → Option State} (Holds : State → Prop)
    (kept : ∀ before event after, Holds before → step before event = some after → Holds after)
    {first last : State} (reached : Reaches step first last) (initially : Holds first) :
    Holds last := by
  induction reached with
  | refl => exact initially
  | tail _ moved inductionHypothesis =>
    obtain ⟨event, enabled⟩ := moved
    exact kept _ event _ inductionHypothesis enabled

/-- What each step keeps of a state and of the events that led to it holds
at the end of a run. The events so far are part of what the induction is
on. -/
theorem run_invariant {step : State → Event → Option State} (Holds : List Event → State → Prop)
    (kept : ∀ past before event after, Holds past before → step before event = some after →
      Holds (past ++ [event]) after)
    {first last : State} {events : List Event} (ran : run step first events = some last)
    (initially : Holds [] first) : Holds events last := by
  suffices continued : ∀ past state, Holds past state → run step state events = some last →
      Holds (past ++ events) last from continued [] first initially ran
  clear ran initially
  induction events with
  | nil =>
    intro past state holds ended
    cases ended
    rwa [List.append_nil]
  | cons event rest inductionHypothesis =>
    intro past state holds moves
    obtain ⟨next, moved, continued⟩ := Option.bind_eq_some_iff.mp moves
    have further := inductionHypothesis (past ++ [event]) next
      (kept past state event next holds moved) continued
    rwa [List.append_assoc, List.singleton_append] at further

/-- A run of one machine is a run of any machine that makes the same steps,
under whatever events. -/
theorem Reaches.mono {Event' : Type w} {step : State → Event → Option State}
    {other : State → Event' → Option State}
    (included : ∀ before event after, step before event = some after → Next other before after)
    {first last : State} (reached : Reaches step first last) : Reaches other first last :=
  Relation.ReflTransGen.mono (fun before after moved =>
    moved.elim fun event enabled => included before event after enabled) first last reached

/-- A measure that every step lowers, wherever the invariant holds, makes a
halted state reachable. -/
theorem exists_halted (Holds : State → Prop) (measure : State → Nat)
    (kept : ∀ before event after, Holds before → step before event = some after → Holds after)
    (lowered : ∀ before event after, Holds before → step before event = some after →
      measure after < measure before)
    (first : State) (initially : Holds first) :
    ∃ last, Reaches step first last ∧ Halted step last := by
  by_cases halted : Halted step first
  · exact ⟨first, Relation.ReflTransGen.refl, halted⟩
  · obtain ⟨event, enabled⟩ := Classical.not_forall.mp halted
    obtain ⟨next, moved⟩ := Option.ne_none_iff_exists'.mp enabled
    have smaller := lowered first event next initially moved
    obtain ⟨last, continued, stopped⟩ :=
      exists_halted Holds measure kept lowered next (kept first event next initially moved)
    exact ⟨last, Relation.ReflTransGen.head ⟨event, moved⟩ continued, stopped⟩
termination_by measure first

end Sopmq.Machine
