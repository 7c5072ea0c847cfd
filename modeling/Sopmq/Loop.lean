import Mathlib.Logic.Basic

/-!
# Loops with a bound on their turns

A `while` loop whose body may fail, run for at most a given number of turns. There is no result
when the guard still holds after these, so that a result is one of the loop itself. One rule
carries every statement about such loops: an invariant that the body keeps, and a count of the
turns that remain which the body lowers.
-/

namespace Sopmq.Loop

universe u
variable {State : Type u} (guard : State → Bool) (body : State → Option State)

/-- The state in which the loop ends, if it ends within the given number of
turns and no turn fails. -/
def whileLoop : Nat → State → Option State
  | 0, state => if guard state then none else some state
  | turns + 1, state =>
      if guard state then (body state).bind (whileLoop turns) else some state

/-- A loop whose body succeeds, keeps an invariant and lowers the count of
remaining turns ends within that count, in a state where the invariant holds
and the guard does not. -/
theorem whileLoop_total {guard : State → Bool} {body : State → Option State}
    (Holds : State → Prop) (remaining : State → Nat)
    (turn : ∀ state, Holds state → guard state = true →
      ∃ next, body state = some next ∧ Holds next ∧ remaining next < remaining state)
    (turns : Nat) (state : State) (initially : Holds state) (enough : remaining state ≤ turns) :
    ∃ last, whileLoop guard body turns state = some last ∧ Holds last ∧ guard last = false := by
  induction turns generalizing state with
  | zero =>
    cases more : guard state with
    | true =>
      obtain ⟨next, -, -, fewer⟩ := turn state initially more
      omega
    | false => exact ⟨state, by simp [whileLoop, more], initially, more⟩
  | succ turns inductionHypothesis =>
    cases more : guard state with
    | true =>
      obtain ⟨next, moved, kept, fewer⟩ := turn state initially more
      obtain ⟨last, ended, holds, done⟩ := inductionHypothesis next kept (by omega)
      exact ⟨last, by simp [whileLoop, more, moved, ended], holds, done⟩
    | false => exact ⟨state, by simp [whileLoop, more], initially, more⟩

end Sopmq.Loop
