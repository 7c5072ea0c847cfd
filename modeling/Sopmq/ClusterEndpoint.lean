import Mathlib.Algebra.Order.Ring.Int
import Mathlib.Tactic.Linarith
import Sopmq.Basic
import Sopmq.Endpoint

/-!
# The backoff of an endpoint of a cluster

`cluster_endpoint` counts the seconds to wait before a failed endpoint is tried again. The count
has 64 bits and is doubled at each failure. The header documents a largest value,
`MAXIMUM_BACKOFF_SECS`, that the doubling does not look at: the count grows until it wraps.

The constructor does not set the count, so that the value it finds there is a parameter. The time
of the last failure is that of the epoch of the steady clock.
-/

namespace Sopmq

/-- `cluster_endpoint`: an endpoint with the time of its last failure, the
seconds to wait from then on, and whether it is down. -/
structure ClusterEndpoint where
  endpoint : Endpoint
  lastFailure : Time
  currentBackoff : Int
  isFailed : Bool
deriving DecidableEq, Repr

namespace ClusterEndpoint

/-- `cluster_endpoint::MINIMUM_BACKOFF_SECS`: the wait after a first
failure. -/
def minimumBackoffSecs : Int := 60

/-- `cluster_endpoint::MAXIMUM_BACKOFF_SECS`, which the header documents and
no function reads. -/
def maximumBackoffSecs : Int := 60 * 60

/-- `cluster_endpoint(ep)`, over what the storage of the count holds. The
constructor leaves the count out of its initializers. -/
def create (ep : Endpoint) (storage : Int) : ClusterEndpoint where
  endpoint := ep
  lastFailure := 0
  currentBackoff := storage
  isFailed := false

/-- `cluster_endpoint::secs_since_last_try`, at a time. The duration is cut
to whole seconds, towards zero. -/
def secsSinceLastTry (self : ClusterEndpoint) (now : Time) : Int :=
  (now - self.lastFailure).tdiv (10 ^ 9)

/-- `cluster_endpoint::ready_for_retry`, at a time: the seconds of the
backoff have passed since the last failure. -/
def readyForRetry (self : ClusterEndpoint) (now : Time) : Bool :=
  self.secsSinceLastTry now ≥ self.currentBackoff

/-- `cluster_endpoint::increase_backoff`, on the count: the minimum first,
and then twice as much each time, in the 64 bits of the type. -/
def increaseBackoff (currentBackoff : Int) : Int :=
  if currentBackoff = 0 then minimumBackoffSecs else (currentBackoff * 2).bmod (2 ^ 64)

/-- `cluster_endpoint::mark_failed`, at a time. A further failure of an
endpoint that is down counts as well. -/
def markFailed (self : ClusterEndpoint) (now : Time) : ClusterEndpoint :=
  { self with
    lastFailure := now
    isFailed := true
    currentBackoff := increaseBackoff self.currentBackoff }

/-- `cluster_endpoint::mark_up`: the count starts again from zero, and the
time of the last failure stays. -/
def markUp (self : ClusterEndpoint) : ClusterEndpoint :=
  { self with
    isFailed := false
    currentBackoff := 0 }

/-- A call on an endpoint, of the two that change its count. -/
inductive Call where
  | markFailed (now : Time)
  | markUp

/-- An endpoint after a call, for runs of calls in any order. -/
def call (self : ClusterEndpoint) : Call → ClusterEndpoint
  | .markFailed now => self.markFailed now
  | .markUp => self.markUp

/-- The failures since the last recovery, after a call: what the documented
backoff depends on. -/
def countCall (failures : Nat) : Call → Nat
  | .markFailed _ => failures + 1
  | .markUp => 0

/-- The failures of a sequence of calls since its last recovery, or since
its beginning. -/
def failuresSince (calls : List Call) : Nat := calls.foldl countCall 0

/-- The backoff that is meant after a number of failures: doubled each time
from the minimum, and no more than the maximum. -/
def documentedBackoff (failures : Nat) : Int :=
  if failures = 0 then 0 else min (minimumBackoffSecs * 2 ^ (failures - 1)) maximumBackoffSecs

/-- The backoff is the one that is meant, it is bounded, it can be doubled
in 64 bits, and the endpoint is ready when the largest backoff has passed
since the last failure. -/
structure BacksOffAsDocumented (tracked : ClusterEndpoint) (failures : Nat) : Prop where
  value : tracked.currentBackoff = documentedBackoff failures
  bounded : tracked.currentBackoff ≤ maximumBackoffSecs
  doubles : tracked.currentBackoff * 2 < 2 ^ 63
  ready : ∀ now, tracked.lastFailure + maximumBackoffSecs * 10 ^ 9 ≤ now →
    tracked.readyForRetry now = true

/-- The count after a number of failures from zero, as the code computes
it. -/
def backoffAfter : Nat → Int
  | 0 => 0
  | failures + 1 => increaseBackoff (backoffAfter failures)

/-- A call changes the count as it changes the number of failures. -/
theorem currentBackoff_call (self : ClusterEndpoint) (failures : Nat) (next : Call)
    (counted : self.currentBackoff = backoffAfter failures) :
    (self.call next).currentBackoff = backoffAfter (countCall failures next) := by
  cases next with
  | markFailed now => exact congrArg increaseBackoff counted
  | markUp => rfl

/-- The count depends on the failures since the last recovery only. By
induction on the calls, of which a recovery sets both to zero. -/
theorem currentBackoff_calls (self : ClusterEndpoint) (failures : Nat) (calls : List Call)
    (counted : self.currentBackoff = backoffAfter failures) :
    (calls.foldl call self).currentBackoff = backoffAfter (calls.foldl countCall failures) := by
  induction calls generalizing self failures with
  | nil => exact counted
  | cons next rest inductionHypothesis =>
    exact inductionHypothesis (self.call next) (countCall failures next)
      (currentBackoff_call self failures next counted)

/-- The count doubles without a bound while it fits 64 bits, which is so for
the first 58 failures. -/
theorem backoffAfter_succ (doublings : Nat) (fits : doublings ≤ 57) :
    backoffAfter (doublings + 1) = minimumBackoffSecs * 2 ^ doublings := by
  induction doublings with
  | zero => rfl
  | succ doublings inductionHypothesis =>
    have before := inductionHypothesis (by omega)
    have small : (2 : Int) ^ (doublings + 1) ≤ 2 ^ 57 := pow_le_pow_right₀ (by decide) fits
    have positive : (0 : Int) < 2 ^ (doublings + 1) := pow_pos (by decide) _
    have doubled : minimumBackoffSecs * 2 ^ doublings * 2 =
        minimumBackoffSecs * 2 ^ (doublings + 1) := by
      rw [pow_succ, mul_assoc]
    rw [backoffAfter, before, increaseBackoff, if_neg (by
      exact mul_ne_zero (by decide) (pow_ne_zero _ (by decide))), doubled]
    refine Int.bmod_eq_of_le ?_ ?_
    · simp only [minimumBackoffSecs]
      omega
    · simp only [minimumBackoffSecs]
      omega

/-- A value that the count can have: one of the first, or a multiple of 32.
The first multiple is 480, and doubling keeps the divisor also when it
wraps. -/
def Attainable (backoff : Int) : Prop :=
  backoff = 0 ∨ backoff = 60 ∨ backoff = 120 ∨ backoff = 240 ∨ 32 ∣ backoff

/-- An increase leads from such a value to such a value. Wrapping takes away
a multiple of a power of two, which 32 divides. -/
theorem attainable_increaseBackoff (backoff : Int) (attainable : Attainable backoff) :
    Attainable (increaseBackoff backoff) := by
  by_cases zero : backoff = 0
  · rw [increaseBackoff, if_pos zero]
    exact .inr (.inl rfl)
  rcases attainable with rfl | rfl | rfl | rfl | divides
  · exact absurd rfl zero
  · exact .inr (.inr (.inl rfl))
  · exact .inr (.inr (.inr (.inl rfl)))
  · exact .inr (.inr (.inr (.inr ⟨15, rfl⟩)))
  · rw [increaseBackoff, if_neg zero]
    have wrapped : (32 : Int) ∣ (backoff * 2).bmod (2 ^ 64) - backoff * 2 :=
      Dvd.dvd.trans ⟨2 ^ 59, rfl⟩ (Int.dvd_bmod_sub_self)
    have doubled : (32 : Int) ∣ backoff * 2 := divides.mul_right 2
    exact .inr (.inr (.inr (.inr ((Int.dvd_iff_dvd_of_dvd_sub wrapped).mpr doubled))))

/-- So every count is such a value, after any number of failures. -/
theorem attainable_backoffAfter (failures : Nat) : Attainable (backoffAfter failures) := by
  induction failures with
  | zero => exact .inl rfl
  | succ failures inductionHypothesis => exact attainable_increaseBackoff _ inductionHypothesis

/-- The count is never the documented maximum, before or after it wraps:
3600 is no multiple of 32. -/
theorem backoffAfter_ne_maximum (failures : Nat) : backoffAfter failures ≠ maximumBackoffSecs := by
  intro maximal
  have attainable := attainable_backoffAfter failures
  rw [maximal, Attainable] at attainable
  exact absurd attainable (by decide)

/-- Up to the sixth failure the maximum is not reached and the count is the
documented one. -/
theorem backoffAfter_of_few (failures : Nat) (few : failures ≤ 6) :
    backoffAfter failures = documentedBackoff failures := by
  cases failures with
  | zero => rfl
  | succ doublings =>
    have small : (2 : Int) ^ doublings ≤ 2 ^ 5 := pow_le_pow_right₀ (by decide) (by omega)
    have below : minimumBackoffSecs * 2 ^ doublings ≤ maximumBackoffSecs := by
      simp only [minimumBackoffSecs, maximumBackoffSecs]
      omega
    rw [backoffAfter_succ doublings (by omega), documentedBackoff, if_neg doublings.succ_ne_zero,
      Nat.add_sub_cancel, min_eq_left below]

/-- From the seventh failure on the documented backoff is the maximum, since
the doubling would pass it. -/
theorem documentedBackoff_of_many (failures : Nat) (many : 7 ≤ failures) :
    documentedBackoff failures = maximumBackoffSecs := by
  have large : (2 : Int) ^ 6 ≤ 2 ^ (failures - 1) := pow_le_pow_right₀ (by decide) (by omega)
  have above : maximumBackoffSecs ≤ minimumBackoffSecs * 2 ^ (failures - 1) := by
    simp only [minimumBackoffSecs, maximumBackoffSecs]
    omega
  rw [documentedBackoff, if_neg (by omega), min_eq_right above]

/-- The documented backoff is bounded by the maximum after any number of
failures. -/
theorem documentedBackoff_le (failures : Nat) :
    documentedBackoff failures ≤ maximumBackoffSecs := by
  rw [documentedBackoff]
  split
  · decide
  · exact min_le_right _ _

/-- An endpoint with a bounded backoff is ready once the bound has passed,
however the time is cut to seconds. -/
theorem readyForRetry_of_bounded (self : ClusterEndpoint) (now : Time)
    (bounded : self.currentBackoff ≤ maximumBackoffSecs)
    (passed : self.lastFailure + maximumBackoffSecs * 10 ^ 9 ≤ now) :
    self.readyForRetry now = true := by
  have elapsed : maximumBackoffSecs * 10 ^ 9 ≤ now - self.lastFailure :=
    Int.le_sub_left_of_add_le passed
  have positive : 0 ≤ now - self.lastFailure := Int.le_trans (by decide) elapsed
  have waited : maximumBackoffSecs ≤ self.secsSinceLastTry now := by
    rw [secsSinceLastTry, Int.tdiv_eq_ediv_of_nonneg positive]
    exact (Int.le_ediv_iff_mul_le (by decide)).mpr elapsed
  exact decide_eq_true (Int.le_trans bounded waited)

/-- After any sequence of calls on an endpoint whose count starts at zero,
the endpoint backs off as documented exactly when it failed at most six
times since it was last marked up.

Proof: up to six failures the doubling stays below the maximum. After more
of them the documented backoff is the maximum, which the count never is. -/
theorem backs_off_as_documented_iff (ep : Endpoint) (calls : List Call) :
    BacksOffAsDocumented (calls.foldl call (create ep 0)) (failuresSince calls) ↔
      failuresSince calls ≤ 6 := by
  have counted : (calls.foldl call (create ep 0)).currentBackoff =
      backoffAfter (failuresSince calls) := currentBackoff_calls (create ep 0) 0 calls rfl
  constructor
  · intro documented
    by_contra exceeded
    have maximal := documentedBackoff_of_many (failuresSince calls) (by omega)
    exact backoffAfter_ne_maximum (failuresSince calls)
      (counted.symm.trans (documented.value.trans maximal))
  · intro few
    have value := counted.trans (backoffAfter_of_few (failuresSince calls) few)
    have bounded := value.trans_le (documentedBackoff_le (failuresSince calls))
    refine ⟨value, bounded, ?_, fun now passed => readyForRetry_of_bounded _ now bounded passed⟩
    simp only [maximumBackoffSecs] at bounded
    omega

/-- The endpoint of the calls below, whose name plays no part in them. -/
def localhost : Endpoint := Endpoint.ofHost "localhost" 8481

/-- After seven failures the backoff is above the maximum and the endpoint
is not ready when the maximum has passed. After 59 failures the count has
wrapped to a negative value. -/
theorem backoff_exceeds_maximum :
    let seven := (List.replicate 7 (Call.markFailed 0)).foldl call (create localhost 0)
    let wrapped := (List.replicate 59 (Call.markFailed 0)).foldl call (create localhost 0)
    failuresSince (List.replicate 7 (Call.markFailed 0)) = 7 ∧ seven.currentBackoff = 3840 ∧
      documentedBackoff 7 = 3600 ∧ seven.readyForRetry (3600 * 10 ^ 9) = false ∧
      wrapped.currentBackoff < 0 ∧ ¬BacksOffAsDocumented seven 7 := by
  refine ⟨rfl, rfl, rfl, rfl, by decide, fun documented => ?_⟩
  exact absurd documented.bounded (by decide)

end ClusterEndpoint

end Sopmq
