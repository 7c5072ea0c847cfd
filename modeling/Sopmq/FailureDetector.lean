import Mathlib.Algebra.Order.BigOperators.Group.List
import Mathlib.Algebra.Order.Field.Basic
import Mathlib.Algebra.Order.Ring.Rat
import Mathlib.Tactic.Positivity
import Sopmq.Basic
import Sopmq.CircularBuffer

/-!
# The failure detector of a node

`failure_detector` keeps the last thousand intervals between heartbeats, in milliseconds, and
compares the time since the last heartbeat with their average. The steady clock counts
nanoseconds, and the conversion to milliseconds truncates.

The average divides an integer sum by the number of intervals. The intervals have 64 bits, but
`std::accumulate` starts from the literal `0`, so that the sum is an `int`: each addition is
narrowed to 32 bits, which wraps. The arithmetic of the type `float` is a parameter.
-/

namespace Sopmq

/-- The operations of the type `float` that the detector uses: conversion of
an integer, a decimal literal by its digits and the number of those after
the point, division, product, and the comparison `>=`. -/
structure FloatOps where
  Value : Type
  ofInt : Int → Value
  literal : Nat → Nat → Value
  div : Value → Value → Value
  mul : Value → Value → Value
  ge : Value → Value → Bool

/-- Arithmetic without rounding, in the rational numbers. What holds here
may be off by rounding in the type `float`. -/
def FloatOps.exact : FloatOps where
  Value := Rat
  ofInt value := value
  literal digits places := digits / 10 ^ places
  div := (· / ·)
  mul := (· * ·)
  ge left right := decide (left ≥ right)

/-- `failure_detector::SAMPLE_SIZE`, the number of intervals that are
averaged. -/
def FailureDetector.sampleSize : Nat := 1000

/-- `failure_detector`: the threshold, the time of the last heartbeat, and
the last intervals between heartbeats. -/
structure FailureDetector where
  failureThreshold : Int
  lastHeartbeat : Time
  intervals : CircularBuffer Int FailureDetector.sampleSize

namespace FailureDetector

/-- `failure_detector::state`: what the detector takes a node for. -/
inductive State where
  | up
  | down
deriving DecidableEq, Repr

/-- `failure_detector(failureThreshold, initialValue)`, at a time. The
buffer is full of the initial interval, so the average is defined from the
beginning. -/
def create (failureThreshold initialValue : Int) (now : Time) : FailureDetector where
  failureThreshold := failureThreshold
  lastHeartbeat := now
  intervals := CircularBuffer.filled sampleSize initialValue

/-- `duration_cast<milliseconds>`, from nanoseconds. The cast truncates
towards zero. -/
def milliseconds (nanoseconds : Int) : Int := nanoseconds.tdiv 1000000

/-- `failure_detector::current_interval`: the milliseconds since the last
heartbeat. -/
def currentInterval (detector : FailureDetector) (compareTo : Time) : Int :=
  milliseconds (compareTo - detector.lastHeartbeat)

/-- `failure_detector::heartbeat`, at a time: the interval since the last
one goes into the buffer, and the oldest interval out of it. -/
def heartbeat (detector : FailureDetector) (now : Time) : FailureDetector :=
  { detector with
    lastHeartbeat := now
    intervals := detector.intervals.pushBack (detector.currentInterval now) }

/-- `std::accumulate` from the `int` zero: every sum is narrowed to 32 bits,
although the intervals have 64. -/
def accumulate (values : List Int) : Int :=
  values.foldl (fun sum value => (sum + value).bmod (2 ^ 32)) 0

/-- The sum in `failure_detector::current_interval_average`, as the code
computes it. -/
def intervalSum (detector : FailureDetector) : Int := accumulate detector.intervals.contents

/-- `failure_detector::current_interval_average`: the narrowed sum over the
number of intervals. -/
def currentIntervalAverage (float : FloatOps) (detector : FailureDetector) : float.Value :=
  float.div (float.ofInt detector.intervalSum) (float.ofInt sampleSize)

/-- `failure_detector::current_phi`: the interval since the last heartbeat
over the average, times the logarithm of e to the base ten. -/
def currentPhi (float : FloatOps) (detector : FailureDetector) (compareTo : Time) : float.Value :=
  float.mul (float.literal 43429448190 11)
    (float.div (float.ofInt (detector.currentInterval compareTo))
      (detector.currentIntervalAverage float))

/-- `failure_detector::interpret`, at a time: a phi value that reaches the
threshold means that the node is down. -/
def interpret (float : FloatOps) (detector : FailureDetector) (compareTo : Time) : State :=
  if float.ge (detector.currentPhi float compareTo) (float.ofInt detector.failureThreshold) then
    .down
  else
    .up

/-- Heartbeats at the times of a list, from the first to the last. -/
def heartbeats (detector : FailureDetector) (times : List Time) : FailureDetector :=
  times.foldl heartbeat detector

/-- The milliseconds between consecutive times, the first one counted from a
given time. -/
def gaps (last : Time) : List Time → List Int
  | [] => []
  | now :: later => milliseconds (now - last) :: gaps now later

/-- The intervals that a detector should average: of as many copies of the
initial interval and the gaps after them, the last ones. -/
def window (initialValue : Int) (createdOn : Time) (times : List Time) : List Int :=
  (List.replicate sampleSize initialValue ++ gaps createdOn times).rtake sampleSize

/-- A narrowed running sum is the narrowed sum: narrowing after each
addition or once at the end is the same. By induction on the values. -/
theorem foldl_narrowed (values : List Int) (start : Int) :
    values.foldl (fun sum value => (sum + value).bmod (2 ^ 32)) (start.bmod (2 ^ 32)) =
      (start + values.sum).bmod (2 ^ 32) := by
  induction values generalizing start with
  | nil => rw [List.foldl_nil, List.sum_nil, add_zero]
  | cons value values inductionHypothesis =>
    rw [List.foldl_cons, Int.bmod_add_bmod, inductionHypothesis, List.sum_cons, add_assoc]

/-- So the sum of the code is the sum of the intervals, narrowed once. -/
theorem accumulate_eq (values : List Int) : accumulate values = values.sum.bmod (2 ^ 32) := by
  have narrowed := foldl_narrowed values 0
  rwa [Int.zero_bmod, zero_add] at narrowed

/-- The sum is exact when it fits an `int`, and only then, as narrowing
changes every other number. -/
theorem accumulate_exact_iff (values : List Int) :
    accumulate values = values.sum ↔ -2 ^ 31 ≤ values.sum ∧ values.sum < 2 ^ 31 := by
  rw [accumulate_eq]
  constructor
  · intro same
    rw [← same]
    exact ⟨Int.le_bmod (by decide), Int.bmod_lt (by decide)⟩
  · rintro ⟨least, most⟩
    exact Int.bmod_eq_of_le least most

/-- Heartbeats put the gaps between them into the buffer. By induction on
the times, where each heartbeat sets the time that the next gap is counted
from. -/
theorem intervals_heartbeats (detector : FailureDetector) (times : List Time) :
    (detector.heartbeats times).intervals =
      (gaps detector.lastHeartbeat times).foldl CircularBuffer.pushBack detector.intervals := by
  induction times generalizing detector with
  | nil => rfl
  | cons now later inductionHypothesis => exact inductionHypothesis (detector.heartbeat now)

/-- After any heartbeats the buffer of a new detector holds the window of
the last intervals. -/
theorem contents_heartbeats (failureThreshold initialValue : Int) (createdOn : Time)
    (times : List Time) :
    ((create failureThreshold initialValue createdOn).heartbeats times).intervals.contents =
      window initialValue createdOn times := by
  rw [intervals_heartbeats, CircularBuffer.contents_foldl_pushBack]
  rfl

/-- If time does not go back, no gap is negative. -/
theorem gaps_nonneg (last : Time) (times : List Time) (ordered : (last :: times).IsChain (· ≤ ·))
    (gap : Int) (member : gap ∈ gaps last times) : 0 ≤ gap := by
  induction times generalizing last with
  | nil => exact absurd member List.not_mem_nil
  | cons now later inductionHypothesis =>
    obtain ⟨forward, rest⟩ := List.isChain_cons_cons.mp ordered
    rcases List.mem_cons.mp member with rfl | laterGap
    · exact Int.tdiv_nonneg (Int.sub_nonneg_of_le forward) (by decide)
    · exact inductionHypothesis now rest laterGap

/-- For every initial interval and every sequence of heartbeats the buffer
holds the window, of a thousand intervals. The sum that is divided is the
sum of the window exactly when that fits an `int`. If time does not go back
and the initial interval is not negative, the sum of the window is not
negative. -/
theorem window_sum_iff (failureThreshold initialValue : Int) (createdOn : Time)
    (times : List Time) :
    ((create failureThreshold initialValue createdOn).heartbeats times).intervals.contents =
      window initialValue createdOn times ∧
    (window initialValue createdOn times).length = sampleSize ∧
    (((create failureThreshold initialValue createdOn).heartbeats times).intervalSum =
        (window initialValue createdOn times).sum ↔
      -2 ^ 31 ≤ (window initialValue createdOn times).sum ∧
        (window initialValue createdOn times).sum < 2 ^ 31) ∧
    (0 ≤ initialValue → (createdOn :: times).IsChain (· ≤ ·) →
      0 ≤ (window initialValue createdOn times).sum) := by
  have held := contents_heartbeats failureThreshold initialValue createdOn times
  refine ⟨held, ?_, ?_, ?_⟩
  · rw [window, List.rtake, List.length_drop, List.length_append, List.length_replicate]
    omega
  · rw [intervalSum, held]
    exact accumulate_exact_iff _
  · intro initial ordered
    refine List.sum_nonneg fun interval member => ?_
    rcases List.mem_append.mp (List.mem_of_mem_drop member) with copy | gap
    · rw [List.eq_of_mem_replicate copy]
      exact initial
    · exact gaps_nonneg createdOn times ordered interval gap

/-- One heartbeat after 2147483648 milliseconds, with an initial interval of
one second: the exact sum is positive, and the one that is divided is
negative. -/
theorem long_gap_wraps :
    (window 1000 0 [2147483648000000]).sum = 2148482648 ∧
      ((create 8 1000 0).heartbeats [2147483648000000]).intervalSum = -2146484648 := by
  have exactSum : (window 1000 0 [2147483648000000]).sum = 2148482648 := by
    have split : window 1000 0 [2147483648000000] = List.replicate 999 1000 ++ [2147483648] := by
      have gap : milliseconds (2147483648000000 - 0) = 2147483648 := by decide
      rw [window, gaps, gaps, gap, sampleSize, List.rtake_concat_succ, List.rtake,
        List.length_replicate, List.drop_replicate]
    rw [split, List.sum_append, List.sum_replicate]
    decide
  refine ⟨exactSum, ?_⟩
  rw [intervalSum, contents_heartbeats, accumulate_eq, exactSum]
  decide

/-- The phi value in exact arithmetic, written without the operations of the
type. -/
def exactPhi (detector : FailureDetector) (now : Time) : Rat :=
  43429448190 / 10 ^ 11 * (detector.currentInterval now / (detector.intervalSum / sampleSize))

/-- A phi value that is not positive is below every positive threshold. -/
theorem up_of_exactPhi_nonpos (detector : FailureDetector) (now : Time)
    (positive : 0 < detector.failureThreshold) (nonpos : detector.exactPhi now ≤ 0) :
    detector.interpret FloatOps.exact now = .up := by
  have below : detector.exactPhi now < detector.failureThreshold :=
    lt_of_le_of_lt nonpos (Int.cast_pos.mpr positive)
  refine if_neg ?_
  simpa [FloatOps.exact, currentPhi, currentIntervalAverage, exactPhi] using below

/-- At the time of its last heartbeat a node is found up, whatever the
intervals before. -/
theorem interpret_lastHeartbeat (detector : FailureDetector)
    (positive : 0 < detector.failureThreshold) :
    detector.interpret FloatOps.exact detector.lastHeartbeat = .up := by
  apply up_of_exactPhi_nonpos detector _ positive
  simp [exactPhi, currentInterval, milliseconds]

/-- While the sum is negative a node is found up, however long ago its last
heartbeat was. The quotient is negative, and more so the longer the node is
silent. -/
theorem up_of_negative_sum (detector : FailureDetector) (now : Time)
    (positive : 0 < detector.failureThreshold) (wrapped : detector.intervalSum < 0)
    (forward : detector.lastHeartbeat ≤ now) :
    detector.interpret FloatOps.exact now = .up := by
  have elapsed : 0 ≤ detector.currentInterval now :=
    Int.tdiv_nonneg (Int.sub_nonneg_of_le forward) (by decide)
  have average : (detector.intervalSum / sampleSize : Rat) ≤ 0 :=
    div_nonpos_of_nonpos_of_nonneg (Int.cast_nonpos.mpr wrapped.le) (Nat.cast_nonneg _)
  apply up_of_exactPhi_nonpos detector now positive
  apply mul_nonpos_of_nonneg_of_nonpos (by positivity)
  exact div_nonpos_of_nonneg_of_nonpos (Int.cast_nonneg elapsed) average

end FailureDetector

end Sopmq
