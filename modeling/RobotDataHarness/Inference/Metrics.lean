import Mathlib.Algebra.Order.Ring.Rat
import Mathlib.Algebra.Order.Floor.Defs
import Mathlib.Data.Rat.Floor
import Mathlib.Data.List.Sort
import RobotDataHarness.Models.Schemas

/-!
# Inference metrics

`robot_dh/inference/metrics.py`: counts, throughput and latency percentiles of a list
of predictions.
-/

namespace RobotDataHarness.Inference

open RobotDataHarness.Models

/-- `percentile`: linear interpolation between the two nearest ranks. -/
def percentile (values : List ℚ) (q : ℚ) : Option ℚ :=
  match values.insertionSort (· ≤ ·) with
  | [] => none
  | [v] => some v
  | clean =>
    let idx : ℚ := q * (clean.length - 1)
    let lo := ⌊idx⌋.toNat
    let hi := min (lo + 1) (clean.length - 1)
    let frac : ℚ := idx - lo
    some (clean.getD lo 0 + (clean.getD hi 0 - clean.getD lo 0) * frac)

/-- `InferenceMetrics`. -/
structure InferenceMetrics where
  totalSamples : ℕ
  succeededSamples : ℕ
  failedSamples : ℕ
  durationSec : ℚ
  samplesPerSec : Option ℚ
  avgLatencyMs : Option ℚ
  p50LatencyMs : Option ℚ
  p95LatencyMs : Option ℚ
  p99LatencyMs : Option ℚ
  errorRate : ℚ
  deriving DecidableEq

/-- `round(x, ndigits)`: to the nearest multiple, ties to the even one. -/
def pyRound (x : ℚ) (ndigits : ℕ) : ℚ :=
  let scaled := x * 10 ^ ndigits
  let lower := ⌊scaled⌋
  let up := scaled - lower > 1 / 2 ∨ (scaled - lower = 1 / 2 ∧ lower % 2 = 1)
  (if up then lower + 1 else lower) / 10 ^ ndigits

/-- `InferenceMetrics.to_dict`: the same fields, rounded. -/
def InferenceMetrics.toDict (m : InferenceMetrics) : InferenceMetrics :=
  { m with
    durationSec := pyRound m.durationSec 6
    samplesPerSec := m.samplesPerSec.map (pyRound · 4)
    avgLatencyMs := m.avgLatencyMs.map (pyRound · 4)
    p50LatencyMs := m.p50LatencyMs.map (pyRound · 4)
    p95LatencyMs := m.p95LatencyMs.map (pyRound · 4)
    p99LatencyMs := m.p99LatencyMs.map (pyRound · 4)
    errorRate := pyRound m.errorRate 6 }

/-- The failed predictions. -/
def failedCount (predictions : List InferencePrediction) : ℕ :=
  predictions.length - predictions.countP (fun p => p.status = .ok)

/-- The share of failed predictions; no predictions, no failures. -/
def errorRate (total failed : ℕ) : ℚ := if total > 0 then failed / total else 0

/-- `compute_metrics`. -/
def computeMetrics (predictions : List InferencePrediction) (durationSec : ℚ) : InferenceMetrics :=
  let total := predictions.length
  let failed := failedCount predictions
  let latencies := predictions.filterMap (·.latencyMs)
  { totalSamples := total
    succeededSamples := predictions.countP (fun p => p.status = .ok)
    failedSamples := failed
    durationSec := durationSec
    samplesPerSec := if durationSec > 0 then some (total / durationSec) else none
    avgLatencyMs := if latencies.isEmpty then none else some (latencies.sum / latencies.length)
    p50LatencyMs := percentile latencies (50 / 100)
    p95LatencyMs := percentile latencies (95 / 100)
    p99LatencyMs := percentile latencies (99 / 100)
    errorRate := errorRate total failed }

section

variable (predictions : List InferencePrediction) (durationSec : ℚ)

@[simp] theorem computeMetrics_totalSamples :
    (computeMetrics predictions durationSec).totalSamples = predictions.length := rfl

@[simp] theorem computeMetrics_failedSamples :
    (computeMetrics predictions durationSec).failedSamples = failedCount predictions := rfl

@[simp] theorem computeMetrics_errorRate :
    (computeMetrics predictions durationSec).errorRate =
      errorRate predictions.length (failedCount predictions) := rfl

theorem failedCount_eq_countP :
    failedCount predictions = predictions.countP (fun p => p.status ≠ .ok) := by
  have h :=
    List.length_eq_countP_add_countP (fun p : InferencePrediction => decide (p.status = .ok))
    (l := predictions)
  have hneg : (fun p : InferencePrediction => decide (¬decide (p.status = .ok) = true)) =
      fun p => decide (p.status ≠ .ok) := by
    funext p
    simp
  rw [hneg] at h
  rw [failedCount]
  omega

theorem failedCount_le_length : failedCount predictions ≤ predictions.length := by
  rw [failedCount_eq_countP]
  exact List.countP_le_length

end

end RobotDataHarness.Inference
