import Mathlib.Algebra.Order.BigOperators.Group.List
import RobotDataHarness.Inference.Lifecycle
import RobotDataHarness.Warehouse.InferenceDaily
import RobotDataHarness.Worker.Queue

/-!
# Rates of the inference layer

What the daily rates of inference jobs say about the jobs, whose rows are written by
`run_inference` and by the queue worker.
-/

namespace RobotDataHarness.Warehouse

open RobotDataHarness.AiTasks
open RobotDataHarness.Inference
open RobotDataHarness.Library
open RobotDataHarness.Models
open RobotDataHarness.Worker

/-! ## The rows of the two writers -/

/-- A row of `inference_jobs`: as `run_inference` writes it, or queued without a sample processed,
claimed by a worker, finished by a worker. -/
inductive WrittenJob : InferenceJobRow → Prop
  | runner {env : InferenceEnv} {args : RunArgs} {job : InferenceJob} {createdAt updatedAt :
      Timestamp} :
      Effect.jobRow job ∈ (runInference env args).effects → WrittenJob ⟨job, createdAt, updatedAt⟩
  | queued {r : InferenceJobRow} : r.processedSamples = 0 → r.failedSamples = 0 → WrittenJob r
  | claimed {r : InferenceJobRow} {now : Timestamp} : WrittenJob r → WrittenJob (setRunning now r)
  | finalized {r : InferenceJobRow} {status : JobStatus} {predictions : List InferencePrediction}
      {duration : ℚ} {now : Timestamp} :
      WrittenJob r →
        WrittenJob (setFinished status (computeMetrics predictions duration) duration now r)

section Runner

variable {env : InferenceEnv} {args : RunArgs} {job : InferenceJob}

/-- A write of a row writes that row. -/
theorem eq_of_mem_writeJobPg {site : JobWrite} {job' : InferenceJob}
    (h : Effect.jobRow job ∈ (writeJobPg env args site job').effects) : job = job' := by
  rw [writeJobPg, Effectful.when] at h
  split at h
  · cases hsite : env.jobWrite site with
    | committed => simpa [bestEffort, hsite] using h
    | swallowed => simp [bestEffort, hsite] at h
    | raised err => simp [bestEffort, hsite] at h
  · simp at h

/-- No row is written by a part that avoids the writing of statuses. -/
theorem not_mem_of_avoids {α : Type} {p : Inference.Run α} (hp : Effectful.Avoids jobStatus? p) :
    Effect.jobRow job ∉ p.effects := by
  intro h
  have hnone := hp _ h
  cases hnone

/-- What the samples come to has the counts of its predictions. -/
theorem failedSamples_le_of_produceOutputs {spec : ModelSpec} {running : InferenceJob}
    {samples : List InferenceSample} {done : InferenceJob × JobOutcome × InferenceReport}
    (h : (produceOutputs env args spec running samples).result = .ok done) :
    done.1.failedSamples ≤ done.1.processedSamples := by
  obtain ⟨executed, hdone⟩ := exists_concluded h
  rw [hdone]
  exact failedCount_le_length _

theorem failedSamples_le_of_runInference (h : Effect.jobRow job ∈ (runInference env args).effects) :
    job.failedSamples ≤ job.processedSamples := by
  rw [runInference, Effectful.mem_effects_bind] at h
  obtain ⟨spec, -, h⟩ := h.resolve_left (not_mem_of_avoids (Effectful.avoids_lift _))
  cases spec with
  | none => exact absurd h (not_mem_of_avoids (Effectful.avoids_raise _))
  | some spec =>
    simp only [runSpec, Effectful.mem_effects_bind] at h
    rcases h with h | ⟨_, -, h | ⟨samples, -, h⟩⟩
    · cases eq_of_mem_writeJobPg h
      exact le_refl 0
    · exact absurd h (not_mem_of_avoids (avoids_buildSamples env args fun _ => rfl))
    · simp only [runSamples, Effectful.mem_effects_bind] at h
      rcases h with h | ⟨_, -, h | ⟨done, hdone, h⟩⟩
      · cases eq_of_mem_writeJobPg h
        exact le_refl 0
      · exact absurd h (not_mem_of_avoids (avoids_produceOutputs_jobStatus env args _ _ _))
      · obtain ⟨finished, outcome, report⟩ := done
        simp only [recordOutcome, Effectful.mem_effects_bind] at h
        rcases h with h | ⟨_, -, h | ⟨_, -, h⟩⟩
        · cases eq_of_mem_writeJobPg h
          exact failedSamples_le_of_produceOutputs hdone
        · exact absurd h
            (not_mem_of_avoids (avoids_announceOutcome env (fun _ => rfl) (fun _ _ => rfl) _ _))
        · exact absurd h (not_mem_of_avoids (Effectful.avoids_pure _))

end Runner

/-- In the row of a job no more samples have failed than were processed. -/
theorem WrittenJob.failedSamples_le {r : InferenceJobRow} (h : WrittenJob r) :
    r.failedSamples ≤ r.processedSamples := by
  induction h with
  | runner h => exact failedSamples_le_of_runInference h
  | queued hprocessed hfailed => rw [hprocessed, hfailed]
  | claimed _ ih => exact ih
  | finalized _ _ => exact failedCount_le_length _

/-! ## Honest rates -/

/-- The share of failed samples among the processed ones; none processed, none failed. -/
def failedShare (jobs : List InferenceJobRow) : ℚ :=
  (rate (jobs.map fun job => job.failedSamples).sum (jobs.map fun job =>
    job.processedSamples).sum).getD 0

/-- The jobs that have ended. -/
def endedCount (jobs : List InferenceJobRow) : ℕ := jobs.countP fun job => job.status.isTerminal

/-- The jobs that succeeded. -/
def succeededCount (jobs : List InferenceJobRow) : ℕ :=
  jobs.countP fun job => job.status = .succeeded

/-- A daily row and the dashboard row made of it say of its jobs what is the case. -/
structure HonestRow (S : Sources) (w : DateRange) (row : DwsInferenceJobDailyRow) : Prop where
  errorRate_mem : 0 ≤ row.errorRate ∧ row.errorRate ≤ 1
  errorRate_eq : row.errorRate = failedShare (jobsOf S w row.key)
  successRate_eq :
    row.successRate = rate (succeededCount (jobsOf S w row.key)) (endedCount (jobsOf S w row.key))
  fail_only : (adsInferenceRow S w row).overallStatus = .fail →
    (∃ job ∈ jobsOf S w row.key, isJobFailure job.status) ∨
      failedShare (jobsOf S w row.key) > 2 / 10

/-- The jobs of a group whose rates are honest. -/
structure FairGroup (jobs : List InferenceJobRow) : Prop where
  samples : (jobs.map fun job => job.failedSamples).sum = 0 ∨
    (jobs.map fun job => job.totalSamples).sum = (jobs.map fun job => job.processedSamples).sum
  ended : (∀ job ∈ jobs, job.status.isTerminal) ∨
    ((∀ job ∈ jobs, job.status ≠ .succeeded) ∧ ∃ job ∈ jobs, job.status.isTerminal)
  failures : (∃ job ∈ jobs, isJobFailure job.status) ∨
    (jobs.map fun job => job.processedSamples).sum <
      5 * (jobs.map fun job => job.failedSamples).sum ∨
    4 * jobs.length ≤ 5 * succeededCount jobs

/-! ## Comparing rates -/

/-- Two bases give one share exactly when they are equal, or there is nothing to share. -/
theorem rate_getD_zero_eq_iff {f t p : ℕ} (h : f ≤ p) : (rate f t).getD 0 = (rate f p).getD 0 ↔
    f = 0 ∨ t = p := by
  rcases Nat.eq_zero_or_pos f with rfl | hf
  · by_cases ht : t = 0 <;> by_cases hp : p = 0 <;> simp [rate, ht, hp]
  · have hp : p ≠ 0 := by omega
    have hfq : (f : ℚ) ≠ 0 := by exact_mod_cast hf.ne'
    have hpq : (p : ℚ) ≠ 0 := by exact_mod_cast hp
    by_cases ht : t = 0
    · subst ht
      have hne : (0 : ℚ) ≠ f / p := (div_ne_zero hfq hpq).symm
      simp [rate, hp, hf.ne', Ne.symm hp, hne]
    · have htq : (t : ℚ) ≠ 0 := by exact_mod_cast ht
      simp only [rate, if_neg ht, if_neg hp, Option.getD_some, hf.ne', false_or]
      rw [div_eq_div_iff htq hpq, mul_right_inj' hfq, eq_comm]
      exact Nat.cast_inj

/-- The same of two rates, the first of which has a base. -/
theorem rate_eq_rate_iff {s n t : ℕ} (hn : 0 < n) : rate s n = rate s t ↔
    n = t ∨ (s = 0 ∧ 0 < t) := by
  have hnq : (n : ℚ) ≠ 0 := by exact_mod_cast hn.ne'
  rcases Nat.eq_zero_or_pos t with rfl | ht
  · simp [rate, hn.ne']
  · have htq : (t : ℚ) ≠ 0 := by exact_mod_cast ht.ne'
    rw [rate, rate, if_neg hn.ne', if_neg ht.ne', Option.some_inj, div_eq_div_iff hnq htq, eq_comm]
    rcases Nat.eq_zero_or_pos s with rfl | hs
    · simp [ht]
    · have hsq : (s : ℚ) ≠ 0 := by exact_mod_cast hs.ne'
      rw [mul_right_inj' hsq, Nat.cast_inj]
      simp [hs.ne']

theorem rate_lt_iff {s n : ℕ} (hn : 0 < n) : (rate s n).getD 1 < 8 / 10 ↔ ¬4 * n ≤ 5 * s := by
  have hnq : (0 : ℚ) < n := by exact_mod_cast hn
  rw [rate, if_neg hn.ne', Option.getD_some, div_lt_iff₀ hnq, not_le, ← Nat.cast_lt (α := ℚ)]
  push_cast
  constructor <;> intro h <;> linarith

theorem lt_rate_iff {f p : ℕ} (h : f ≤ p) : (rate f p).getD 0 > 2 / 10 ↔ p < 5 * f := by
  rcases Nat.eq_zero_or_pos p with rfl | hp
  · obtain rfl : f = 0 := Nat.le_zero.mp h
    norm_num [rate]
  · have hpq : (0 : ℚ) < p := by exact_mod_cast hp
    rw [rate, if_neg hp.ne', Option.getD_some, gt_iff_lt, lt_div_iff₀ hpq, ← Nat.cast_lt (α := ℚ)]
    push_cast
    constructor <;> intro h <;> linarith

theorem rate_getD_mem {f p : ℕ} (h : f ≤ p) : 0 ≤ (rate f p).getD 0 ∧ (rate f p).getD 0 ≤ 1 := by
  rcases Nat.eq_zero_or_pos p with rfl | hp
  · simp [rate]
  · have hpq : (0 : ℚ) < p := by exact_mod_cast hp
    have hle : (f : ℚ) ≤ p := by exact_mod_cast h
    rw [rate, if_neg hp.ne', Option.getD_some]
    exact ⟨by positivity, (div_le_one hpq).mpr hle⟩

/-! ## When the rates are honest -/

section Honest

variable {S : Sources} {w : DateRange} {k : InferenceDay}

/-- Over a group no more samples have failed than were processed. -/
theorem sum_failedSamples_le {jobs : List InferenceJobRow}
    (h : ∀ job ∈ jobs, job.failedSamples ≤ job.processedSamples) :
    (jobs.map fun job => job.failedSamples).sum ≤ (jobs.map fun job => job.processedSamples).sum :=
  List.sum_le_sum h

/-- All jobs have ended exactly when as many have ended as there are. -/
theorem length_eq_endedCount_iff (jobs : List InferenceJobRow) :
    jobs.length = endedCount jobs ↔ ∀ job ∈ jobs, job.status.isTerminal := by
  rw [endedCount, eq_comm, List.countP_eq_length]
  simp

/-- One row, in terms of the jobs of its group. -/
theorem honestRow_iff (hjobs : ∀ job ∈ jobsOf S w k, job.failedSamples ≤ job.processedSamples)
    (hne : jobsOf S w k ≠ []) :
    HonestRow S w (inferenceRow k (inferenceBucket S w k)) ↔ FairGroup (jobsOf S w k) := by
  have hle := sum_failedSamples_le hjobs
  have hlen : 0 < (jobsOf S w k).length := List.length_pos_iff.mpr hne
  have herror : (inferenceRow k (inferenceBucket S w k)).errorRate = failedShare (jobsOf S w k) ↔
      (jobsOf S w k |>.map fun job => job.failedSamples).sum = 0 ∨
        (jobsOf S w k |>.map fun job => job.totalSamples).sum =
          (jobsOf S w k |>.map fun job => job.processedSamples).sum := by
    simp only [inferenceRow, failedShare, failedSamples_inferenceBucket,
      totalSamples_inferenceBucket]
    exact rate_getD_zero_eq_iff hle
  have hsuccess : (inferenceRow k (inferenceBucket S w k)).successRate =
      rate (succeededCount (jobsOf S w k)) (jobsOf S w k).length := by
    simp only [inferenceRow, jobCount_inferenceBucket, successCount_inferenceBucket, succeededCount]
  have hended : rate (succeededCount (jobsOf S w k)) (jobsOf S w k).length =
        rate (succeededCount (jobsOf S w k)) (endedCount (jobsOf S w k)) ↔
      (∀ job ∈ jobsOf S w k, job.status.isTerminal) ∨
        ((∀ job ∈ jobsOf S w k, job.status ≠ .succeeded) ∧ ∃ job ∈ jobsOf S w k,
          job.status.isTerminal) := by
    rw [rate_eq_rate_iff hlen, length_eq_endedCount_iff, succeededCount, endedCount,
      List.countP_eq_zero, List.countP_pos_iff]
    simp
  -- with the error rate right, only a low success rate can fail the row without a failure
  have hfail : (inferenceRow k (inferenceBucket S w k)).errorRate = failedShare (jobsOf S w k) →
      (((adsInferenceRow S w (inferenceRow k (inferenceBucket S w k))).overallStatus = .fail →
        (∃ job ∈ jobsOf S w k, isJobFailure job.status) ∨ failedShare (jobsOf S w k) > 2 / 10) ↔
      ((∃ job ∈ jobsOf S w k, isJobFailure job.status) ∨
        (jobsOf S w k |>.map fun job => job.processedSamples).sum <
          5 * (jobsOf S w k |>.map fun job => job.failedSamples).sum ∨
        4 * (jobsOf S w k).length ≤ 5 * succeededCount (jobsOf S w k))) := by
    intro herr
    simp only [adsInferenceRow, inferenceOverall_eq_fail_iff, herr, hsuccess]
    rw [rate_lt_iff hlen, failedShare, lt_rate_iff hle]
    generalize (∃ job ∈ jobsOf S w k, isJobFailure job.status = true) = failure
    tauto
  constructor
  · rintro ⟨-, herr, hsucc, hfails⟩
    rw [key_inferenceRow] at herr hsucc hfails
    exact ⟨herror.mp herr, hended.mp (hsuccess.symm.trans hsucc), (hfail herr).mp hfails⟩
  · rintro ⟨hsamples, hend, hfailures⟩
    have herr := herror.mpr hsamples
    refine ⟨?_, ?_, ?_, ?_⟩
    · rw [herr]
      exact rate_getD_mem hle
    · rwa [key_inferenceRow]
    · rw [key_inferenceRow]
      exact hsuccess.trans (hended.mpr hend)
    · rw [key_inferenceRow]
      exact (hfail herr).mpr hfailures

theorem mem_inferenceRows {row : DwsInferenceJobDailyRow} :
    row ∈ inferenceRows S w ↔
      ∃ k, jobsOf S w k ≠ [] ∧ inferenceRow k (inferenceBucket S w k) = row := by
  simp only [inferenceRows, Groups.mem_map_rows inferenceRow {} row, mem_keys_inferenceAgg]
  rfl

variable (S w)

/-- The rates of every row are honest exactly when every group is fair. -/
theorem honestRows_iff (hjobs : ∀ job ∈ S.inferenceJobs, WrittenJob job) :
    (∀ row ∈ inferenceRows S w, HonestRow S w row) ↔
      ∀ k, jobsOf S w k ≠ [] → FairGroup (jobsOf S w k) := by
  have hle : ∀ k, ∀ job ∈ jobsOf S w k, job.failedSamples ≤ job.processedSamples :=
    fun k job hjob => (hjobs job (List.mem_filter.mp hjob).1).failedSamples_le
  constructor
  · intro h k hne
    exact (honestRow_iff (hle k) hne).mp (h _ (mem_inferenceRows.mpr ⟨k, hne, rfl⟩))
  · intro h row hrow
    obtain ⟨k, hne, rfl⟩ := mem_inferenceRows.mp hrow
    exact (honestRow_iff (hle k) hne).mpr (h k hne)

end Honest

/-- A job queued with nothing counted. -/
def queuedJob : InferenceJobRow where
  jobId := "job-1"
  modelId := "m"
  inputUri := ⟨.localAbsolute, ["in"]⟩
  outputUri := ⟨.localAbsolute, ["out"]⟩
  taskType := .caption
  status := .queued
  createdAt := 0
  updatedAt := 0

/-- The job after a worker has run it on samples with the given outcomes. -/
def workerJob (outcomes : List PredictionStatus) : InferenceJobRow :=
  let predictions :=
    outcomes.map fun status => { sampleId := "s", predictionType := .caption, status := status }
  let metrics := computeMetrics predictions 1
  setFinished (workerStatus metrics) metrics 1 0 (setRunning 0 queuedJob)

theorem writtenJob_queuedJob : WrittenJob queuedJob := .queued rfl rfl

theorem writtenJob_workerJob (outcomes : List PredictionStatus) : WrittenJob (workerJob outcomes) :=
  .finalized (.claimed writtenJob_queuedJob)

theorem honestRows_workerJob :
    (inferenceRows { inferenceJobs := [workerJob [.ok]] } (.single 0)).length = 1 ∧
      ∀ row ∈ inferenceRows { inferenceJobs := [workerJob [.ok]] } (.single 0),
        HonestRow { inferenceJobs := [workerJob [.ok]] } (.single 0) row := by
  have hjobs : ∀ job ∈ [workerJob [.ok]], WrittenJob job := by simp [writtenJob_workerJob]
  refine ⟨by decide +kernel,
    (honestRows_iff { inferenceJobs := [workerJob [.ok]] } (.single 0) hjobs).mpr fun k hne => ?_⟩
  -- the only group is that of the one job
  have hgroup : jobsOf { inferenceJobs := [workerJob [.ok]] } (.single 0) k =
      [workerJob [.ok]] := by
    rw [jobsOf, List.filter_eq_self]
    intro job hjob
    obtain ⟨job', hmem⟩ := List.exists_mem_of_ne_nil _ hne
    obtain ⟨hmem, hkey⟩ := List.mem_filter.mp hmem
    rw [List.mem_singleton.mp hjob, ← List.mem_singleton.mp hmem]
    exact hkey
  rw [hgroup]
  exact ⟨by decide +kernel, by decide +kernel, by decide +kernel⟩

/-- A failed sample of a job whose total was never set is hidden, and a job that only waits
fails the dashboard. -/
theorem worker_rows_are_not_honest :
    (∀ job ∈ [workerJob [.ok, .failed], queuedJob], WrittenJob job) ∧
    ¬(∀ row ∈ inferenceRows { inferenceJobs := [workerJob [.ok, .failed]] } (.single 0),
      HonestRow { inferenceJobs := [workerJob [.ok, .failed]] } (.single 0) row) ∧
    ¬∀ row ∈ inferenceRows { inferenceJobs := [queuedJob] } (.single 0),
      HonestRow { inferenceJobs := [queuedJob] } (.single 0) row := by
  refine ⟨by simp [writtenJob_workerJob, writtenJob_queuedJob], fun h => ?_, fun h => ?_⟩
  · have herror := fun row hrow => (h row hrow).errorRate_eq
    revert herror
    decide +kernel
  · have hfail := fun row hrow => (h row hrow).fail_only
    revert hfail
    decide +kernel

end RobotDataHarness.Warehouse
