import RobotDataHarness.Inference.Runner
import RobotDataHarness.Warehouse.Dashboards

/-!
# The inference layer

`dws_inference_job_daily` and `ads_inference_dashboard` and their builders on the SQLite path:
`_sqlite_build_dws_inference_job_daily` and `_sqlite_build_ads_inference_dashboard`.  A job
belongs to the day it finished on, or else started on, or else was created on.
-/

namespace RobotDataHarness.Warehouse

open RobotDataHarness.AiTasks
open RobotDataHarness.Inference
open RobotDataHarness.Library
open RobotDataHarness.Models

/-! ## `dws_inference_job_daily` -/

/-- `_job_dt`. -/
def jobDt (job : InferenceJobRow) : Date :=
  dateOf ((job.finishedAt.or job.startedAt).getD job.createdAt)

/-- The key of an inference row: day, model, task type. -/
abbrev InferenceDay := Date × String × TaskType

/-- One entry of `groups`. -/
structure InferenceBucket where
  jobCount : ℕ := 0
  successCount : ℕ := 0
  failCount : ℕ := 0
  totalSamples : ℕ := 0
  processedSamples : ℕ := 0
  failedSamples : ℕ := 0
  durationSec : ℚ := 0
  latencies : List ℚ := []
  backend : Option BackendName := none

/-- `status in ("FAILED", "DEAD_LETTER")`. -/
def isJobFailure (status : JobStatus) : Bool := status ∈ [JobStatus.failed, JobStatus.deadLetter]

/-- The group of a job. -/
def jobKey (w : DateRange) (job : InferenceJobRow) : Option InferenceDay :=
  if w.Covers (jobDt job) then some (jobDt job, job.modelId, job.taskType) else none

/-- `backends.get(model_id)`. -/
def backendOf (S : Sources) (modelId : String) : Option BackendName :=
  (S.modelRegistry.find? (fun m => m.modelId = modelId)).map (fun m => m.backend)

/-- `lat_by_job.get(job_id, [])`. -/
def latenciesOf (S : Sources) (jobId : String) : List ℚ :=
  (S.inferenceOutputs.filter (fun o => o.jobId = jobId)).filterMap (fun o => o.latencyMs)

/-- The loop over the jobs. -/
def addJob (S : Sources) (g : InferenceBucket) (job : InferenceJobRow) : InferenceBucket where
  jobCount := g.jobCount + 1
  successCount := g.successCount + if job.status = .succeeded then 1 else 0
  failCount := g.failCount + if isJobFailure job.status then 1 else 0
  totalSamples := g.totalSamples + job.totalSamples
  processedSamples := g.processedSamples + job.processedSamples
  failedSamples := g.failedSamples + job.failedSamples
  durationSec := g.durationSec + job.durationSec.getD 0
  latencies := g.latencies ++ latenciesOf S job.jobId
  backend := g.backend.or (backendOf S job.modelId)

/-- `groups` after its loop. -/
def inferenceAgg (S : Sources) (w : DateRange) : Groups InferenceDay InferenceBucket :=
  Groups.collect {} (jobKey w) (addJob S) S.inferenceJobs KeyedTable.empty

/-- `DwsInferenceJobDailyRow`, without `updated_at`. -/
structure DwsInferenceJobDailyRow where
  dt : Date
  modelId : String
  backend : Option BackendName
  taskType : TaskType
  jobCount : ℕ
  successCount : ℕ
  failCount : ℕ
  successRate : Option ℚ
  totalSamples : ℕ
  samplesPerSec : Option ℚ
  avgLatencyMs : Option ℚ
  p95LatencyMs : Option ℚ
  errorRate : ℚ
  deriving DecidableEq

/-- The primary key of an inference row. -/
def DwsInferenceJobDailyRow.key (r : DwsInferenceJobDailyRow) : InferenceDay :=
  (r.dt, r.modelId, r.taskType)

/-- `dws_inference_job_daily`. -/
abbrev DwsInferenceJobDailyTable :=
  KeyedTable DwsInferenceJobDailyRow InferenceDay DwsInferenceJobDailyRow.key

/-- The payload of one group. -/
def inferenceRow (k : InferenceDay) (g : InferenceBucket) : DwsInferenceJobDailyRow where
  dt := k.1
  modelId := k.2.1
  backend := g.backend
  taskType := k.2.2
  jobCount := g.jobCount
  successCount := g.successCount
  failCount := g.failCount
  successRate := rate g.successCount g.jobCount
  totalSamples := g.totalSamples
  samplesPerSec := if g.durationSec > 0 then some (g.processedSamples / g.durationSec) else none
  avgLatencyMs := mean g.latencies
  p95LatencyMs := Inference.percentile g.latencies (95 / 100)
  errorRate := (rate g.failedSamples g.totalSamples).getD 0

@[simp] theorem key_inferenceRow (k : InferenceDay) (g : InferenceBucket) :
    (inferenceRow k g).key = k := rfl

/-- The rows one build writes. -/
def inferenceRows (S : Sources) (w : DateRange) : List DwsInferenceJobDailyRow :=
  (inferenceAgg S w).rows.map (fun e => inferenceRow e.1 e.2)

/-- `_sqlite_build_dws_inference_job_daily`. -/
def sqliteBuildDwsInferenceJobDaily (S : Sources) (w : DateRange) (t : DwsInferenceJobDailyTable) :
    DwsInferenceJobDailyTable :=
  t.upsertAll (inferenceRows S w)

section Bucket

variable (S : Sources) (w : DateRange) (k : InferenceDay)

/-- The jobs of a group. -/
def jobsOf : List InferenceJobRow := S.inferenceJobs.filter (fun job => jobKey w job = some k)

/-- The bucket of a group after the loop. -/
def inferenceBucket : InferenceBucket := Groups.getD {} (inferenceAgg S w) k

theorem inferenceBucket_eq : inferenceBucket S w k = (jobsOf S w k).foldl (addJob S) {} := by
  rw [inferenceBucket, inferenceAgg, Groups.getD_collect_empty, jobsOf]

/-- The groups that have a row: those of some job. -/
theorem mem_keys_inferenceAgg : k ∈ Groups.keys (inferenceAgg S w) ↔ jobsOf S w k ≠ [] := by
  rw [inferenceAgg, Groups.mem_keys_collect_empty, jobsOf]

theorem jobCount_inferenceBucket : (inferenceBucket S w k).jobCount = (jobsOf S w k).length := by
  rw [inferenceBucket_eq, foldl_count InferenceBucket.jobCount (fun _ => true) (by simp [addJob])]
  simp

theorem successCount_inferenceBucket :
    (inferenceBucket S w k).successCount =
      (jobsOf S w k).countP (fun job => job.status = .succeeded) := by
  rw [inferenceBucket_eq,
    foldl_count InferenceBucket.successCount (fun job => job.status = .succeeded)
      (by simp [addJob])]
  simp

theorem totalSamples_inferenceBucket :
    (inferenceBucket S w k).totalSamples =
      ((jobsOf S w k).map fun job => job.totalSamples).sum := by
  rw [inferenceBucket_eq,
    foldl_add InferenceBucket.totalSamples (fun job => job.totalSamples) (by simp [addJob])]
  simp

theorem failedSamples_inferenceBucket :
    (inferenceBucket S w k).failedSamples =
      ((jobsOf S w k).map fun job => job.failedSamples).sum := by
  rw [inferenceBucket_eq,
    foldl_add InferenceBucket.failedSamples (fun job => job.failedSamples) (by simp [addJob])]
  simp

end Bucket

/-! ## `ads_inference_dashboard` -/

/-- `AdsInferenceDashboardRow`, without `updated_at`. -/
structure AdsInferenceDashboardRow where
  dt : Date
  modelId : String
  backend : Option BackendName
  taskType : TaskType
  overallStatus : OverallStatus
  jobCount : ℕ
  successRate : Option ℚ
  totalSamples : ℕ
  samplesPerSec : Option ℚ
  p95LatencyMs : Option ℚ
  errorRate : ℚ
  topErrorType : Option String
  alertLevel : AlertLevel
  alertReason : Option String
  deriving DecidableEq

/-- The primary key of a dashboard row. -/
def AdsInferenceDashboardRow.key (r : AdsInferenceDashboardRow) : InferenceDay :=
  (r.dt, r.modelId, r.taskType)

/-- `ads_inference_dashboard`. -/
abbrev AdsInferenceDashboardTable :=
  KeyedTable AdsInferenceDashboardRow InferenceDay AdsInferenceDashboardRow.key

/-- `overall`. -/
def inferenceOverall (sr er : ℚ) : OverallStatus :=
  if sr < 8 / 10 ∨ er > 2 / 10 then .fail else if sr < 95 / 100 then .warn else .pass

/-- `alert, reason`. -/
def inferenceAlert (sr er : ℚ) : AlertLevel × Option String :=
  if sr < 8 / 10 ∨ er > 2 / 10 then
    (.critical, some (if sr < 8 / 10 then "success_rate<0.8" else "error_rate>0.2"))
  else if sr < 95 / 100 then (.warn, some "success_rate<0.95")
  else (.ok, none)

theorem inferenceOverall_eq_fail_iff (sr er : ℚ) :
    inferenceOverall sr er = .fail ↔ sr < 8 / 10 ∨ er > 2 / 10 := by
  simp only [inferenceOverall]
  split
  · simpa using ‹_›
  · next h => split <;> simpa using h

/-- The group of the job a failure belongs to; the failure of an unknown job has none. -/
def failureKey (S : Sources) (w : DateRange) (f : InferenceFailureRow) : Option InferenceDay :=
  (S.inferenceJobs.find? (fun job => job.jobId = f.jobId)).bind (jobKey w)

/-- `err_counts.get(key)`: the error types of a group, with their counts. -/
def errCounts (S : Sources) (w : DateRange) (k : InferenceDay) : List (String × ℕ) :=
  (Groups.collect 0 (fun f : InferenceFailureRow => pyOr f.errorType (some "UNKNOWN")) (fun n _ =>
    n + 1)
    (S.inferenceFailures.filter (fun f => failureKey S w f = some k)) KeyedTable.empty).rows

/-- The payload of one daily row. -/
def adsInferenceRow (S : Sources) (w : DateRange) (d : DwsInferenceJobDailyRow) :
    AdsInferenceDashboardRow :=
  let sr := d.successRate.getD 1
  { dt := d.dt
    modelId := d.modelId
    backend := d.backend
    taskType := d.taskType
    overallStatus := inferenceOverall sr d.errorRate
    jobCount := d.jobCount
    successRate := d.successRate
    totalSamples := d.totalSamples
    samplesPerSec := d.samplesPerSec
    p95LatencyMs := d.p95LatencyMs
    errorRate := d.errorRate
    topErrorType := topError (errCounts S w d.key)
    alertLevel := (inferenceAlert sr d.errorRate).1
    alertReason := (inferenceAlert sr d.errorRate).2 }

/-- The rows one build writes. -/
def adsInferenceRows (S : Sources) (w : DateRange) (dws : DwsInferenceJobDailyTable) :
    List AdsInferenceDashboardRow :=
  (dws.rows.filter (fun d => w.Covers d.dt)).map (adsInferenceRow S w)

/-- `_sqlite_build_ads_inference_dashboard`. -/
def sqliteBuildAdsInferenceDashboard (S : Sources) (w : DateRange) (dws : DwsInferenceJobDailyTable)
    (t : AdsInferenceDashboardTable) : AdsInferenceDashboardTable :=
  t.upsertAll (adsInferenceRows S w dws)

end RobotDataHarness.Warehouse
