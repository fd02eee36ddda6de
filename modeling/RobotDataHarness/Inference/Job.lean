import RobotDataHarness.AiTasks.State
import RobotDataHarness.Inference.Metrics
import RobotDataHarness.Lake.Uri
import RobotDataHarness.Library.KeyedTable

/-!
# Inference jobs and their rows

`robot_dh/inference/job.py` and the `inference_jobs` table: the in-memory job, the row
it is stored as, and the table keyed by `job_id`.
-/

namespace RobotDataHarness.Inference

open RobotDataHarness.AiTasks
open RobotDataHarness.Lake
open RobotDataHarness.Library
open RobotDataHarness.Models

/-- A point in time, in microseconds. -/
abbrev Timestamp := ℤ

/-- The entries of `InferenceJob.config`; an entry a row lacks has its default. -/
structure JobConfig where
  split : String := "all"
  limit : Option ℤ := none
  retry : ℤ := 0
  timeoutSec : Option ℤ := none
  failFast : Bool := false
  maxErrorRate : ℚ := 1 / 2
  backend : Option BackendName := none
  recordToRegistry : Bool := false
  deriving DecidableEq

/-- The columns `InferenceJob` and `InferenceJobRow` share: `InferenceJob.to_row_kwargs`. -/
structure InferenceJob where
  jobId : String
  modelId : String
  inputUri : LakeUri
  outputUri : LakeUri
  taskType : TaskType
  status : JobStatus := .created
  jobName : Option String := none
  inputFormat : Option String := none
  outputFormat : Option String := some "parquet"
  datasetId : Option String := none
  version : Option String := none
  datasetFamily : Option String := none
  priority : ℤ := 0
  batchSize : Option ℤ := none
  maxWorkers : Option ℤ := none
  totalSamples : ℕ := 0
  processedSamples : ℕ := 0
  failedSamples : ℕ := 0
  startedAt : Option Timestamp := none
  finishedAt : Option Timestamp := none
  durationSec : Option ℚ := none
  errorMessage : Option String := none
  config : JobConfig := {}
  metrics : Option InferenceMetrics := none
  deriving DecidableEq

/-- `InferenceJobRow`: one row of `inference_jobs`. -/
structure InferenceJobRow extends InferenceJob where
  createdAt : Timestamp
  updatedAt : Timestamp
  deriving DecidableEq

/-- The `inference_jobs` table. -/
abbrev JobTable := KeyedTable InferenceJobRow String (fun r => r.jobId)

namespace JobTable

/-- The status a job has in the table. -/
def status? (jobs : JobTable) (jobId : String) : Option JobStatus :=
  (jobs.get? jobId).map (fun r => r.status)

theorem jobId_of_get? {jobs : JobTable} {jobId : String} {r : InferenceJobRow}
    (h : jobs.get? jobId = some r) : r.jobId = jobId :=
  (KeyedTable.get?_eq_some_iff.mp h).2

theorem status?_of_get? {jobs : JobTable} {jobId : String} {r : InferenceJobRow}
    (h : jobs.get? jobId = some r) : jobs.status? jobId = some r.status := by
  rw [status?, h]
  rfl

theorem get?_of_status? {jobs : JobTable} {jobId : String} {status : JobStatus}
    (h : jobs.status? jobId = some status) :
    ∃ r, jobs.get? jobId = some r ∧ r.status = status := by
  rw [status?, Option.map_eq_some_iff] at h
  exact h

end JobTable

end RobotDataHarness.Inference
