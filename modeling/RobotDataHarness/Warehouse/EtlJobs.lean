import RobotDataHarness.Lake.Uri
import RobotDataHarness.Library.Dict
import RobotDataHarness.Library.KeyedTable

/-!
# The job ledger

The table `etl_jobs` of `robot_dh/warehouse/models.py` with the two statements of
`robot_dh/warehouse/service.py` that write it: a start is an insert under a unique job id, a
finish an update by that id.  The service is soft: what the constraint refuses is logged and
passed over.
-/

namespace RobotDataHarness.Warehouse

open RobotDataHarness.Lake
open RobotDataHarness.Library
open RobotDataHarness.Models

/-- The column `status`. -/
inductive EtlJobStatus where
  | running
  | ok
  | warn
  | fail
  deriving DecidableEq, Repr

/-- `EtlJobRow`, less the serial id and `created_at`. -/
structure EtlJobRow where
  jobId : String
  jobType : String
  inputUri : Option LakeUri := none
  outputUri : Option LakeUri := none
  status : EtlJobStatus
  startedAt : Option ℚ
  finishedAt : Option ℚ := none
  durationSec : Option ℚ := none
  errorMessage : Option String := none
  metricsJson : Option PyDict := none
  deriving DecidableEq

/-- The table. -/
abbrev EtlJobs := KeyedTable EtlJobRow String EtlJobRow.jobId

/-- `dict(metrics) if metrics else None`. -/
def dictOrNone (metrics : Option PyDict) : Option PyDict :=
  metrics.filter fun items => !items.isEmpty

/-- `record_etl_job_start`: a job id that is taken leaves the table as it is. -/
def recordEtlJobStart (now : ℚ) (jobId jobType : String) (inputUri outputUri : Option LakeUri)
    (metrics : Option PyDict) (jobs : EtlJobs) : EtlJobs :=
  (jobs.insert
    { jobId := jobId, jobType := jobType, inputUri := inputUri, outputUri := outputUri
      status := .running, startedAt := some now, metricsJson := dictOrNone metrics }).getD jobs

/-- What a finish makes of the row it finds. -/
def EtlJobRow.finished (now : ℚ) (status : EtlJobStatus) (metrics : Option PyDict)
    (errorMessage : Option String) (row : EtlJobRow) : EtlJobRow :=
  { row with
    status := status
    finishedAt := some now
    durationSec := (row.startedAt.map fun started => now - started).or row.durationSec
    errorMessage := errorMessage
    metricsJson := match metrics with
      | none => row.metricsJson
      | some items => some (Dict.update (row.metricsJson.getD []) items) }

@[simp] theorem jobId_finished (now : ℚ) (status : EtlJobStatus) (metrics : Option PyDict)
    (errorMessage : Option String) (row : EtlJobRow) :
    (row.finished now status metrics errorMessage).jobId = row.jobId := rfl

/-- `record_etl_job_finish`: by the job id, whoever started under it. -/
def recordEtlJobFinish (now : ℚ) (jobId : String) (status : EtlJobStatus) (metrics : Option PyDict)
    (errorMessage : Option String) (jobs : EtlJobs) : EtlJobs :=
  match jobs.get? jobId with
  | none => (jobs.insert
      { jobId := jobId, jobType := "unknown", status := status, startedAt := some now
        finishedAt := some now, durationSec := some 0, errorMessage := errorMessage
        metricsJson := dictOrNone metrics }).getD jobs
  | some _ => jobs.updateWhere (fun row => row.jobId = jobId)
      (.finished now status metrics errorMessage) (jobId_finished now status metrics errorMessage)

variable {now : ℚ} {jobId : String} {jobs : EtlJobs}

/-- A start under a new id adds its row. -/
theorem get?_recordEtlJobStart {jobType : String} {inputUri outputUri : Option LakeUri}
    {metrics : Option PyDict} (h : jobs.get? jobId = none) (k : String) :
    (recordEtlJobStart now jobId jobType inputUri outputUri metrics jobs).get? k =
      if k = jobId then some
        { jobId := jobId, jobType := jobType, inputUri := inputUri, outputUri := outputUri
          status := .running, startedAt := some now, metricsJson := dictOrNone metrics }
      else jobs.get? k := by
  rw [recordEtlJobStart]
  cases hinsert : jobs.insert
      { jobId := jobId, jobType := jobType, inputUri := inputUri, outputUri := outputUri
        status := .running, startedAt := some now, metricsJson := dictOrNone metrics } with
  | some jobs' => exact KeyedTable.get?_insert hinsert k
  | none =>
    unfold KeyedTable.insert at hinsert
    split at hinsert
    next hmem =>
      obtain ⟨row, hrow, hid⟩ := List.mem_map.mp hmem
      exact absurd hid (KeyedTable.get?_eq_none_iff.mp h row hrow)
    · cases hinsert

/-- A finish changes the row of its id and no other. -/
theorem get?_recordEtlJobFinish {status : EtlJobStatus} {metrics : Option PyDict}
    {errorMessage : Option String} {row : EtlJobRow} (h : jobs.get? jobId = some row) (k : String) :
    (recordEtlJobFinish now jobId status metrics errorMessage jobs).get? k =
      if k = jobId then some (row.finished now status metrics errorMessage) else jobs.get? k := by
  rw [recordEtlJobFinish, h]
  dsimp only
  by_cases hk : k = jobId
  · subst hk
    have hid : row.jobId = k := KeyedTable.key_of_get? h
    rw [if_pos rfl, KeyedTable.get?_updateWhere, h, Option.map_some, if_pos (decide_eq_true hid)]
  · rw [if_neg hk]
    exact KeyedTable.get?_updateWhere_of_ne jobs _ _ _ (fun r hr => of_decide_eq_true hr) hk

end RobotDataHarness.Warehouse

/-!
## The shard table

The table `etl_shards` of `robot_dh/warehouse/models.py` with the upsert of
`robot_dh/warehouse/service.py` that writes it, and the three ends a write of the soft service has.
-/

namespace RobotDataHarness.Warehouse

open RobotDataHarness.Library
open RobotDataHarness.Models

/-! ## Writes of the soft service -/

/-- What `_handle_write_error` makes of a write. -/
inductive WriteEnd where
  | taken
  /-- Tables are missing or the database failed: logged, and the service goes on. -/
  | dropped
  /-- A schema that has drifted raises `V15SchemaMissingError`. -/
  | refused (message : String)
  deriving DecidableEq, Repr

/-- The exception of a write. -/
def WriteEnd.raises : WriteEnd → Option String
  | .taken | .dropped => none
  | .refused message => some message

/-- What a write leaves. -/
def WriteEnd.apply {α : Type*} (f : α → α) (a : α) : WriteEnd → α
  | .taken => f a
  | .dropped | .refused _ => a

/-! ## Rows -/

/-- The statuses a shard or a run ends with. -/
inductive RunStatus where
  | ok
  | warn
  | skipped
  | fail
  deriving DecidableEq, Repr

/-- The column `status`. -/
inductive EtlShardStatus where
  | pending
  | running
  | ended (status : RunStatus)
  deriving DecidableEq, Repr

/-- `EtlShardRow`, less the serial id and `created_at`. -/
structure EtlShardRow where
  planId : String
  shardId : String
  shardIndex : ℤ
  datasetCount : Option ℕ := none
  inputBytes : Option ℤ := none
  status : EtlShardStatus := .pending
  startedAt : Option ℚ := none
  finishedAt : Option ℚ := none
  durationSec : Option ℚ := none
  succeeded : Option ℕ := none
  failed : Option ℕ := none
  skipped : Option ℕ := none
  summaryUri : Option String := none
  errorMessage : Option String := none
  metricsJson : Option PyDict := none
  deriving DecidableEq

/-- `etl_shards_plan_shard_key`. -/
def EtlShardRow.key (row : EtlShardRow) : String × String := (row.planId, row.shardId)

/-- The table. -/
abbrev EtlShards := KeyedTable EtlShardRow (String × String) EtlShardRow.key

/-- What a report makes of the row it finds: the status is taken over, another column only where the
report has a value for it, and the metrics are merged. -/
def EtlShardRow.reported (report row : EtlShardRow) : EtlShardRow :=
  { row with
    status := report.status
    datasetCount := report.datasetCount.or row.datasetCount
    inputBytes := report.inputBytes.or row.inputBytes
    startedAt := report.startedAt.or row.startedAt
    finishedAt := report.finishedAt.or row.finishedAt
    durationSec := report.durationSec.or row.durationSec
    succeeded := report.succeeded.or row.succeeded
    failed := report.failed.or row.failed
    skipped := report.skipped.or row.skipped
    summaryUri := report.summaryUri.or row.summaryUri
    errorMessage := report.errorMessage.or row.errorMessage
    metricsJson := match report.metricsJson with
      | none => row.metricsJson
      | some items => some (Dict.update (row.metricsJson.getD []) items) }

@[simp] theorem key_reported (report row : EtlShardRow) : (report.reported row).key = row.key := rfl

@[simp] theorem status_reported (report row : EtlShardRow) :
    (report.reported row).status = report.status := rfl

/-- `record_etl_shard`: the arguments are the columns of a row. -/
def recordEtlShard (report : EtlShardRow) (shards : EtlShards) : EtlShards :=
  match shards.get? report.key with
  | none => (shards.insert { report with metricsJson := dictOrNone report.metricsJson }).getD shards
  | some _ => shards.updateWhere (fun row => row.key = report.key) (EtlShardRow.reported report)
      (key_reported report)

/-- After a report the row of its key has its status. -/
theorem exists_get?_recordEtlShard (report : EtlShardRow) (shards : EtlShards) :
    ∃ row, (recordEtlShard report shards).get? report.key = some row ∧
      row.status = report.status := by
  rw [recordEtlShard]
  cases hfound : shards.get? report.key with
  | none =>
    cases hinsert : shards.insert { report with metricsJson := dictOrNone report.metricsJson } with
    | some shards' =>
      have hget := KeyedTable.get?_insert hinsert report.key
      exact ⟨_, hget.trans (if_pos rfl), rfl⟩
    | none =>
      unfold KeyedTable.insert at hinsert
      split at hinsert
      next hmem =>
        obtain ⟨row, hrow, hkey⟩ := List.mem_map.mp hmem
        exact absurd hkey (KeyedTable.get?_eq_none_iff.mp hfound row hrow)
      · cases hinsert
  | some row =>
    have hkey : row.key = report.key := KeyedTable.key_of_get? hfound
    dsimp only
    rw [KeyedTable.get?_updateWhere, hfound, Option.map_some, if_pos (decide_eq_true hkey)]
    exact ⟨_, rfl, status_reported report row⟩

end RobotDataHarness.Warehouse
