import RobotDataHarness.Etl.Runner
import RobotDataHarness.Warehouse.Sources

/-!
# Perf records

The records the pipeline writes about its phases, `perf_records_from_etl_run` of
`robot_dh/perf/writer.py` and `_dataset_phase_perf` of the shard runner, and the row of
`etl_perf_runs` that `record_etl_perf_run` makes of one.
-/

namespace RobotDataHarness.Perf

open RobotDataHarness.Etl
open RobotDataHarness.Inference
open RobotDataHarness.Warehouse

/-! ## Records -/

/-- `PerfRecord`, less the columns no builder reads.  The two times are texts whose default is
empty, and an empty text is no time. -/
structure PerfRecord where
  jobId : String
  runId : String
  datasetId : String
  version : String
  phase : String
  inputBytes : ℤ := 0
  outputBytes : ℤ := 0
  inputRows : ℤ := 0
  outputRows : ℤ := 0
  durationSec : ℚ := 0
  peakMemoryMb : ℚ := 0
  status : String := "RUNNING"
  errorMessage : Option String := none
  startedAt : Option Timestamp := none
  finishedAt : Option Timestamp := none
  metrics : PerfMetrics := {}
  deriving DecidableEq

/-- `sum_file_sizes`. -/
def sumFileSizes (files : List FileInfo) : ℤ := (files.map fun info => (info.sizeBytes : ℤ)).sum

/-- `sum_file_rows`. -/
def sumFileRows (files : List FileInfo) : ℤ :=
  (files.map fun info => ((info.rowCount.getD 0 : ℕ) : ℤ)).sum

/-! ## Results of a run -/

/-- `str(norm.status)`. -/
def normalizeStatusText : NormalizeStatus → String
  | .ok => "OK"
  | .skipped => "SKIPPED"
  | .resumed => "RESUMED"

/-- `str(feat.job_status)`. -/
def featureStatusText : FeatureStatus → String
  | .ok => "OK"
  | .warn => "WARN"

/-- A `NormalizeResult` with the job it ran as. -/
structure NormalizeRun extends NormalizeResult where
  jobId : String
  durationJobSec : ℚ
  metrics : PerfMetrics := {}

/-- A `FeatureResult` with the job it ran as. -/
structure FeatureRun extends FeatureResult where
  jobId : String
  durationJobSec : ℚ

/-- `AdsResult`. -/
structure AdsResult where
  jobId : String
  durationJobSec : ℚ
  files : List FileInfo := []

/-- The entries of an `EtlRunResult` the records are made of. -/
structure EtlRun where
  jobId : String
  datasetId : String
  version : String
  normalize : Option NormalizeRun := none
  features : Option FeatureRun := none
  ads : Option AdsResult := none

section Phases

variable (runId datasetId version : String)

/-- The record of the normalize phase. -/
def normalizePerf (inputBytes : ℤ) (status : String) (metrics : PerfMetrics) (norm : NormalizeRun) :
    PerfRecord where
  jobId := norm.jobId
  runId := runId
  datasetId := datasetId
  version := version
  phase := "normalize"
  inputBytes := inputBytes
  outputBytes := sumFileSizes norm.files
  inputRows := norm.numSamples
  outputRows := sumFileRows norm.files
  durationSec := norm.durationJobSec
  status := status
  metrics := metrics

/-- The record of the build_features phase. -/
def featuresPerf (norm : Option NormalizeRun) (feat : FeatureRun) : PerfRecord where
  jobId := feat.jobId
  runId := runId
  datasetId := datasetId
  version := version
  phase := "build_features"
  inputBytes := (norm.map fun norm => sumFileSizes norm.files).getD 0
  outputBytes := sumFileSizes feat.files
  inputRows := (norm.map fun norm => (norm.numSamples : ℤ)).getD 0
  outputRows := sumFileRows feat.files
  durationSec := feat.durationJobSec
  status := featureStatusText feat.jobStatus

/-- The record of the build_ads phase. -/
def adsPerf (feat : Option FeatureRun) (ads : AdsResult) : PerfRecord where
  jobId := ads.jobId
  runId := runId
  datasetId := datasetId
  version := version
  phase := "build_ads"
  inputBytes := (feat.map fun feat => sumFileSizes feat.files).getD 0
  outputBytes := sumFileSizes ads.files
  inputRows := (feat.map fun feat => (feat.numPressEvents : ℤ)).getD 0
  outputRows := sumFileRows ads.files
  durationSec := ads.durationJobSec
  status := "OK"

end Phases

/-- `perf_records_from_etl_run`. -/
def perfRecordsFromEtlRun (etlResult : Option EtlRun) (runId : Option String)
    (inputBytesEstimate : ℤ) :
    List PerfRecord :=
  match etlResult with
  | none => []
  | some r =>
    let runId := (pyOr runId (some r.jobId)).getD r.jobId
    (r.normalize.map fun norm =>
      normalizePerf runId r.datasetId r.version inputBytesEstimate (normalizeStatusText norm.status)
        norm.metrics norm).toList ++
    (r.features.map (featuresPerf runId r.datasetId r.version r.normalize)).toList ++
    (r.ads.map (adsPerf runId r.datasetId r.version r.features)).toList

/-- The entries of a `PlanDataset` its records are made of. -/
structure PlanDataset where
  datasetId : String
  version : String
  inputBytes : ℤ := 0

/-- `_dataset_phase_perf`.  The normalize phase is recorded as OK whatever its status, and the
point in time the dataset was started at is not used. -/
def datasetPhasePerf (planId shardId : String) (dataset : PlanDataset) (result : Option EtlRun)
    (error : Option String) (_started : Timestamp) (durationSec : ℚ) : List PerfRecord :=
  let runId := planId ++ "::" ++ shardId
  match result with
  | none =>
    [{ jobId := shardId ++ "::" ++ dataset.datasetId
       runId := runId
       datasetId := dataset.datasetId
       version := dataset.version
       phase := "etl_run"
       inputBytes := dataset.inputBytes
       durationSec := durationSec
       status := "FAIL"
       errorMessage := error }]
  | some r =>
    (r.normalize.map (normalizePerf runId dataset.datasetId dataset.version dataset.inputBytes "OK"
      {})).toList ++
    (r.features.map (featuresPerf runId dataset.datasetId dataset.version r.normalize)).toList ++
    (r.ads.map (adsPerf runId dataset.datasetId dataset.version r.features)).toList

/-- One run of the pipeline, from the command line or as a dataset of a shard. -/
inductive PipelineRun where
  | cli (result : Option EtlRun) (runId : Option String) (inputBytesEstimate : ℤ)
  | shard (planId shardId : String) (dataset : PlanDataset) (result : Option EtlRun)
      (error : Option String) (started : Timestamp) (durationSec : ℚ)

/-- The records a run leaves. -/
def PipelineRun.records : PipelineRun → List PerfRecord
  | cli result runId inputBytesEstimate => perfRecordsFromEtlRun result runId inputBytesEstimate
  | shard planId shardId dataset result error started durationSec =>
    datasetPhasePerf planId shardId dataset result error started durationSec

/-! ## Rows -/

/-- Which of the two time columns the table has; where one is missing, the time goes into
`metrics_json`. -/
structure PerfColumns where
  startedAt : Bool := true
  finishedAt : Bool := true

/-- `record_etl_perf_run`: the row inserted at `now`. -/
def recordEtlPerfRun (columns : PerfColumns) (now : Timestamp) (r : PerfRecord) :
    EtlPerfRunRow where
  jobId := r.jobId
  runId := r.runId
  datasetId := r.datasetId
  version := r.version
  phase := r.phase
  inputBytes := some r.inputBytes
  outputBytes := some r.outputBytes
  inputRows := some r.inputRows
  outputRows := some r.outputRows
  durationSec := some r.durationSec
  peakMemoryMb := some r.peakMemoryMb
  status := if r.status = "" then "OK" else r.status
  errorMessage := r.errorMessage
  startedAt := if columns.startedAt then r.startedAt else none
  finishedAt := if columns.finishedAt then r.finishedAt else none
  metrics :=
    { r.metrics with
      startedAt :=
        if columns.startedAt then r.metrics.startedAt else r.startedAt.or r.metrics.startedAt
      finishedAt :=
        if columns.finishedAt then r.metrics.finishedAt else r.finishedAt.or r.metrics.finishedAt }
  createdAt := now

/-- The table after the records were written one by one, each at its own time. -/
def perfTable (columns : PerfColumns) (clock : ℕ → Timestamp) (records : List PerfRecord) :
    List EtlPerfRunRow :=
  records.mapIdx fun i r => recordEtlPerfRun columns (clock i) r

/-! ## What a run records -/

/-- The statuses a record of the pipeline can have. -/
def pipelineStatuses : List String := ["OK", "SKIPPED", "RESUMED", "WARN", "FAIL"]

/-- A record of the pipeline carries one of five statuses and no time. -/
theorem status_of_mem_records {run : PipelineRun} {r : PerfRecord} (h : r ∈ run.records) :
    r.status ∈ pipelineStatuses ∧ r.startedAt = none ∧ r.finishedAt = none := by
  have hnorm : ∀ status, normalizeStatusText status ∈ pipelineStatuses := by
    intro status
    cases status <;> decide
  have hfeat : ∀ status, featureStatusText status ∈ pipelineStatuses := by
    intro status
    cases status <;> decide
  cases run with
  | cli result runId inputBytes =>
    cases result with
    | none => simp [PipelineRun.records, perfRecordsFromEtlRun] at h
    | some r =>
      simp only [PipelineRun.records, perfRecordsFromEtlRun, List.mem_append, Option.mem_toList,
        Option.map_eq_some_iff] at h
      rcases h with (⟨norm, -, rfl⟩ | ⟨feat, -, rfl⟩) | ⟨ads, -, rfl⟩
      · exact ⟨hnorm _, rfl, rfl⟩
      · exact ⟨hfeat _, rfl, rfl⟩
      · exact ⟨by simp [adsPerf, pipelineStatuses], rfl, rfl⟩
  | shard planId shardId dataset result error started durationSec =>
    cases result with
    | none =>
      simp only [PipelineRun.records, datasetPhasePerf, List.mem_singleton] at h
      subst h
      exact ⟨by simp [pipelineStatuses], rfl, rfl⟩
    | some r =>
      simp only [PipelineRun.records, datasetPhasePerf, List.mem_append, Option.mem_toList,
        Option.map_eq_some_iff] at h
      rcases h with (⟨norm, -, rfl⟩ | ⟨feat, -, rfl⟩) | ⟨ads, -, rfl⟩
      · exact ⟨by simp [normalizePerf, pipelineStatuses], rfl, rfl⟩
      · exact ⟨hfeat _, rfl, rfl⟩
      · exact ⟨by simp [adsPerf, pipelineStatuses], rfl, rfl⟩

end RobotDataHarness.Perf
