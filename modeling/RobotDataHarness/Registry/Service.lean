import RobotDataHarness.Inference.Job
import RobotDataHarness.Library.Machine
import RobotDataHarness.Library.Upsert

/-!
# The validation registry

The tables of `robot_dh/registry/schema.py` that a validation writes, and the transactions of
`robot_dh/registry/service.py`: `upsert_dataset`, which may set the last run of a dataset, and
`record_validation_run`, which replaces the rows of its run id and points the dataset at it.  A
validation (`robot_dh/pipeline.py`) is the one followed by the other.

Serial ids and the `created_at` of result rows are left out; a path is the resolved one.
-/

namespace RobotDataHarness.Registry

open Inference
open Library
open Models

/-! ## Tables -/

/-- A dataset in one version. -/
structure DatasetKey where
  datasetId : String
  version : String
  deriving DecidableEq, Repr

/-- `DatasetRow`. -/
structure DatasetRow where
  datasetId : String
  version : String
  taskType : Option String := none
  robotType : Option String := none
  poseFormat : Option String := none
  storageUri : Option String := none
  localPath : Option String := none
  numSamples : Option ℤ := none
  durationSec : Option ℚ := none
  fps : Option ℚ := none
  createdAt : Timestamp
  updatedAt : Timestamp
  lastStatus : Option String := none
  lastRunId : Option String := none
  deriving DecidableEq

/-- `uq_dataset_version`. -/
def DatasetRow.key (r : DatasetRow) : DatasetKey := ⟨r.datasetId, r.version⟩

/-- `RunRow`. -/
structure RunRow where
  runId : String
  datasetId : String
  datasetVersion : String
  status : String
  startedAt : String
  finishedAt : String
  durationSec : ℚ
  configPath : Option String
  outputDir : String
  reportJsonPath : Option String
  reportHtmlPath : Option String
  metricsJson : PyDict
  errorsJson : List String
  warningsJson : List String
  deriving DecidableEq

/-- The dataset a run is of. -/
def RunRow.dataset (r : RunRow) : DatasetKey := ⟨r.datasetId, r.datasetVersion⟩

/-- `ValidatorResultRow`. -/
structure ValidatorResultRow where
  runId : String
  validatorName : String
  status : String
  durationMs : Option ℚ
  metricsJson : PyDict
  messagesJson : List String
  deriving DecidableEq

/-- `GateResultRow`. -/
structure GateResultRow where
  runId : String
  gateStatus : String
  failedRulesJson : List String
  warningRulesJson : List String
  policyPath : Option String
  deriving DecidableEq

/-- `ArtifactRow`. -/
structure ArtifactRow where
  runId : String
  artifactType : String
  artifactUri : String
  localPath : Option String
  sizeBytes : Option ℕ
  deriving DecidableEq

/-- The registry. -/
structure Tables where
  datasets : KeyedTable DatasetRow DatasetKey DatasetRow.key := .empty
  runs : KeyedTable RunRow String RunRow.runId := .empty
  validators : List ValidatorResultRow := []
  gates : List GateResultRow := []
  artifacts : List ArtifactRow := []

/-! ## `upsert_dataset` -/

/-- The arguments of `upsert_dataset`. -/
structure DatasetArgs where
  datasetId : String
  version : String
  taskType : Option String := none
  robotType : Option String := none
  poseFormat : Option String := none
  storageUri : Option String := none
  localPath : Option String := none
  numSamples : Option ℤ := none
  durationSec : Option ℚ := none
  fps : Option ℚ := none
  lastStatus : Option String := none
  lastRunId : Option String := none
  deriving DecidableEq

/-- The dataset the arguments name. -/
def DatasetArgs.key (args : DatasetArgs) : DatasetKey := ⟨args.datasetId, args.version⟩

/-- The row `upsert_dataset` writes where `old` was: only the last run is kept when not given. -/
def DatasetArgs.row (args : DatasetArgs) (now : Timestamp) (old : Option DatasetRow) :
    DatasetRow where
  datasetId := args.datasetId
  version := args.version
  taskType := args.taskType
  robotType := args.robotType
  poseFormat := args.poseFormat
  storageUri := args.storageUri
  localPath := args.localPath
  numSamples := args.numSamples
  durationSec := args.durationSec
  fps := args.fps
  createdAt := (old.map DatasetRow.createdAt).getD now
  updatedAt := now
  lastStatus := args.lastStatus.or (old.bind DatasetRow.lastStatus)
  lastRunId := args.lastRunId.or (old.bind DatasetRow.lastRunId)

/-- `upsert_dataset`. -/
def upsertDataset (s : Tables) (now : Timestamp) (args : DatasetArgs) : Tables :=
  { s with datasets := s.datasets.upsert (args.row now (s.datasets.get? args.key)) }

/-! ## `record_validation_run` -/

/-- `ValidationResult`, with `details["duration_ms"]`. -/
structure ValidationResult where
  name : String
  status : String
  durationMs : Option ℚ := none
  metrics : PyDict := []
  messages : List String := []
  deriving DecidableEq

/-- The dictionary `report.gate`; `status` is absent when no policy was checked. -/
structure Gate where
  status : Option String := none
  failedRules : List String := []
  warningRules : List String := []
  policyPath : Option String := none
  deriving DecidableEq

/-- The dictionary `report.artifacts`. -/
structure Artifacts where
  reportJson : Option String := none
  reportJsonUri : Option String := none
  reportHtml : Option String := none
  reportHtmlUri : Option String := none
  gateReport : Option String := none
  gateReportUri : Option String := none
  plots : List (String × String) := []
  deriving DecidableEq

/-- `QualityReport`, the fields the registry reads. -/
structure QualityReport where
  runId : String
  datasetId : String
  status : String
  startedAt : String := ""
  finishedAt : String := ""
  durationSec : ℚ := 0
  metrics : PyDict := []
  validators : List ValidationResult := []
  artifacts : Artifacts := {}
  warnings : List String := []
  errors : List String := []
  gate : Gate := {}
  deriving DecidableEq

/-- What the service sees of the file system: `_uri_to_local_path` and `_file_size`. -/
structure Files where
  uriToLocalPath : String → Option String
  fileSize : String → Option ℕ

/-- `_iter_artifacts`, as the rows added for it. -/
def artifactRows (files : Files) (report : QualityReport) : List ArtifactRow :=
  let a := report.artifacts
  let named :=
    [("report_json", a.reportJsonUri, a.reportJson), ("report_html", a.reportHtmlUri, a.reportHtml),
    ("gate_report", a.gateReportUri, a.gateReport)].filterMap fun (artifactType, uri, localPath) =>
      (uri.filter (· ≠ "")).map fun uri =>
        let localPath := (localPath.filter (· ≠ "")).or (files.uriToLocalPath uri)
        ⟨report.runId, artifactType, uri, localPath, localPath.bind files.fileSize⟩
  let plots := ((a.plots.mergeSort fun p q => p.1 ≤ q.1).filter fun p => p.2 ≠ "").map
    fun (name, uri) =>
    let localPath := files.uriToLocalPath uri
    ⟨report.runId, "plot:" ++ name, uri, localPath, localPath.bind files.fileSize⟩
  named ++ plots

/-- The status of a run: the gate can only make it worse. -/
def runStatus (report : QualityReport) : String :=
  if report.gate.status = some "FAIL" then "FAIL"
  else if report.gate.status = some "WARN" ∧ report.status ≠ "FAIL" then "WARN"
  else report.status

/-- The arguments of `record_validation_run`. -/
structure RecordArgs where
  report : QualityReport
  datasetVersion : String
  configPath : Option String := none
  outputDir : String := ""
  deriving DecidableEq

namespace RecordArgs

variable (args : RecordArgs)

/-- The dataset the run is recorded for. -/
def dataset : DatasetKey := ⟨args.report.datasetId, args.datasetVersion⟩

/-- The row `_create_run_row` adds. -/
def runRow : RunRow where
  runId := args.report.runId
  datasetId := args.report.datasetId
  datasetVersion := args.datasetVersion
  status := runStatus args.report
  startedAt := args.report.startedAt
  finishedAt := args.report.finishedAt
  durationSec := args.report.durationSec
  configPath := args.configPath
  outputDir := args.outputDir
  reportJsonPath := args.report.artifacts.reportJson
  reportHtmlPath := args.report.artifacts.reportHtml
  metricsJson := args.report.metrics
  errorsJson := args.report.errors
  warningsJson := args.report.warnings

/-- The validator rows of the report. -/
def validatorRows : List ValidatorResultRow :=
  args.report.validators.map fun v =>
    ⟨args.report.runId, v.name, v.status, v.durationMs, v.metrics, v.messages⟩

/-- The gate row of the report. -/
def gateRow : GateResultRow where
  runId := args.report.runId
  gateStatus := args.report.gate.status.getD "SKIP"
  failedRulesJson := args.report.gate.failedRules
  warningRulesJson := args.report.gate.warningRules
  policyPath := args.report.gate.policyPath

end RecordArgs

/-- `_delete_run_related`: every row of the run id, whatever dataset it is of. -/
def deleteRunRelated (s : Tables) (runId : String) : Tables where
  datasets := s.datasets
  runs := s.runs.whereKey (· ≠ runId)
  validators := s.validators.filter (·.runId ≠ runId)
  gates := s.gates.filter (·.runId ≠ runId)
  artifacts := s.artifacts.filter (·.runId ≠ runId)

/-- `_create_run_row`. -/
def createRunRow (s : Tables) (row : RunRow) : Tables :=
  let s := deleteRunRelated s row.runId
  { s with runs := s.runs.upsert row }

/-- A dataset row pointed at the run. -/
def DatasetRow.pointedAt (row : DatasetRow) (now : Timestamp) (args : RecordArgs) : DatasetRow :=
  { row with
    lastStatus := some (runStatus args.report)
    lastRunId := some args.report.runId
    updatedAt := now }

/-- The dataset row, if there is one, pointed at the run. -/
def pointAt (datasets : KeyedTable DatasetRow DatasetKey DatasetRow.key) (now : Timestamp)
    (args : RecordArgs) : KeyedTable DatasetRow DatasetKey DatasetRow.key :=
  match datasets.get? args.dataset with
  | none => datasets
  | some row => datasets.upsert (row.pointedAt now args)

/-- `record_validation_run`, one transaction. -/
def recordValidationRun (files : Files) (s : Tables) (now : Timestamp) (args : RecordArgs) :
    Tables :=
  let s := createRunRow s args.runRow
  { s with
    datasets := pointAt s.datasets now args
    validators := s.validators ++ args.validatorRows
    gates := s.gates ++ [args.gateRow]
    artifacts := s.artifacts ++ artifactRows files args.report }

/-! ## Transactions -/

/-- A committed transaction and the time it was made. -/
inductive Transaction where
  | upsertDataset (now : Timestamp) (args : DatasetArgs)
  | recordValidationRun (now : Timestamp) (args : RecordArgs)

/-- The registry, one transaction after the other; one that is rolled back does not occur. -/
def registry (files : Files) : Machine Tables Transaction where
  step s
    | .upsertDataset now args => some (upsertDataset s now args)
    | .recordValidationRun now args => some (recordValidationRun files s now args)

/-- `run_validation`, the registry part: the dataset is pointed at the run before the run exists. -/
def runValidation (now now' : Timestamp) (dataset : DatasetArgs) (args : RecordArgs) :
    List Transaction :=
  [.upsertDataset now { dataset with
      datasetId := args.report.datasetId, version := args.datasetVersion
      lastStatus := some args.report.status, lastRunId := some args.report.runId },
    .recordValidationRun now' args]

end RobotDataHarness.Registry
