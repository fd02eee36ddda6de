import RobotDataHarness.AiTasks.State
import RobotDataHarness.Inference.Metrics
import RobotDataHarness.Lake.Uri

/-!
# What an inference job writes

The records of `predictions.parquet` and `failed_samples.parquet` and the report, from
`robot_dh/inference/outputs.py`, `failures.py` and `report.py`.
-/

namespace RobotDataHarness.Inference

open RobotDataHarness.AiTasks
open RobotDataHarness.Lake
open RobotDataHarness.Models

/-! ## Predictions -/

/-- `InferenceOutputRecord`. -/
structure InferenceOutputRecord where
  jobId : String
  modelId : String
  sampleId : String
  predictionType : TaskType
  prediction : PyDict := []
  datasetId : Option Cell := none
  version : Option Cell := none
  episodeId : Option String := none
  frameId : Option String := none
  inputUri : Option String := none
  outputUri : Option LakeUri := none
  confidence : Option ℚ := none
  latencyMs : Option ℚ := none
  tokenCount : Option ℤ := none
  status : PredictionStatus := .ok
  errorMessage : Option String := none
  deriving DecidableEq

/-- `record_from_prediction`. -/
def recordFromPrediction (jobId modelId : String) (sample : InferenceSample)
    (prediction : InferencePrediction) (outputUri : LakeUri) : InferenceOutputRecord :=
  { jobId := jobId
    modelId := modelId
    sampleId := sample.sampleId
    predictionType := prediction.predictionType
    prediction := prediction.predictionJson
    datasetId := sample.datasetId
    version := sample.version
    episodeId := sample.episodeId
    frameId := sample.frameId
    inputUri := sample.inputUri
    outputUri := some outputUri
    confidence := prediction.confidence
    latencyMs := prediction.latencyMs
    tokenCount := prediction.tokenCount
    status := prediction.status
    errorMessage := prediction.errorMessage }

/-! ## Failed samples -/

/-- The character classes of `str.strip` and `str.isalnum`. -/
structure CharClasses where
  isspace : Char → Bool
  isalnum : Char → Bool

/-- `str.strip`. -/
def pyStrip (chars : CharClasses) (s : List Char) : List Char :=
  ((s.dropWhile chars.isspace).reverse.dropWhile chars.isspace).reverse

/-- `_KNOWN_ERROR_PREFIXES`. -/
def knownErrorPrefixes : List String :=
  ["OPENAI_ENDPOINT_UNAVAILABLE", "OPENAI_TIMEOUT", "OPENAI_BAD_RESPONSE"]

/-- `classify_error`: the text before the first colon, if it reads like a name. -/
def classifyError (chars : CharClasses) (errorMessage : Option String) : String :=
  match errorMessage with
  | none => "UNKNOWN"
  | some message =>
    if message = "" then "UNKNOWN"
    else
      let head := pyStrip chars (message.toList.takeWhile (· ≠ ':'))
      let name := head.filter (· ≠ '_')
      if String.ofList head ∈ knownErrorPrefixes then String.ofList head
      else if name ≠ [] ∧ name.all chars.isalnum then String.ofList head
      else "PREDICTION_ERROR"

/-- `is_retryable`. -/
def isRetryable (errorType : String) : Bool :=
  errorType ∈ ["OPENAI_TIMEOUT", "OPENAI_ENDPOINT_UNAVAILABLE", "UNKNOWN"]

/-- `FailedSampleRecord`. -/
structure FailedSampleRecord where
  jobId : String
  sampleId : String
  modelId : Option String := none
  datasetId : Option Cell := none
  version : Option Cell := none
  episodeId : Option String := none
  frameId : Option String := none
  inputUri : Option String := none
  errorType : Option String := none
  errorMessage : Option String := none
  attempt : ℤ := 1
  retryable : Bool := true
  failureId : String
  createdAt : String
  deriving DecidableEq

/-- `failure_from`; the identifier and the time of the record are given. -/
def failureFrom (chars : CharClasses) (failureId createdAt jobId modelId : String)
    (sample : InferenceSample) (prediction : InferencePrediction) : FailedSampleRecord :=
  let errorType := classifyError chars prediction.errorMessage
  { jobId := jobId
    sampleId := sample.sampleId
    modelId := some modelId
    datasetId := sample.datasetId
    version := sample.version
    episodeId := sample.episodeId
    frameId := sample.frameId
    inputUri := sample.inputUri
    errorType := some errorType
    errorMessage := prediction.errorMessage
    attempt := 1
    retryable := isRetryable errorType
    failureId := failureId
    createdAt := createdAt }

/-- `FailedSampleRecord.to_parquet_row`. -/
def FailedSampleRecord.toParquetRow (r : FailedSampleRecord) : Row :=
  [("failure_id", .str r.failureId),
    ("job_id", .str r.jobId),
    ("model_id", .ofOption r.modelId),
    ("sample_id", .str r.sampleId),
    ("dataset_id", r.datasetId.getD .null),
    ("version", r.version.getD .null),
    ("episode_id", .ofOption r.episodeId),
    ("frame_id", .ofOption r.frameId),
    ("input_uri", .ofOption r.inputUri),
    ("error_type", .ofOption r.errorType),
    ("error_message", .ofOption r.errorMessage),
    ("attempt", .int r.attempt),
    ("created_at", .str r.createdAt)]

/-! ## Parquet schemas -/

/-- The column types the schemas below use. -/
inductive ColumnType where
  | string
  | int64
  deriving DecidableEq, Repr

/-- A value `pa.array(..., type)` accepts. -/
def ColumnType.accepts : ColumnType → Cell → Bool
  | _, .scalar .none => true
  | .string, .scalar (.str _) => true
  | .int64, .scalar (.int n) => -2 ^ 63 ≤ n ∧ n < 2 ^ 63
  | _, _ => false

/-- `FAILED_SAMPLES_SCHEMA`. -/
def failedSamplesSchema : List (String × ColumnType) :=
  [("failure_id", .string), ("job_id", .string), ("model_id", .string), ("sample_id", .string),
    ("dataset_id", .string), ("version", .string), ("episode_id", .string), ("frame_id", .string),
    ("input_uri", .string), ("error_type", .string), ("error_message", .string),
      ("attempt", .int64),
    ("created_at", .string)]

/-- `_rows_to_table`: the columns of the schema, in its order; a value its type does not
accept is refused. -/
def rowsToTable (rows : List Row) (schema : List (String × ColumnType)) : Except PyError Table :=
  match schema.find? fun column =>
      !rows.all fun row => column.2.accepts ((PyDict.get? row column.1).getD .null) with
  | some column => .error (.arrowTypeError column.1)
  | none => .ok (rows.map fun row => schema.map fun column =>
      (column.1, (PyDict.get? row column.1).getD .null))

/-- The table of `failed_samples.parquet`. -/
def failedSamplesTable (records : List FailedSampleRecord) : Except PyError Table :=
  rowsToTable (records.map FailedSampleRecord.toParquetRow) failedSamplesSchema

/-- The two columns of a prediction row whose type the record does not fix; the others hold
what `PREDICTIONS_SCHEMA` asks for. -/
def InferenceOutputRecord.fitsSchema (r : InferenceOutputRecord) : Bool :=
  ColumnType.string.accepts (r.datasetId.getD .null) ∧
    ColumnType.string.accepts (r.version.getD .null)

/-! ## The report -/

/-- How many failures there are of each error type, in the order of their first occurrence. -/
def errorSummary (failed : List FailedSampleRecord) : List (String × ℕ) :=
  failed.foldl
    (fun out fr =>
      let key := match fr.errorType with
        | some t => if t = "" then "UNKNOWN" else t
        | none => "UNKNOWN"
      if (List.lookup key out).isSome then
        out.map fun kv => if kv.1 = key then (kv.1, kv.2 + 1) else kv
      else out ++ [(key, 1)])
    []

/-- `InferenceReport`. -/
structure InferenceReport where
  jobId : String
  modelId : String
  inputUri : LakeUri
  outputUri : LakeUri
  taskType : TaskType
  backend : BackendName
  metrics : InferenceMetrics
  status : JobStatus
  errorSummary : List (String × ℕ)
  deriving DecidableEq

section Rows

variable (r : FailedSampleRecord)

/-- A row as it is read back: `_rows_to_table` keeps every column of a record's row. -/
theorem row_of_schema :
    (failedSamplesSchema.map fun column =>
      (column.1, (PyDict.get? r.toParquetRow column.1).getD .null)) = r.toParquetRow := by
  rfl

/-- The table a job writes holds the rows of its records, if it is written at all. -/
theorem failedSamplesTable_eq_ok {records : List FailedSampleRecord} {table : Table}
    (h : failedSamplesTable records = .ok table) :
      table = records.map FailedSampleRecord.toParquetRow := by
  unfold failedSamplesTable rowsToTable at h
  split at h
  · cases h
  · cases h
    rw [List.map_map]
    exact List.map_congr_left fun r _ => row_of_schema r

end Rows

end RobotDataHarness.Inference
