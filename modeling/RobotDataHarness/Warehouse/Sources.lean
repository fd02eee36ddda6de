import RobotDataHarness.Inference.Job

/-!
# Source tables of the warehouse

The rows of `robot_dh/warehouse/models.py` from which `WarehouseBuilder` materialises its
layers, with the columns a builder reads, and the calendar of
`robot_dh/warehouse_metrics/dates.py`.

A table is the list of its rows in the order they were inserted, which is the order a
`SELECT` without `ORDER BY` returns.  A JSON column is a record of the entries the builders
read from it.
-/

namespace RobotDataHarness.Warehouse

open RobotDataHarness.Inference
open RobotDataHarness.Models

/-! ## Days and windows -/

/-- A calendar day, counted from 1970-01-01. -/
abbrev Date := ℤ

/-- `ts.date()`: the UTC day of a point in time. -/
def dateOf (ts : Timestamp) : Date := ts / 86400000000

/-- `DateRange`: the days from `start` to `stop`, both included. -/
structure DateRange where
  start : Date
  stop : Date
  le : start ≤ stop := by decide

namespace DateRange

/-- The day lies in the window. -/
def Covers (w : DateRange) (d : Date) : Prop := w.start ≤ d ∧ d ≤ w.stop

instance (w : DateRange) (d : Date) : Decidable (w.Covers d) :=
  inferInstanceAs (Decidable (w.start ≤ d ∧ d ≤ w.stop))

/-- A nullable day compared with both ends of the window: a null day never passes. -/
def selects (w : DateRange) (d : Option Date) : Bool := d.any (fun d => w.Covers d)

@[simp] theorem selects_none (w : DateRange) : w.selects none = false := rfl

@[simp] theorem selects_some (w : DateRange) (d : Date) :
    w.selects (some d) = decide (w.Covers d) := rfl

theorem selects_iff {w : DateRange} {d : Option Date} : w.selects d ↔ ∃ d', d = some d' ∧
    w.Covers d' := by
  cases d <;> simp

/-- The window of one day. -/
def single (d : Date) : DateRange := ⟨d, d, le_refl d⟩

@[simp] theorem covers_single {d d' : Date} : (single d).Covers d' ↔ d' = d :=
  ⟨fun h => le_antisymm h.2 h.1, fun h => h ▸ ⟨le_refl d', le_refl d'⟩⟩

end DateRange

/-! ## Python and SQL values -/

/-- `a or b` on a nullable text. -/
def pyOr (a b : Option String) : Option String := if a = none ∨ a = some "" then b else a

/-- `s.upper()`; the words it is compared with are ASCII. -/
def upper (s : String) : String := String.ofList (s.toList.map Char.toUpper)

/-- `s.lower()`; likewise. -/
def lower (s : String) : String := String.ofList (s.toList.map Char.toLower)

/-- `(s or "").upper()`. -/
def upperOrEmpty (s : Option String) : String := upper (s.getD "")

/-- A value inside a JSON document.  A number with a fraction, a list or an object is known
by the text `str()` gives for it, the text `->>` gives for it, and its truth value. -/
inductive JsonValue where
  | null
  | bool (b : Bool)
  | int (n : ℤ)
  | str (s : String)
  | other (pyText jsonText : String) (truthy : Bool)
  deriving DecidableEq, Repr

namespace JsonValue

/-- `bool(v)`. -/
def truthy : JsonValue → Bool
  | null => false
  | bool b => b
  | int n => n ≠ 0
  | str s => s ≠ ""
  | other _ _ truthy => truthy

/-- `str(v)`. -/
def pyStr : JsonValue → String
  | null => "None"
  | bool true => "True"
  | bool false => "False"
  | int n => toString n
  | str s => s
  | other pyText _ _ => pyText

/-- `str(v) if v is not None else None`. -/
def pyStr? : JsonValue → Option String
  | null => none
  | v => some v.pyStr

/-- `doc ->> key`: the value as a text, SQL NULL for a JSON null. -/
def jsonText : JsonValue → Option String
  | null => none
  | bool true => some "true"
  | bool false => some "false"
  | int n => some (toString n)
  | str s => some s
  | other _ jsonText _ => some jsonText

end JsonValue

/-! ## Rows -/

/-- The entries of `etl_perf_runs.metrics_json` that the warehouse reads. -/
structure PerfMetrics where
  archiveLogUri : Option String := none
  startedAt : Option Timestamp := none
  finishedAt : Option Timestamp := none
  deriving DecidableEq

/-- `EtlPerfRunRow`. -/
structure EtlPerfRunRow where
  jobId : String
  runId : String
  datasetId : String
  version : String
  phase : String
  inputBytes : Option ℤ := none
  outputBytes : Option ℤ := none
  inputRows : Option ℤ := none
  outputRows : Option ℤ := none
  durationSec : Option ℚ := none
  peakMemoryMb : Option ℚ := none
  status : String := "OK"
  errorMessage : Option String := none
  startedAt : Option Timestamp := none
  finishedAt : Option Timestamp := none
  metrics : PerfMetrics := {}
  createdAt : Timestamp
  deriving DecidableEq

/-- A dictionary of a rule list: its entries, an absent one as null. -/
structure RuleItem where
  ruleId : JsonValue := .null
  severity : JsonValue := .null
  status : JsonValue := .null
  metric : JsonValue := .null
  op : JsonValue := .null
  threshold : JsonValue := .null
  actual : JsonValue := .null
  deriving DecidableEq

/-- A rule list column: `null`, an array whose elements may fail to be dictionaries, or the
historical `{"items": [...]}` wrapper. -/
inductive RulesJson where
  | null
  | array (elements : List (Option RuleItem))
  | wrapped (elements : List (Option RuleItem))
  deriving DecidableEq

/-- `QcContractRunRow`; `ruleResults` is `metrics_json["_rule_results"]`. -/
structure QcContractRunRow where
  runId : String
  contractId : String
  datasetId : Option String := none
  version : Option String := none
  datasetFamily : Option String := none
  status : String
  startedAt : Option Timestamp := none
  ruleResults : RulesJson := .null
  failedRules : RulesJson := .null
  warningRules : RulesJson := .null
  createdAt : Timestamp
  deriving DecidableEq

/-- `WorkflowRunRow`. -/
structure WorkflowRunRow where
  workflowName : String
  workflowNamespace : Option String := none
  workflowType : Option String := none
  deriving DecidableEq

/-- The entries of `workflow_steps.metrics_json` that the warehouse reads. -/
structure StepMetrics where
  exitCode : Option ℤ := none
  containerReason : Option String := none
  archiveLogUri : Option String := none
  archiveLogUrl : Option String := none
  deriving DecidableEq

/-- `WorkflowStepRow`. -/
structure WorkflowStepRow where
  workflowName : String
  workflowNamespace : Option String := none
  stepName : String
  templateName : Option String := none
  podName : Option String := none
  phase : Option String := none
  startedAt : Option Timestamp := none
  finishedAt : Option Timestamp := none
  durationSec : Option ℚ := none
  datasetId : Option String := none
  version : Option String := none
  datasetFamily : Option String := none
  metrics : StepMetrics := {}
  deriving DecidableEq

/-- `AssetProfileRow`. -/
structure AssetProfileRow where
  profileId : String
  datasetId : Option String := none
  version : Option String := none
  datasetFamily : Option String := none
  assetUri : String
  assetFormat : Option String := none
  layer : Option String := none
  bytes : Option ℤ := none
  rows : Option ℤ := none
  filesCount : Option ℤ := none
  episodesCount : Option ℤ := none
  videosCount : Option ℤ := none
  schemaHash : Option String := none
  nullRate : Option ℚ := none
  status : Option String := none
  createdAt : Timestamp
  deriving DecidableEq

/-- `MlReadyDatasetRow`. -/
structure MlReadyDatasetRow where
  datasetId : String
  version : String
  outputUri : String
  numTrain : Option ℤ := none
  numVal : Option ℤ := none
  numTest : Option ℤ := none
  createdAt : Timestamp
  deriving DecidableEq

/-- `QualitySnapshotRow`; `datasetFamily` is `metrics_json["dataset_family"]`. -/
structure QualitySnapshotRow where
  datasetId : String
  version : String
  qualityStatus : Option String := none
  qualityScore : Option ℚ := none
  datasetFamily : Option String := none
  createdAt : Timestamp
  deriving DecidableEq

/-- `DatasetVersionRow`. -/
structure DatasetVersionRow where
  datasetId : String
  version : String
  rawUri : Option String := none
  odsUri : Option String := none
  dwdUri : Option String := none
  status : Option String := none
  createdAt : Timestamp
  deriving DecidableEq

/-- `InferenceOutputRow`: the job of an output and its latency. -/
structure InferenceOutputRow where
  jobId : String
  latencyMs : Option ℚ := none
  deriving DecidableEq

/-- `InferenceFailureRow`: the job of a failure and its kind. -/
structure InferenceFailureRow where
  jobId : String
  errorType : Option String := none
  deriving DecidableEq

/-- The content of the source tables. -/
structure Sources where
  etlPerfRuns : List EtlPerfRunRow := []
  qcContractRuns : List QcContractRunRow := []
  workflowRuns : List WorkflowRunRow := []
  workflowSteps : List WorkflowStepRow := []
  assetProfiles : List AssetProfileRow := []
  mlReadyDatasets : List MlReadyDatasetRow := []
  qualitySnapshots : List QualitySnapshotRow := []
  datasetVersions : List DatasetVersionRow := []
  modelRegistry : List ModelSpec := []
  inferenceJobs : List InferenceJobRow := []
  inferenceOutputs : List InferenceOutputRow := []
  inferenceFailures : List InferenceFailureRow := []

end RobotDataHarness.Warehouse
