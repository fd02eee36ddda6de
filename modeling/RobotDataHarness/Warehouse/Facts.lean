import RobotDataHarness.Library.Md5
import RobotDataHarness.Library.Upsert
import RobotDataHarness.Warehouse.Sources

/-!
# The fact layer

The four fact tables and the builders of the SQLite path that fill them:
`_sqlite_build_fact_etl_run`, `_sqlite_build_fact_qc_rule_result`,
`_sqlite_build_fact_workflow_step` and `_sqlite_build_fact_asset_profile`.

Each builder selects the source rows whose day lies in the window, maps them to fact rows
and upserts these by their hashed key.  The columns `created_at`, which no builder reads,
are left out.
-/

namespace RobotDataHarness.Warehouse

open RobotDataHarness.Inference
open RobotDataHarness.Library

/-- `_md5_pipe`: the digest of the parts joined by `|`, a missing part as the empty text. -/
def md5Pipe (parts : List (Option String)) : String :=
  md5 ("|".intercalate (parts.map (fun p => p.getD "")))

/-! ## Rows -/

/-- `FactEtlRunRow`. -/
structure FactEtlRunRow where
  runKey : String
  jobId : Option String := none
  runId : Option String := none
  datasetId : Option String := none
  version : Option String := none
  datasetFamily : Option String := none
  phase : Option String := none
  status : Option String := none
  startedAt : Option Timestamp := none
  finishedAt : Option Timestamp := none
  dt : Option Date := none
  durationSec : Option ℚ := none
  inputBytes : Option ℤ := none
  outputBytes : Option ℤ := none
  inputRows : Option ℤ := none
  outputRows : Option ℤ := none
  peakMemoryMb : Option ℚ := none
  errorMessage : Option String := none
  archiveLogUri : Option String := none
  deriving DecidableEq

/-- `FactQcRuleResultRow`. -/
structure FactQcRuleResultRow where
  ruleResultKey : String
  runId : Option String := none
  contractId : Option String := none
  datasetId : Option String := none
  version : Option String := none
  datasetFamily : Option String := none
  ruleId : Option String := none
  severity : Option String := none
  status : Option String := none
  metric : Option String := none
  op : Option String := none
  thresholdValue : Option String := none
  actualValue : Option String := none
  dt : Option Date := none
  deriving DecidableEq

/-- `FactWorkflowStepRow`. -/
structure FactWorkflowStepRow where
  stepKey : String
  workflowName : Option String := none
  workflowNamespace : Option String := none
  workflowType : Option String := none
  stepName : Option String := none
  templateName : Option String := none
  podName : Option String := none
  phase : Option String := none
  datasetId : Option String := none
  version : Option String := none
  datasetFamily : Option String := none
  startedAt : Option Timestamp := none
  finishedAt : Option Timestamp := none
  dt : Option Date := none
  durationSec : Option ℚ := none
  exitCode : Option ℤ := none
  containerReason : Option String := none
  archiveLogUri : Option String := none
  archiveLogUrl : Option String := none
  deriving DecidableEq

/-- `FactAssetProfileRow`. -/
structure FactAssetProfileRow where
  assetProfileKey : String
  profileId : Option String := none
  datasetId : Option String := none
  version : Option String := none
  datasetFamily : Option String := none
  assetUri : Option String := none
  assetFormat : Option String := none
  layer : Option String := none
  bytes : Option ℤ := none
  rows : Option ℤ := none
  filesCount : Option ℤ := none
  episodesCount : Option ℤ := none
  videosCount : Option ℤ := none
  schemaHash : Option String := none
  nullRate : Option ℚ := none
  status : Option String := none
  dt : Option Date := none
  deriving DecidableEq

/-- `fact_etl_run`. -/
abbrev FactEtlRunTable := KeyedTable FactEtlRunRow String (fun r => r.runKey)

/-- `fact_qc_rule_result`. -/
abbrev FactQcRuleResultTable := KeyedTable FactQcRuleResultRow String (fun r => r.ruleResultKey)

/-- `fact_workflow_step`. -/
abbrev FactWorkflowStepTable := KeyedTable FactWorkflowStepRow String (fun r => r.stepKey)

/-- `fact_asset_profile`. -/
abbrev FactAssetProfileTable := KeyedTable FactAssetProfileRow String (fun r => r.assetProfileKey)

/-! ## `_sqlite_build_fact_etl_run` -/

/-- `run_key`. -/
def runKey (r : EtlPerfRunRow) : String :=
  md5Pipe [some r.jobId, some r.runId, some r.phase, some r.datasetId, some r.version]

/-- The payload of one perf run.  `dataset_family` is not among the columns assigned, and no
builder of this path ever sets it. -/
def factEtlRun (r : EtlPerfRunRow) : FactEtlRunRow where
  runKey := runKey r
  jobId := some r.jobId
  runId := some r.runId
  datasetId := some r.datasetId
  version := some r.version
  phase := some r.phase
  status := some r.status
  startedAt := r.startedAt
  finishedAt := r.finishedAt
  dt := r.startedAt.map dateOf
  durationSec := r.durationSec
  inputBytes := r.inputBytes
  outputBytes := r.outputBytes
  inputRows := r.inputRows
  outputRows := r.outputRows
  peakMemoryMb := r.peakMemoryMb
  errorMessage := r.errorMessage
  archiveLogUri := r.metrics.archiveLogUri

/-- The fact rows of the perf runs started in the window; a run without `started_at` has none. -/
def etlRunFacts (S : Sources) (w : DateRange) : List FactEtlRunRow :=
  (S.etlPerfRuns.filter (fun r => w.selects (r.startedAt.map dateOf))).map factEtlRun

/-- `_sqlite_build_fact_etl_run`. -/
def sqliteBuildFactEtlRun (S : Sources) (w : DateRange) (t : FactEtlRunTable) : FactEtlRunTable :=
  t.upsertAll (etlRunFacts S w)

/-! ## `_sqlite_build_fact_qc_rule_result` -/

/-- `x if isinstance(x, list) else []`, kept to the dictionaries among the elements. -/
def RulesJson.listItems : RulesJson → List RuleItem
  | .array elements => elements.filterMap id
  | .null | .wrapped _ => []

/-- `str(x or default)`. -/
def JsonValue.strOr (x : JsonValue) (default : String) : String :=
  if x.truthy then x.pyStr else default

/-- The row of one failed or warned rule; a rule without an id has none. -/
def ruleFact (run : QcContractRunRow) (status : String) (item : RuleItem) :
    Option FactQcRuleResultRow :=
  let ruleId := item.ruleId.strOr ""
  let severity := item.severity.strOr "unknown"
  if ruleId = "" then none
  else some
    { ruleResultKey := md5Pipe [some run.runId, some severity, some ruleId,
      some (item.metric.strOr "")]
      runId := some run.runId
      contractId := some run.contractId
      datasetId := run.datasetId
      version := run.version
      datasetFamily := run.datasetFamily
      ruleId := some ruleId
      severity := some severity
      status := some status
      metric := item.metric.pyStr?
      op := item.op.pyStr?
      thresholdValue := item.threshold.pyStr?
      actualValue := item.actual.pyStr?
      dt := run.startedAt.map dateOf }

/-- The `contract_status` row of a run. -/
def summaryFact (run : QcContractRunRow) : FactQcRuleResultRow where
  ruleResultKey := md5Pipe [some run.runId, some "summary", some "contract_status", some ""]
  runId := some run.runId
  contractId := some run.contractId
  datasetId := run.datasetId
  version := run.version
  datasetFamily := run.datasetFamily
  ruleId := some "contract_status"
  severity := some "summary"
  status := some run.status
  dt := run.startedAt.map dateOf

/-- The rows of one run: failed rules, warned rules, summary. -/
def qcRunFacts (run : QcContractRunRow) : List FactQcRuleResultRow :=
  run.failedRules.listItems.filterMap (ruleFact run "FAIL") ++
    run.warningRules.listItems.filterMap (ruleFact run "WARN") ++ [summaryFact run]

/-- The fact rows of the contract runs started in the window. -/
def qcRuleResultFacts (S : Sources) (w : DateRange) : List FactQcRuleResultRow :=
  (S.qcContractRuns.filter (fun run => w.selects (run.startedAt.map dateOf))).flatMap qcRunFacts

/-- `_sqlite_build_fact_qc_rule_result`. -/
def sqliteBuildFactQcRuleResult (S : Sources) (w : DateRange) (t : FactQcRuleResultTable) :
    FactQcRuleResultTable :=
  t.upsertAll (qcRuleResultFacts S w)

/-! ## `_sqlite_build_fact_workflow_step` -/

/-- The first run registered for the workflow of a step. -/
def workflowRunOf (S : Sources) (ws : WorkflowStepRow) : Option WorkflowRunRow :=
  S.workflowRuns.find? fun wr =>
    wr.workflowName = ws.workflowName ∧ wr.workflowNamespace = ws.workflowNamespace

/-- The payload of one step. -/
def factWorkflowStep (S : Sources) (ws : WorkflowStepRow) : FactWorkflowStepRow where
  stepKey := md5Pipe [ws.workflowNamespace, some ws.workflowName, some ws.stepName, ws.podName]
  workflowName := some ws.workflowName
  workflowNamespace := ws.workflowNamespace
  workflowType := (workflowRunOf S ws).bind (fun wr => wr.workflowType)
  stepName := some ws.stepName
  templateName := ws.templateName
  podName := ws.podName
  phase := ws.phase
  datasetId := ws.datasetId
  version := ws.version
  datasetFamily := ws.datasetFamily
  startedAt := ws.startedAt
  finishedAt := ws.finishedAt
  dt := ws.startedAt.map dateOf
  durationSec := ws.durationSec
  exitCode := ws.metrics.exitCode
  containerReason := ws.metrics.containerReason
  archiveLogUri := ws.metrics.archiveLogUri
  archiveLogUrl := ws.metrics.archiveLogUrl

/-- The fact rows of the steps started in the window. -/
def workflowStepFacts (S : Sources) (w : DateRange) : List FactWorkflowStepRow :=
  (S.workflowSteps.filter (fun ws => w.selects (ws.startedAt.map dateOf))).map (factWorkflowStep S)

/-- `_sqlite_build_fact_workflow_step`. -/
def sqliteBuildFactWorkflowStep (S : Sources) (w : DateRange) (t : FactWorkflowStepTable) :
    FactWorkflowStepTable :=
  t.upsertAll (workflowStepFacts S w)

/-! ## `_sqlite_build_fact_asset_profile` -/

/-- The payload of one profile. -/
def factAssetProfile (ap : AssetProfileRow) : FactAssetProfileRow where
  assetProfileKey := md5 ap.profileId
  profileId := some ap.profileId
  datasetId := ap.datasetId
  version := ap.version
  datasetFamily := ap.datasetFamily
  assetUri := some ap.assetUri
  assetFormat := ap.assetFormat
  layer := ap.layer
  bytes := ap.bytes
  rows := ap.rows
  filesCount := ap.filesCount
  episodesCount := ap.episodesCount
  videosCount := ap.videosCount
  schemaHash := ap.schemaHash
  nullRate := ap.nullRate
  status := ap.status
  dt := some (dateOf ap.createdAt)

/-- The fact rows of the profiles created in the window. -/
def assetProfileFacts (S : Sources) (w : DateRange) : List FactAssetProfileRow :=
  (S.assetProfiles.filter (fun ap => w.selects (some (dateOf ap.createdAt)))).map factAssetProfile

/-- `_sqlite_build_fact_asset_profile`. -/
def sqliteBuildFactAssetProfile (S : Sources) (w : DateRange) (t : FactAssetProfileTable) :
    FactAssetProfileTable :=
  t.upsertAll (assetProfileFacts S w)

/-! ## The day of a fact -/

section Day

variable {S : Sources} {w : DateRange}

/-- What every row of a run has of the run. -/
theorem run_of_mem_qcRunFacts {run : QcContractRunRow} {f : FactQcRuleResultRow}
    (h : f ∈ qcRunFacts run) :
    f.dt = run.startedAt.map dateOf ∧ f.datasetFamily = run.datasetFamily := by
  have hrule : ∀ {status item}, ruleFact run status item = some f →
      f.dt = run.startedAt.map dateOf ∧ f.datasetFamily = run.datasetFamily := by
    intro status item hf
    simp only [ruleFact] at hf
    split at hf
    · cases hf
    · cases hf
      exact ⟨rfl, rfl⟩
  simp only [qcRunFacts, List.mem_append, List.mem_filterMap, List.mem_singleton] at h
  rcases h with (⟨item, -, hf⟩ | ⟨item, -, hf⟩) | rfl
  · exact hrule hf
  · exact hrule hf
  · exact ⟨rfl, rfl⟩

/-- Every fact a builder writes lies on a day of its window. -/
theorem selects_of_mem_etlRunFacts {f : FactEtlRunRow} (h : f ∈ etlRunFacts S w) :
    w.selects f.dt := by
  obtain ⟨r, hr, rfl⟩ := List.mem_map.mp h
  exact (List.mem_filter.mp hr).2

theorem selects_of_mem_qcRuleResultFacts {f : FactQcRuleResultRow} (h : f ∈ qcRuleResultFacts S w) :
    w.selects f.dt := by
  obtain ⟨run, hrun, hf⟩ := List.mem_flatMap.mp h
  rw [(run_of_mem_qcRunFacts hf).1]
  exact (List.mem_filter.mp hrun).2

theorem selects_of_mem_workflowStepFacts {f : FactWorkflowStepRow} (h : f ∈ workflowStepFacts S w) :
    w.selects f.dt := by
  obtain ⟨ws, hws, rfl⟩ := List.mem_map.mp h
  exact (List.mem_filter.mp hws).2

end Day

end RobotDataHarness.Warehouse
