import RobotDataHarness.Library.Relational
import RobotDataHarness.Warehouse.Dashboards

/-!
# The PostgreSQL path

The statements of `warehouse/sql/dml` that build the facts, the daily quality and rule tables
and the quality dashboard.  A statement is the list of rows its `SELECT` proposes and the
columns its `ON CONFLICT DO UPDATE` assigns; a statement that fails leaves its table alone,
and the builder goes on with the next file.
-/

namespace RobotDataHarness.Warehouse

open RobotDataHarness.Inference
open RobotDataHarness.Library

/-! ## `build_fact_etl_run.sql` -/

/-- `ts + secs * interval '1 second'`, to the microsecond. -/
def addSeconds (ts : Timestamp) (secs : ℚ) : Timestamp := ts + ⌊secs * 1000000 + 1 / 2⌋

/-- `started_at_value`. -/
def startedAtValue (r : EtlPerfRunRow) : Timestamp := r.metrics.startedAt.getD r.createdAt

/-- `finished_at_value`. -/
def finishedAtValue (r : EtlPerfRunRow) : Timestamp :=
  r.metrics.finishedAt.getD (addSeconds r.createdAt (r.durationSec.getD 0))

/-- One row of the `SELECT`; its `run_key` is the digest of the text `_md5_pipe` joins. -/
def pgFactEtlRun (r : EtlPerfRunRow) : FactEtlRunRow where
  runKey := runKey r
  jobId := some r.jobId
  runId := some r.runId
  datasetId := some r.datasetId
  version := some r.version
  datasetFamily := none
  phase := some r.phase
  status := some r.status
  startedAt := some (startedAtValue r)
  finishedAt := some (finishedAtValue r)
  dt := some (dateOf (startedAtValue r))
  durationSec := r.durationSec
  inputBytes := r.inputBytes
  outputBytes := r.outputBytes
  inputRows := r.inputRows
  outputRows := r.outputRows
  peakMemoryMb := r.peakMemoryMb
  errorMessage := r.errorMessage
  archiveLogUri := r.metrics.archiveLogUri

/-- `src`: the perf runs created in the window. -/
def pgEtlRunSource (S : Sources) (w : DateRange) : List EtlPerfRunRow :=
  S.etlPerfRuns.filter (fun r => w.Covers (dateOf r.createdAt))

/-- The proposed rows. -/
def pgEtlRunRows (S : Sources) (w : DateRange) : List FactEtlRunRow :=
  (pgEtlRunSource S w).map pgFactEtlRun

/-- The columns assigned on conflict. -/
def pgSetEtlRun (old new : FactEtlRunRow) : FactEtlRunRow :=
  { old with
    status := new.status
    finishedAt := new.finishedAt
    durationSec := new.durationSec
    inputBytes := new.inputBytes
    outputBytes := new.outputBytes
    inputRows := new.inputRows
    outputRows := new.outputRows
    peakMemoryMb := new.peakMemoryMb
    errorMessage := new.errorMessage
    archiveLogUri := new.archiveLogUri }

/-! ## `build_fact_qc_rule_result.sql` -/

/-- `dt` of a contract run. -/
def pgQcDay (run : QcContractRunRow) : Date := dateOf (run.startedAt.getD run.createdAt)

/-- `runs`. -/
def pgQcRuns (S : Sources) (w : DateRange) : List QcContractRunRow :=
  S.qcContractRuns.filter (fun run => w.Covers (pgQcDay run))

/-- The elements of `_rule_results`, when it is an array. -/
def RulesJson.arrayElements : RulesJson → List (Option RuleItem)
  | .array elements => elements
  | .null | .wrapped _ => []

/-- The elements of a failed or warned rule list, also in its historical wrapping. -/
def RulesJson.anyElements : RulesJson → List (Option RuleItem)
  | .array elements | .wrapped elements => elements
  | .null => []

/-- One rule of a run; of an element that is not an object every entry is NULL. -/
def pgRuleFact (run : QcContractRunRow) (status : RuleItem → Option String)
    (element : Option RuleItem) :
    FactQcRuleResultRow :=
  let item := element.getD {}
  { ruleResultKey := md5Pipe
      [some run.runId, item.severity.jsonText, item.ruleId.jsonText, item.metric.jsonText]
    runId := some run.runId
    contractId := some run.contractId
    datasetId := run.datasetId
    version := run.version
    datasetFamily := run.datasetFamily
    ruleId := item.ruleId.jsonText
    severity := item.severity.jsonText
    status := status item
    metric := item.metric.jsonText
    op := item.op.jsonText
    thresholdValue := item.threshold.jsonText
    actualValue := item.actual.jsonText
    dt := some (pgQcDay run) }

/-- `UPPER(COALESCE(rule_obj.value ->> 'status', 'PASS'))`. -/
def statusOrPass (item : RuleItem) : Option String :=
  some (upper (item.status.jsonText.getD "PASS"))

/-- `all_rules_from_metrics`. -/
def allRulesFromMetrics (S : Sources) (w : DateRange) : List FactQcRuleResultRow :=
  (pgQcRuns S w).flatMap fun run => run.ruleResults.arrayElements.map (pgRuleFact run statusOrPass)

/-- The runs without any rule in `_rule_results`. -/
def runsWithoutRules (S : Sources) (w : DateRange) : List QcContractRunRow :=
  (pgQcRuns S w).filter fun run => (allRulesFromMetrics S w).all fun arm => arm.runId ≠
    some run.runId

/-- `fail_rules` or `warn_rules`. -/
def listedRules (S : Sources) (w : DateRange) (rules : QcContractRunRow → RulesJson)
    (status : String) :
    List FactQcRuleResultRow :=
  (runsWithoutRules S w).flatMap fun run =>
    (rules run).anyElements.map (pgRuleFact run fun _ => some status)

/-- `summary_rules`. -/
def pgSummaryFact (run : QcContractRunRow) : FactQcRuleResultRow :=
  { summaryFact run with dt := some (pgQcDay run) }

/-- The proposed rows: `all_rules` with a rule id. -/
def pgQcRuleResultRows (S : Sources) (w : DateRange) : List FactQcRuleResultRow :=
  (allRulesFromMetrics S w ++ listedRules S w (fun run => run.failedRules) "FAIL" ++
    listedRules S w (fun run => run.warningRules) "WARN" ++ (pgQcRuns S w).map pgSummaryFact).filter
      fun f => f.ruleId.isSome

/-- The columns assigned on conflict. -/
def pgSetQcRuleResult (old new : FactQcRuleResultRow) : FactQcRuleResultRow :=
  { old with
    status := new.status
    metric := new.metric
    op := new.op
    thresholdValue := new.thresholdValue
    actualValue := new.actualValue }

/-! ## `build_fact_workflow_step.sql` -/

/-- The workflow runs a step is joined with. -/
def pgWorkflowRunsOf (S : Sources) (ws : WorkflowStepRow) : List WorkflowRunRow :=
  S.workflowRuns.filter fun wr =>
    wr.workflowNamespace = ws.workflowNamespace ∧ wr.workflowName = ws.workflowName

/-- One row of the `SELECT`. -/
def pgFactWorkflowStep (ws : WorkflowStepRow) (wr : Option WorkflowRunRow) :
    FactWorkflowStepRow where
  stepKey := md5Pipe [ws.workflowNamespace, some ws.workflowName, some ws.stepName, ws.podName]
  workflowName := some ws.workflowName
  workflowNamespace := ws.workflowNamespace
  workflowType := wr.bind (fun wr => wr.workflowType)
  stepName := some ws.stepName
  templateName := ws.templateName
  podName := ws.podName
  phase := ws.phase
  datasetId := ws.datasetId
  version := ws.version
  datasetFamily := ws.datasetFamily
  startedAt := ws.startedAt
  finishedAt := ws.finishedAt
  dt := ws.startedAt.map dateOf
  durationSec := ws.durationSec
  exitCode := ws.metrics.exitCode
  containerReason := ws.metrics.containerReason
  archiveLogUri := ws.metrics.archiveLogUri
  archiveLogUrl := ws.metrics.archiveLogUrl

/-- The proposed rows. -/
def pgWorkflowStepRows (S : Sources) (w : DateRange) : List FactWorkflowStepRow :=
  (S.workflowSteps.filter (fun ws => w.selects (ws.startedAt.map dateOf))).flatMap fun ws =>
    (leftJoin (pgWorkflowRunsOf S ws)).map (pgFactWorkflowStep ws)

/-- The columns assigned on conflict. -/
def pgSetWorkflowStep (old new : FactWorkflowStepRow) : FactWorkflowStepRow :=
  { old with
    phase := new.phase
    finishedAt := new.finishedAt
    durationSec := new.durationSec
    exitCode := new.exitCode
    containerReason := new.containerReason
    archiveLogUri := new.archiveLogUri
    archiveLogUrl := new.archiveLogUrl }

/-! ## `build_fact_asset_profile.sql` -/

/-- The proposed rows: the columns and the window are those of the other path. -/
def pgAssetProfileRows (S : Sources) (w : DateRange) : List FactAssetProfileRow :=
  (S.assetProfiles.filter (fun ap => w.Covers (dateOf ap.createdAt))).map factAssetProfile

/-- The columns assigned on conflict. -/
def pgSetAssetProfile (old new : FactAssetProfileRow) : FactAssetProfileRow :=
  { old with
    bytes := new.bytes
    rows := new.rows
    filesCount := new.filesCount
    episodesCount := new.episodesCount
    videosCount := new.videosCount
    schemaHash := new.schemaHash
    nullRate := new.nullRate
    status := new.status }

/-! ## `build_dws_dataset_quality_daily.sql` -/

/-- A row of `etl_agg`, less its key. -/
structure PgEtlAgg where
  etlRunCount : ℕ
  etlSuccessCount : ℕ
  etlFailCount : ℕ
  totalInputBytes : ℤ
  totalOutputBytes : ℤ
  p95EtlDurationSec : Option ℚ

/-- The grouping columns of `etl_agg`, on the rows its `WHERE` keeps. -/
def pgEtlKey (w : DateRange) (f : FactEtlRunRow) : Option (DatasetDay × Option String) :=
  if w.selects f.dt ∧ ¬isRunning f.status then
    (datasetDay f.dt f.datasetId f.version).map fun k => (k, f.datasetFamily)
  else none

/-- The aggregates of a group of `etl_agg`. -/
def PgEtlAgg.of (g : List FactEtlRunRow) : PgEtlAgg where
  etlRunCount := g.length
  etlSuccessCount := g.countP (fun f => isSuccess f.status)
  etlFailCount := g.countP (fun f => isFailure f.status)
  totalInputBytes := (g.map fun f => f.inputBytes.getD 0).sum
  totalOutputBytes := (g.map fun f => f.outputBytes.getD 0).sum
  p95EtlDurationSec := percentile (g.filterMap fun f => f.durationSec) (95 / 100)

/-- `etl_agg`. -/
def pgEtlAgg (w : DateRange) (etl : List FactEtlRunRow) :
    List ((DatasetDay × Option String) × PgEtlAgg) :=
  aggregate (pgEtlKey w) etl PgEtlAgg.of

/-- A row of `qc_agg`, less its key. -/
structure PgQcAgg where
  qcRunCount : ℕ
  qcPassCount : ℕ
  qcWarnCount : ℕ
  qcFailCount : ℕ

/-- The grouping columns of `qc_agg`, on the rows its `WHERE` keeps. -/
def pgQcKey (w : DateRange) (f : FactQcRuleResultRow) : Option DatasetDay :=
  if w.selects f.dt ∧ f.ruleId = some "contract_status" then datasetDay f.dt f.datasetId f.version
  else none

/-- The aggregates of a group of `qc_agg`. -/
def PgQcAgg.of (g : List FactQcRuleResultRow) : PgQcAgg where
  qcRunCount := g.length
  qcPassCount := g.countP (fun f => hasStatus "PASS" f.status)
  qcWarnCount := g.countP (fun f => hasStatus "WARN" f.status)
  qcFailCount := g.countP (fun f => hasStatus "FAIL" f.status)

/-- `qc_agg`. -/
def pgQcAgg (w : DateRange) (qc : List FactQcRuleResultRow) : List (DatasetDay × PgQcAgg) :=
  aggregate (pgQcKey w) qc PgQcAgg.of

/-- A row of `wf_agg`, less its key. -/
structure PgWfAgg where
  workflowCount : ℕ
  workflowSuccessCount : ℕ
  workflowFailCount : ℕ
  p95WorkflowStepDurationSec : Option ℚ

/-- The grouping columns of `wf_agg`, on the rows its `WHERE` keeps. -/
def pgWfKey (w : DateRange) (f : FactWorkflowStepRow) : Option DatasetDay :=
  if w.selects f.dt then datasetDay f.dt f.datasetId f.version else none

/-- The aggregates of a group of `wf_agg`. -/
def PgWfAgg.of (g : List FactWorkflowStepRow) : PgWfAgg where
  workflowCount := countDistinct (fun f => f.workflowName) g
  workflowSuccessCount :=
    countDistinct (fun f => f.workflowName) (g.filter fun f => isSucceeded f.phase)
  workflowFailCount := countDistinct (fun f => f.workflowName) (g.filter fun f => isFailed f.phase)
  p95WorkflowStepDurationSec := percentile (g.filterMap fun f => f.durationSec) (95 / 100)

/-- `wf_agg`. -/
def pgWfAgg (w : DateRange) (wf : List FactWorkflowStepRow) : List (DatasetDay × PgWfAgg) :=
  aggregate (pgWfKey w) wf PgWfAgg.of

/-- `max` of a column that is never NULL in a group. -/
def sqlMax : List ℤ → ℤ
  | [] => 0
  | n :: ns => ns.foldl max n

/-- `ml_agg`. -/
def pgMlAgg (S : Sources) (w : DateRange) : List (DatasetDay × ℤ) :=
  aggregate (mlKey w) S.mlReadyDatasets fun g => sqlMax (g.map mlReadyRows)

/-- The grouping columns of `quality_agg`. -/
def pgQualityKey (w : DateRange) (r : QualitySnapshotRow) : Option DatasetDay :=
  if w.Covers (dateOf r.createdAt) then some (dateOf r.createdAt, r.datasetId, r.version) else none

/-- `quality_agg`: the average of the scores that are not NULL. -/
def pgQualityAgg (S : Sources) (w : DateRange) : List (DatasetDay × Option ℚ) :=
  aggregate (pgQualityKey w) S.qualitySnapshots fun g => mean (g.filterMap fun r => r.qualityScore)

section Quality

variable (S : Sources) (w : DateRange) (etl : List FactEtlRunRow) (qc : List FactQcRuleResultRow)
  (wf : List FactWorkflowStepRow)

/-- `all_keys`: the `UNION` of the keys of four of the five aggregates, NULL in the place of
the family in all but the first. -/
def pgAllKeys : List (DatasetDay × Option String) :=
  ((pgEtlAgg w etl).map Prod.fst ++
    ((pgQcAgg w qc).map Prod.fst ++ (pgWfAgg w wf).map Prod.fst ++ (pgMlAgg S w).map Prod.fst).map
      fun k => (k, none)).dedup

/-- The columns of one joined row. -/
def pgQualityRow (k : DatasetDay × Option String)
    (e : Option ((DatasetDay × Option String) × PgEtlAgg)) (q : Option (DatasetDay × PgQcAgg))
    (f : Option (DatasetDay × PgWfAgg)) (m : Option (DatasetDay × ℤ))
    (s : Option (DatasetDay × Option ℚ)) : DwsDatasetQualityDailyRow :=
  let qcRuns := (q.map fun q => q.2.qcRunCount).getD 0
  let qcPass := (q.map fun q => q.2.qcPassCount).getD 0
  let etlRuns := (e.map fun e => e.2.etlRunCount).getD 0
  let etlSuccess := (e.map fun e => e.2.etlSuccessCount).getD 0
  let wfCount := (f.map fun f => f.2.workflowCount).getD 0
  let wfSuccess := (f.map fun f => f.2.workflowSuccessCount).getD 0
  { dt := k.1.1
    datasetId := k.1.2.1
    version := k.1.2.2
    datasetFamily := (e.bind fun e => e.1.2).or k.2
    qcRunCount := qcRuns
    qcPassCount := qcPass
    qcWarnCount := (q.map fun q => q.2.qcWarnCount).getD 0
    qcFailCount := (q.map fun q => q.2.qcFailCount).getD 0
    qcPassRate := rate qcPass qcRuns
    etlRunCount := etlRuns
    etlSuccessCount := etlSuccess
    etlFailCount := (e.map fun e => e.2.etlFailCount).getD 0
    etlSuccessRate := rate etlSuccess etlRuns
    workflowCount := wfCount
    workflowSuccessCount := wfSuccess
    workflowFailCount := (f.map fun f => f.2.workflowFailCount).getD 0
    workflowSuccessRate := rate wfSuccess wfCount
    avgQualityScore := s.bind fun s => s.2
    mlReadyRows := (m.map fun m => m.2).getD 0
    totalInputBytes := (e.map fun e => e.2.totalInputBytes).getD 0
    totalOutputBytes := (e.map fun e => e.2.totalOutputBytes).getD 0
    p95EtlDurationSec := e.bind fun e => e.2.p95EtlDurationSec
    p95WorkflowStepDurationSec := f.bind fun f => f.2.p95WorkflowStepDurationSec
    staleHeartbeatCount := 0 }

@[simp] theorem key_pgQualityRow {k e q f m s} : (pgQualityRow k e q f m s).key = k.1 := rfl

/-- The proposed rows: `all_keys` with its five `LEFT JOIN`s. -/
def pgQualityRows : List DwsDatasetQualityDailyRow :=
  (pgAllKeys S w etl qc wf).flatMap fun k =>
    (leftJoin ((pgEtlAgg w etl).filter fun e => e.1.1 = k.1)).flatMap fun e =>
      (leftJoin ((pgQcAgg w qc).filter fun q => q.1 = k.1)).flatMap fun q =>
        (leftJoin ((pgWfAgg w wf).filter fun f => f.1 = k.1)).flatMap fun f =>
          (leftJoin ((pgMlAgg S w).filter fun m => m.1 = k.1)).flatMap fun m =>
            (leftJoin ((pgQualityAgg S w).filter fun s => s.1 = k.1)).map fun s =>
              pgQualityRow k e q f m s

end Quality

/-- On conflict every column but the key is assigned. -/
def pgSetAll {ρ : Type} (_old new : ρ) : ρ := new

/-! ## `build_dws_rule_failure_daily.sql` -/

/-- The grouping columns, on the rows the `WHERE` keeps. -/
def pgRuleKey (w : DateRange) (f : FactQcRuleResultRow) : Option RuleDay :=
  match f.dt, f.ruleId with
  | some dt, some ruleId =>
    if w.Covers dt ∧ ruleId ≠ "contract_status" then
      some (dt, f.datasetFamily.getD "unknown", f.contractId.getD "unknown", ruleId,
        f.severity.getD "unknown")
    else none
  | _, _ => none

/-- One row of the `SELECT`. -/
def pgRuleRow (k : RuleDay) (g : List FactQcRuleResultRow) : DwsRuleFailureDailyRow where
  dt := k.1
  datasetFamily := k.2.1
  contractId := k.2.2.1
  ruleId := k.2.2.2.1
  severity := k.2.2.2.2
  runCount := g.length
  passCount := g.countP (fun f => hasStatus "PASS" f.status)
  warnCount := g.countP (fun f => hasStatus "WARN" f.status)
  failCount := g.countP (fun f => hasStatus "FAIL" f.status)
  failRate := rate (g.countP fun f => hasStatus "FAIL" f.status) g.length

/-- The proposed rows. -/
def pgRuleRows (w : DateRange) (qc : List FactQcRuleResultRow) : List DwsRuleFailureDailyRow :=
  (groupBy (pgRuleKey w) qc).map fun g => pgRuleRow g.1 g.2

/-! ## `build_ads_quality_dashboard.sql` -/

/-- `ORDER BY fail_count DESC, rule_id`. -/
def topRuleOrder (a b : DwsRuleFailureDailyRow) : Prop :=
  b.failCount < a.failCount ∨ (a.failCount = b.failCount ∧ a.ruleId ≤ b.ruleId)

instance : DecidableRel topRuleOrder := fun _ _ => inferInstanceAs (Decidable (_ ∨ _))

/-- `top_rule`: the first failed rule of a day and a family, as `DISTINCT ON` keeps it. -/
def pgTopRule (w : DateRange) (rules : List DwsRuleFailureDailyRow) (dt : Date)
    (family : Option String) :
    Option DwsRuleFailureDailyRow :=
  ((rules.filter fun r => w.Covers r.dt ∧ r.failCount > 0 ∧ r.dt = dt ∧
    some r.datasetFamily = family).insertionSort topRuleOrder).head?

/-- The grouping columns of the bytes of some layers, on the rows the `WHERE` keeps. -/
def pgBytesKey (layers : List String) (w : DateRange) (fa : FactAssetProfileRow) :
    Option DatasetDay :=
  if w.selects fa.dt ∧
    fa.layer.any (fun layer => layer ∈ layers) then datasetDay fa.dt fa.datasetId fa.version
  else none

/-- `raw_bytes` or `dwd_bytes`: the bytes of the profiles in the given layers. -/
def pgBytes (layers : List String) (w : DateRange) (assets : List FactAssetProfileRow) :
    List (DatasetDay × ℤ) :=
  aggregate (pgBytesKey layers w) assets fun g => (g.map fun fa => fa.bytes.getD 0).sum

/-- The proposed rows. -/
def pgAdsQualityRows (w : DateRange) (dws : List DwsDatasetQualityDailyRow)
    (rules : List DwsRuleFailureDailyRow) (assets : List FactAssetProfileRow) :
      List AdsQualityDashboardRow :=
  (dws.filter fun d => w.Covers d.dt).flatMap fun d =>
    (leftJoin ((pgBytes ["raw", "ods"] w assets).filter fun rb => rb.1 = d.key)).flatMap fun rb =>
      (leftJoin ((pgBytes ["dwd"] w assets).filter fun db => db.1 = d.key)).map fun db =>
        adsQualityRow (pgTopRule w rules d.dt d.datasetFamily) (rb.map Prod.snd) (db.map Prod.snd) d

/-! ## One build -/

/-- The tables the statements above fill. -/
structure PgWarehouse where
  factEtlRun : FactEtlRunTable := .empty
  factQcRuleResult : FactQcRuleResultTable := .empty
  factWorkflowStep : FactWorkflowStepTable := .empty
  factAssetProfile : FactAssetProfileTable := .empty
  dwsDatasetQualityDaily : DwsDatasetQualityDailyTable := .empty
  dwsRuleFailureDaily : DwsRuleFailureDailyTable := .empty
  adsQualityDashboard : AdsQualityDashboardTable := .empty

/-- `_build_postgres`, the statements in the order of `BUILD_SQL_SEQUENCE`. -/
def pgBuild (S : Sources) (w : DateRange) (T : PgWarehouse) : PgWarehouse :=
  let etl := (T.factEtlRun.insertOnConflict pgSetEtlRun (pgEtlRunRows S w)).getD T.factEtlRun
  let qc := (T.factQcRuleResult.insertOnConflict pgSetQcRuleResult (pgQcRuleResultRows S w)).getD
    T.factQcRuleResult
  let wf := (T.factWorkflowStep.insertOnConflict pgSetWorkflowStep (pgWorkflowStepRows S w)).getD
    T.factWorkflowStep
  let assets :=
    (T.factAssetProfile.insertOnConflict pgSetAssetProfile (pgAssetProfileRows S w)).getD
    T.factAssetProfile
  let dws := (T.dwsDatasetQualityDaily.insertOnConflict pgSetAll
    (pgQualityRows S w etl.rows qc.rows wf.rows)).getD T.dwsDatasetQualityDaily
  let rules := (T.dwsRuleFailureDaily.insertOnConflict pgSetAll (pgRuleRows w qc.rows)).getD
    T.dwsRuleFailureDaily
  let ads := (T.adsQualityDashboard.insertOnConflict pgSetAll
    (pgAdsQualityRows w dws.rows rules.rows assets.rows)).getD T.adsQualityDashboard
  { factEtlRun := etl
    factQcRuleResult := qc
    factWorkflowStep := wf
    factAssetProfile := assets
    dwsDatasetQualityDaily := dws
    dwsRuleFailureDaily := rules
    adsQualityDashboard := ads }

end RobotDataHarness.Warehouse
