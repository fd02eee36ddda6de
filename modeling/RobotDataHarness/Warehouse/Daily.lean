import Mathlib.Data.Finset.Card
import RobotDataHarness.Library.Grouping
import RobotDataHarness.Warehouse.Facts

/-!
# The daily layer

The three DWS tables and their builders on the SQLite path:
`_sqlite_build_dws_dataset_quality_daily`, `_sqlite_build_dws_rule_failure_daily` and
`_sqlite_build_dws_workflow_ops_daily`.  Each runs through the facts of the window, keeps
one bucket of counters for each key, and upserts one row for each bucket.
-/

namespace RobotDataHarness.Warehouse

open RobotDataHarness.Inference
open RobotDataHarness.Library

/-! ## Arithmetic of the buckets -/

/-- `part / whole if whole else None`. -/
def rate (part whole : ℕ) : Option ℚ := if whole = 0 then none else some (part / whole)

/-- `sum(xs) / len(xs) if xs else None`, exactly; the floats of the source are rounded after each
addition, in the order of `xs`. -/
def mean (xs : List ℚ) : Option ℚ := if xs = [] then none else some (xs.sum / xs.length)

/-- `_percentile`: the interpolation of `robot_dh/inference/metrics.py`, in a copy. -/
def percentile (values : List ℚ) (q : ℚ) : Option ℚ := Inference.percentile values q

/-- `s or "unknown"`. -/
def orUnknown (s : Option String) : String := (pyOr s (some "unknown")).getD "unknown"

/-! ## `dws_dataset_quality_daily` -/

/-- The key of a daily row: day, dataset, version. -/
abbrev DatasetDay := Date × String × String

/-- `_key`: no key with a missing part. -/
def datasetDay (dt : Option Date) (datasetId version : Option String) : Option DatasetDay :=
  match dt, datasetId, version with
  | some dt, some datasetId, some version => some (dt, datasetId, version)
  | _, _, _ => none

theorem datasetDay_eq_some_iff {dt : Option Date} {datasetId version : Option String}
    {k : DatasetDay} :
    datasetDay dt datasetId version = some k ↔
      dt = some k.1 ∧ datasetId = some k.2.1 ∧ version = some k.2.2 := by
  obtain ⟨d, i, v⟩ := k
  cases dt <;> cases datasetId <;> cases version <;> simp [datasetDay]

/-- One entry of `agg`. -/
structure QualityBucket where
  datasetFamily : Option String := none
  etlRuns : ℕ := 0
  etlSuccess : ℕ := 0
  etlFail : ℕ := 0
  etlDurations : List ℚ := []
  inputBytes : ℤ := 0
  outputBytes : ℤ := 0
  qcRuns : ℕ := 0
  qcPass : ℕ := 0
  qcWarn : ℕ := 0
  qcFail : ℕ := 0
  wfNames : Finset String := ∅
  wfSuccess : Finset String := ∅
  wfFail : Finset String := ∅
  wfDurations : List ℚ := []
  mlRows : ℤ := 0
  qualityScores : List ℚ := []

/-- The status of a run that has not ended. -/
def isRunning (status : Option String) : Bool :=
  upperOrEmpty status ∈ ["RUNNING", "PENDING", "STARTED"]

/-- The status of a run that ended well; a warning is a success. -/
def isSuccess (status : Option String) : Bool :=
  upperOrEmpty status ∈ ["OK", "WARN", "SUCCESS", "SUCCEEDED"]

/-- The status of a run that failed. -/
def isFailure (status : Option String) : Bool :=
  upperOrEmpty status ∈ ["FAIL", "FAILED", "ERROR"]

/-- `status.upper() == word`. -/
def hasStatus (word : String) (status : Option String) : Bool := upperOrEmpty status = word

/-- The bucket of an ETL fact; a run that has not ended is in none. -/
def etlKey (r : FactEtlRunRow) : Option DatasetDay :=
  if isRunning r.status then none else datasetDay r.dt r.datasetId r.version

/-- The loop over the ETL facts. -/
def addEtl (b : QualityBucket) (r : FactEtlRunRow) : QualityBucket :=
  { b with
    datasetFamily := pyOr b.datasetFamily r.datasetFamily
    etlRuns := b.etlRuns + 1
    etlSuccess := b.etlSuccess + if isSuccess r.status then 1 else 0
    etlFail := b.etlFail + if isFailure r.status && !isSuccess r.status then 1 else 0
    etlDurations := b.etlDurations ++ r.durationSec.toList
    inputBytes := b.inputBytes + r.inputBytes.getD 0
    outputBytes := b.outputBytes + r.outputBytes.getD 0 }

/-- The bucket of a contract result. -/
def qcKey (r : FactQcRuleResultRow) : Option DatasetDay := datasetDay r.dt r.datasetId r.version

/-- The loop over the contract results. -/
def addQc (b : QualityBucket) (r : FactQcRuleResultRow) : QualityBucket :=
  { b with
    datasetFamily := pyOr b.datasetFamily r.datasetFamily
    qcRuns := b.qcRuns + 1
    qcPass := b.qcPass + if hasStatus "PASS" r.status then 1 else 0
    qcWarn := b.qcWarn + if hasStatus "WARN" r.status then 1 else 0
    qcFail := b.qcFail + if hasStatus "FAIL" r.status then 1 else 0 }

/-- The phase of a step that succeeded. -/
def isSucceeded (phase : Option String) : Bool := upperOrEmpty phase = "SUCCEEDED"

/-- The phase of a step that failed. -/
def isFailed (phase : Option String) : Bool := upperOrEmpty phase ∈ ["FAILED", "ERROR"]

/-- The phase of a step under way. -/
def isUnderWay (phase : Option String) : Bool := upperOrEmpty phase ∈ ["RUNNING", "PENDING"]

/-- The bucket of a workflow step. -/
def wfKey (r : FactWorkflowStepRow) : Option DatasetDay := datasetDay r.dt r.datasetId r.version

/-- `r.workflow_name or ""`. -/
def workflowNameOf (r : FactWorkflowStepRow) : String := r.workflowName.getD ""

/-- The loop over the workflow steps. -/
def addWf (b : QualityBucket) (r : FactWorkflowStepRow) : QualityBucket :=
  { b with
    datasetFamily := pyOr b.datasetFamily r.datasetFamily
    wfNames := insert (workflowNameOf r) b.wfNames
    wfSuccess := if isSucceeded r.phase then insert (workflowNameOf r) b.wfSuccess else b.wfSuccess
    wfFail := if isFailed r.phase then insert (workflowNameOf r) b.wfFail else b.wfFail
    wfDurations := b.wfDurations ++ r.durationSec.toList }

/-- The bucket of an ml-ready dataset. -/
def mlKey (w : DateRange) (r : MlReadyDatasetRow) : Option DatasetDay :=
  if w.Covers (dateOf r.createdAt) then some (dateOf r.createdAt, r.datasetId, r.version) else none

/-- The day of a bucket is the day of the facts in it. -/
theorem dt_of_etlKey {r : FactEtlRunRow} {k : DatasetDay} (h : etlKey r = some k) :
    r.dt = some k.1 := by
  rw [etlKey] at h
  split at h
  · cases h
  · exact (datasetDay_eq_some_iff.mp h).1

theorem dt_of_qcKey {r : FactQcRuleResultRow} {k : DatasetDay} (h : qcKey r = some k) :
    r.dt = some k.1 :=
  (datasetDay_eq_some_iff.mp h).1

theorem dt_of_wfKey {r : FactWorkflowStepRow} {k : DatasetDay} (h : wfKey r = some k) :
    r.dt = some k.1 :=
  (datasetDay_eq_some_iff.mp h).1

/-- The number of rows of an ml-ready dataset. -/
def mlReadyRows (r : MlReadyDatasetRow) : ℤ :=
  r.numTrain.getD 0 + r.numVal.getD 0 + r.numTest.getD 0

/-- The loop over the ml-ready datasets. -/
def addMl (b : QualityBucket) (r : MlReadyDatasetRow) : QualityBucket :=
  { b with mlRows := max b.mlRows (mlReadyRows r) }

/-- The bucket of a quality snapshot; one without a score opens none. -/
def scoreKey (w : DateRange) (r : QualitySnapshotRow) : Option DatasetDay :=
  if w.Covers (dateOf r.createdAt) ∧ r.qualityScore.isSome then
    some (dateOf r.createdAt, r.datasetId, r.version)
  else none

/-- The loop over the quality snapshots. -/
def addScore (b : QualityBucket) (r : QualitySnapshotRow) : QualityBucket :=
  { b with qualityScores := b.qualityScores ++ r.qualityScore.toList }

/-- The facts a daily builder selects: those on a day of the window. -/
def etlRowsOf (w : DateRange) (etl : FactEtlRunTable) : List FactEtlRunRow :=
  etl.rows.filter (fun r => w.selects r.dt)

/-- The `contract_status` rows of the window. -/
def qcRowsOf (w : DateRange) (qc : FactQcRuleResultTable) : List FactQcRuleResultRow :=
  qc.rows.filter (fun r => w.selects r.dt ∧ r.ruleId = some "contract_status")

/-- The workflow steps of the window. -/
def wfRowsOf (w : DateRange) (wf : FactWorkflowStepTable) : List FactWorkflowStepRow :=
  wf.rows.filter (fun r => w.selects r.dt)

/-- `agg` after its five loops. -/
def qualityAgg (S : Sources) (w : DateRange) (etl : FactEtlRunTable) (qc : FactQcRuleResultTable)
    (wf : FactWorkflowStepTable) : Groups DatasetDay QualityBucket :=
  let agg := Groups.collect {} etlKey addEtl (etlRowsOf w etl) KeyedTable.empty
  let agg := Groups.collect {} qcKey addQc (qcRowsOf w qc) agg
  let agg := Groups.collect {} wfKey addWf (wfRowsOf w wf) agg
  let agg := Groups.collect {} (mlKey w) addMl S.mlReadyDatasets agg
  Groups.collect {} (scoreKey w) addScore S.qualitySnapshots agg

/-- `DwsDatasetQualityDailyRow`, without `updated_at`. -/
structure DwsDatasetQualityDailyRow where
  dt : Date
  datasetId : String
  version : String
  datasetFamily : Option String
  qcRunCount : ℕ
  qcPassCount : ℕ
  qcWarnCount : ℕ
  qcFailCount : ℕ
  qcPassRate : Option ℚ
  etlRunCount : ℕ
  etlSuccessCount : ℕ
  etlFailCount : ℕ
  etlSuccessRate : Option ℚ
  workflowCount : ℕ
  workflowSuccessCount : ℕ
  workflowFailCount : ℕ
  workflowSuccessRate : Option ℚ
  avgQualityScore : Option ℚ
  mlReadyRows : ℤ
  totalInputBytes : ℤ
  totalOutputBytes : ℤ
  p95EtlDurationSec : Option ℚ
  p95WorkflowStepDurationSec : Option ℚ
  staleHeartbeatCount : ℕ
  deriving DecidableEq

/-- The primary key of a daily row. -/
def DwsDatasetQualityDailyRow.key (r : DwsDatasetQualityDailyRow) : DatasetDay :=
  (r.dt, r.datasetId, r.version)

/-- `dws_dataset_quality_daily`. -/
abbrev DwsDatasetQualityDailyTable :=
  KeyedTable DwsDatasetQualityDailyRow DatasetDay DwsDatasetQualityDailyRow.key

/-- The payload of one bucket. -/
def qualityRow (k : DatasetDay) (b : QualityBucket) : DwsDatasetQualityDailyRow where
  dt := k.1
  datasetId := k.2.1
  version := k.2.2
  datasetFamily := b.datasetFamily
  qcRunCount := b.qcRuns
  qcPassCount := b.qcPass
  qcWarnCount := b.qcWarn
  qcFailCount := b.qcFail
  qcPassRate := rate b.qcPass b.qcRuns
  etlRunCount := b.etlRuns
  etlSuccessCount := b.etlSuccess
  etlFailCount := b.etlFail
  etlSuccessRate := rate b.etlSuccess b.etlRuns
  workflowCount := b.wfNames.card
  workflowSuccessCount := b.wfSuccess.card
  workflowFailCount := b.wfFail.card
  workflowSuccessRate := rate b.wfSuccess.card b.wfNames.card
  avgQualityScore := mean b.qualityScores
  mlReadyRows := b.mlRows
  totalInputBytes := b.inputBytes
  totalOutputBytes := b.outputBytes
  p95EtlDurationSec := percentile b.etlDurations (95 / 100)
  p95WorkflowStepDurationSec := percentile b.wfDurations (95 / 100)
  staleHeartbeatCount := 0

@[simp] theorem key_qualityRow (k : DatasetDay) (b : QualityBucket) : (qualityRow k b).key = k :=
    rfl

/-- The rows one build writes. -/
def qualityRows (S : Sources) (w : DateRange) (etl : FactEtlRunTable) (qc : FactQcRuleResultTable)
    (wf : FactWorkflowStepTable) : List DwsDatasetQualityDailyRow :=
  (qualityAgg S w etl qc wf).rows.map (fun e => qualityRow e.1 e.2)

section Bucket

variable (S : Sources) (w : DateRange) (etl : FactEtlRunTable) (qc : FactQcRuleResultTable)
  (wf : FactWorkflowStepTable) (k : DatasetDay)

/-- The counted ETL facts of a key. -/
def etlOf : List FactEtlRunRow := (etlRowsOf w etl).filter (fun r => etlKey r = some k)

/-- The contract results of a key. -/
def qcOf : List FactQcRuleResultRow := (qcRowsOf w qc).filter (fun r => qcKey r = some k)

/-- The workflow steps of a key. -/
def wfOf : List FactWorkflowStepRow := (wfRowsOf w wf).filter (fun r => wfKey r = some k)

/-- The ml-ready datasets of a key. -/
def mlOf : List MlReadyDatasetRow := S.mlReadyDatasets.filter (fun r => mlKey w r = some k)

/-- The scored quality snapshots of a key. -/
def scoresOf : List QualitySnapshotRow := S.qualitySnapshots.filter (fun r => scoreKey w r = some k)

/-- The bucket of a key after the five loops. -/
def qualityBucket : QualityBucket := Groups.getD {} (qualityAgg S w etl qc wf) k

/-- The bucket is the fold over the rows of its key, table after table. -/
theorem qualityBucket_eq :
    qualityBucket S w etl qc wf k =
      (scoresOf S w k).foldl addScore ((mlOf S w k).foldl addMl ((wfOf w wf k).foldl addWf
        ((qcOf w qc k).foldl addQc ((etlOf w etl k).foldl addEtl {})))) := by
  simp only [qualityBucket, qualityAgg, Groups.getD_collect, Groups.getD_empty]
  rfl

/-- The keys that have a row: those of some counted fact, ml-ready dataset or scored snapshot. -/
theorem mem_keys_qualityAgg :
    k ∈ Groups.keys (qualityAgg S w etl qc wf) ↔
      etlOf w etl k ≠ [] ∨ qcOf w qc k ≠ [] ∨ wfOf w wf k ≠ [] ∨ mlOf S w k ≠ [] ∨
        scoresOf S w k ≠ [] := by
  have hempty : k ∉ Groups.keys (KeyedTable.empty : Groups DatasetDay QualityBucket) :=
    List.not_mem_nil
  simp only [qualityAgg, Groups.mem_keys_collect, etlOf, qcOf, wfOf, mlOf, scoresOf,
    filter_key_ne_nil_iff, hempty, or_false]
  -- the last loop stands first
  generalize (∃ r ∈ etlRowsOf w etl, etlKey r = some k) = e
  generalize (∃ r ∈ qcRowsOf w qc, qcKey r = some k) = q
  generalize (∃ r ∈ wfRowsOf w wf, wfKey r = some k) = s
  generalize (∃ r ∈ S.mlReadyDatasets, mlKey w r = some k) = m
  generalize (∃ r ∈ S.qualitySnapshots, scoreKey w r = some k) = c
  tauto

theorem mem_qualityRows {row : DwsDatasetQualityDailyRow} :
    row ∈ qualityRows S w etl qc wf ↔
      ∃ k ∈ Groups.keys (qualityAgg S w etl qc wf), qualityRow k (qualityBucket S w etl qc wf k) =
        row :=
  Groups.mem_map_rows qualityRow {} row

/-- The counters of the first loop survive the other four. -/
theorem etl_frame {β : Type} (f : QualityBucket → β) (hqc : ∀ b r, f (addQc b r) = f b)
    (hwf : ∀ b r, f (addWf b r) = f b) (hml : ∀ b r, f (addMl b r) = f b)
    (hscore : ∀ b r, f (addScore b r) = f b) :
    f (qualityBucket S w etl qc wf k) = f ((etlOf w etl k).foldl addEtl {}) := by
  rw [qualityBucket_eq, foldl_frame f hscore, foldl_frame f hml, foldl_frame f hwf,
    foldl_frame f hqc]

theorem etlRuns_qualityBucket : (qualityBucket S w etl qc wf k).etlRuns =
    (etlOf w etl k).length := by
  rw [etl_frame S w etl qc wf k QualityBucket.etlRuns (fun _ _ => rfl) (fun _ _ => rfl) (fun _ _ =>
    rfl)
    fun _ _ => rfl]
  rw [foldl_count QualityBucket.etlRuns (fun _ => true) (by simp [addEtl])]
  simp

theorem etlSuccess_qualityBucket :
    (qualityBucket S w etl qc wf k).etlSuccess =
      (etlOf w etl k).countP (fun r => isSuccess r.status) := by
  rw [etl_frame S w etl qc wf k QualityBucket.etlSuccess (fun _ _ => rfl) (fun _ _ => rfl)
    (fun _ _ => rfl) fun _ _ => rfl]
  rw [foldl_count QualityBucket.etlSuccess (fun r => isSuccess r.status) (by simp [addEtl])]
  simp

/-- No word is in both lists. -/
theorem isFailure_and_not_isSuccess (status : Option String) :
    (isFailure status && !isSuccess status) = isFailure status := by
  by_cases hf : isFailure status
  · have hs : isSuccess status = false := by
      simp only [isFailure, decide_eq_true_eq, List.mem_cons, List.not_mem_nil, or_false] at hf
      rcases hf with h | h | h <;> simp [isSuccess, h]
    simp [hf, hs]
  · simp [hf]

theorem etlFail_qualityBucket :
    (qualityBucket S w etl qc wf k).etlFail =
      (etlOf w etl k).countP (fun r => isFailure r.status) := by
  rw [etl_frame S w etl qc wf k QualityBucket.etlFail (fun _ _ => rfl) (fun _ _ => rfl)
    (fun _ _ => rfl) fun _ _ => rfl]
  rw [foldl_count QualityBucket.etlFail (fun r => isFailure r.status)
    (by simp [addEtl, isFailure_and_not_isSuccess])]
  simp

end Bucket

/-- `_sqlite_build_dws_dataset_quality_daily`. -/
def sqliteBuildDwsDatasetQualityDaily (S : Sources) (w : DateRange) (etl : FactEtlRunTable)
    (qc : FactQcRuleResultTable) (wf : FactWorkflowStepTable) (t : DwsDatasetQualityDailyTable) :
    DwsDatasetQualityDailyTable :=
  t.upsertAll (qualityRows S w etl qc wf)

/-! ## `dws_rule_failure_daily` -/

/-- The key of a rule row: day, family, contract, rule, severity. -/
abbrev RuleDay := Date × String × String × String × String

/-- One entry of `agg`. -/
structure RuleBucket where
  run : ℕ := 0
  pass : ℕ := 0
  warn : ℕ := 0
  fail : ℕ := 0

/-- The rule results of the window, without the contract summaries. -/
def ruleRowsOf (w : DateRange) (qc : FactQcRuleResultTable) : List FactQcRuleResultRow :=
  qc.rows.filter fun r => w.selects r.dt ∧ r.ruleId.any (fun rule => rule ≠ "contract_status")

/-- The bucket of a rule result. -/
def ruleKey (r : FactQcRuleResultRow) : Option RuleDay :=
  match r.dt, r.ruleId with
  | some dt, some ruleId =>
    some (dt, orUnknown r.datasetFamily, orUnknown r.contractId, ruleId, orUnknown r.severity)
  | _, _ => none

theorem dt_of_ruleKey {r : FactQcRuleResultRow} {k : RuleDay} (h : ruleKey r = some k) :
    r.dt = some k.1 := by
  simp only [ruleKey] at h
  split at h
  · next hdt _ =>
    cases h
    exact hdt
  · cases h

/-- The loop over the rule results. -/
def addRule (b : RuleBucket) (r : FactQcRuleResultRow) : RuleBucket where
  run := b.run + 1
  pass := b.pass + if hasStatus "PASS" r.status then 1 else 0
  warn := b.warn + if hasStatus "WARN" r.status then 1 else 0
  fail := b.fail + if hasStatus "FAIL" r.status then 1 else 0

/-- `agg` after its loop. -/
def ruleAgg (w : DateRange) (qc : FactQcRuleResultTable) : Groups RuleDay RuleBucket :=
  Groups.collect {} ruleKey addRule (ruleRowsOf w qc) KeyedTable.empty

/-- `DwsRuleFailureDailyRow`, without `updated_at`. -/
structure DwsRuleFailureDailyRow where
  dt : Date
  datasetFamily : String
  contractId : String
  ruleId : String
  severity : String
  runCount : ℕ
  passCount : ℕ
  warnCount : ℕ
  failCount : ℕ
  failRate : Option ℚ
  deriving DecidableEq

/-- The primary key of a rule row. -/
def DwsRuleFailureDailyRow.key (r : DwsRuleFailureDailyRow) : RuleDay :=
  (r.dt, r.datasetFamily, r.contractId, r.ruleId, r.severity)

/-- `dws_rule_failure_daily`. -/
abbrev DwsRuleFailureDailyTable :=
  KeyedTable DwsRuleFailureDailyRow RuleDay DwsRuleFailureDailyRow.key

/-- The payload of one bucket. -/
def ruleRow (k : RuleDay) (b : RuleBucket) : DwsRuleFailureDailyRow where
  dt := k.1
  datasetFamily := k.2.1
  contractId := k.2.2.1
  ruleId := k.2.2.2.1
  severity := k.2.2.2.2
  runCount := b.run
  passCount := b.pass
  warnCount := b.warn
  failCount := b.fail
  failRate := rate b.fail b.run

@[simp] theorem key_ruleRow (k : RuleDay) (b : RuleBucket) : (ruleRow k b).key = k := rfl

/-- The rows one build writes. -/
def ruleRows (w : DateRange) (qc : FactQcRuleResultTable) : List DwsRuleFailureDailyRow :=
  (ruleAgg w qc).rows.map (fun e => ruleRow e.1 e.2)

/-- `_sqlite_build_dws_rule_failure_daily`. -/
def sqliteBuildDwsRuleFailureDaily (w : DateRange) (qc : FactQcRuleResultTable)
    (t : DwsRuleFailureDailyTable) : DwsRuleFailureDailyTable :=
  t.upsertAll (ruleRows w qc)

/-! ## `dws_workflow_ops_daily` -/

/-- The key of a workflow row: day, workflow type. -/
abbrev WorkflowDay := Date × String

/-- One entry of `agg`. -/
structure OpsBucket where
  wfNames : Finset String := ∅
  wfSuccess : Finset String := ∅
  wfFailed : Finset String := ∅
  wfRunning : Finset String := ∅
  durations : List ℚ := []
  deadlineExceeded : ℕ := 0
  oom : ℕ := 0
  nonzeroExit : ℕ := 0

/-- The bucket of a step. -/
def opsKey (r : FactWorkflowStepRow) : Option WorkflowDay :=
  r.dt.map fun dt => (dt, orUnknown r.workflowType)

theorem dt_of_opsKey {r : FactWorkflowStepRow} {k : WorkflowDay} (h : opsKey r = some k) :
    r.dt = some k.1 := by
  obtain ⟨dt, hdt, rfl⟩ := Option.map_eq_some_iff.mp h
  exact hdt

/-- The loop over the steps. -/
def addStep (b : OpsBucket) (r : FactWorkflowStepRow) : OpsBucket where
  wfNames := insert (workflowNameOf r) b.wfNames
  wfSuccess := if isSucceeded r.phase then insert (workflowNameOf r) b.wfSuccess else b.wfSuccess
  wfFailed := if isFailed r.phase then insert (workflowNameOf r) b.wfFailed else b.wfFailed
  wfRunning := if isUnderWay r.phase then insert (workflowNameOf r) b.wfRunning else b.wfRunning
  durations := b.durations ++ r.durationSec.toList
  deadlineExceeded :=
    b.deadlineExceeded + if upperOrEmpty r.containerReason = "DEADLINEEXCEEDED" then 1 else 0
  oom := b.oom + if upperOrEmpty r.containerReason = "OOMKILLED" then 1 else 0
  nonzeroExit := b.nonzeroExit + if r.exitCode.getD 0 ≠ 0 then 1 else 0

/-- `agg` after its loop. -/
def opsAgg (w : DateRange) (wf : FactWorkflowStepTable) : Groups WorkflowDay OpsBucket :=
  Groups.collect {} opsKey addStep (wfRowsOf w wf) KeyedTable.empty

/-- `DwsWorkflowOpsDailyRow`, without `updated_at`. -/
structure DwsWorkflowOpsDailyRow where
  dt : Date
  workflowType : String
  workflowCount : ℕ
  successCount : ℕ
  failedCount : ℕ
  runningCount : ℕ
  successRate : Option ℚ
  avgDurationSec : Option ℚ
  p95DurationSec : Option ℚ
  deadlineExceededCount : ℕ
  oomCount : ℕ
  nonzeroExitCount : ℕ
  deriving DecidableEq

/-- The primary key of a workflow row. -/
def DwsWorkflowOpsDailyRow.key (r : DwsWorkflowOpsDailyRow) : WorkflowDay := (r.dt, r.workflowType)

/-- `dws_workflow_ops_daily`. -/
abbrev DwsWorkflowOpsDailyTable :=
  KeyedTable DwsWorkflowOpsDailyRow WorkflowDay DwsWorkflowOpsDailyRow.key

/-- The payload of one bucket. -/
def opsRow (k : WorkflowDay) (b : OpsBucket) : DwsWorkflowOpsDailyRow where
  dt := k.1
  workflowType := k.2
  workflowCount := b.wfNames.card
  successCount := b.wfSuccess.card
  failedCount := b.wfFailed.card
  runningCount := b.wfRunning.card
  successRate := rate b.wfSuccess.card b.wfNames.card
  avgDurationSec := mean b.durations
  p95DurationSec := percentile b.durations (95 / 100)
  deadlineExceededCount := b.deadlineExceeded
  oomCount := b.oom
  nonzeroExitCount := b.nonzeroExit

@[simp] theorem key_opsRow (k : WorkflowDay) (b : OpsBucket) : (opsRow k b).key = k := rfl

/-- The rows one build writes. -/
def opsRows (w : DateRange) (wf : FactWorkflowStepTable) : List DwsWorkflowOpsDailyRow :=
  (opsAgg w wf).rows.map (fun e => opsRow e.1 e.2)

/-- `_sqlite_build_dws_workflow_ops_daily`. -/
def sqliteBuildDwsWorkflowOpsDaily (w : DateRange) (wf : FactWorkflowStepTable)
    (t : DwsWorkflowOpsDailyTable) : DwsWorkflowOpsDailyTable :=
  t.upsertAll (opsRows w wf)

end RobotDataHarness.Warehouse
