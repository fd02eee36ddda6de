import RobotDataHarness.Warehouse.Daily

/-!
# The dashboards

The ADS tables `ads_quality_dashboard` and `ads_workflow_ops_dashboard` and their builders on
the SQLite path: `_sqlite_build_ads_quality_dashboard` and
`_sqlite_build_ads_workflow_ops_dashboard`.
-/

namespace RobotDataHarness.Warehouse

open RobotDataHarness.Library

/-- `overall_status`. -/
inductive OverallStatus where
  | pass
  | warn
  | fail
  deriving DecidableEq, Repr

/-- `alert_level`. -/
inductive AlertLevel where
  | ok
  | warn
  | critical
  deriving DecidableEq, Repr

/-! ## `ads_quality_dashboard` -/

/-- `overall`, from the QC rate and the ETL rate, a missing one counted as 1. -/
def qualityOverall (qcRate etlRate : ℚ) : OverallStatus :=
  if qcRate < 8 / 10 ∨ etlRate < 8 / 10 then .fail else if qcRate < 95 / 100 then .warn else .pass

/-- `alert`. -/
def qualityAlert (qcRate etlRate : ℚ) : AlertLevel :=
  if qcRate < 8 / 10 ∨ etlRate < 8 / 10 then .critical else if qcRate < 95 / 100 then .warn else .ok

/-- `reason`. -/
def qualityReason (qcRate etlRate : ℚ) : Option String :=
  if qcRate < 8 / 10 then some "qc_pass_rate<0.8"
  else if etlRate < 8 / 10 then some "etl_success_rate<0.8"
  else if qcRate < 95 / 100 then some "qc_pass_rate<0.95"
  else none

/-- `quality_score`. -/
def qualityScore (qcRate etlRate wfRate : ℚ) : ℚ :=
  100 * qcRate * (5 / 10) + 100 * etlRate * (3 / 10) + 100 * wfRate * (2 / 10)

/-- The alert is of the grade of the status. -/
theorem qualityAlert_eq_critical_iff (qcRate etlRate : ℚ) :
    qualityAlert qcRate etlRate = .critical ↔ qualityOverall qcRate etlRate = .fail := by
  simp only [qualityAlert, qualityOverall]
  split
  · simp
  · split <;> simp

theorem qualityOverall_eq_fail_iff (qcRate etlRate : ℚ) :
    qualityOverall qcRate etlRate = .fail ↔ qcRate < 8 / 10 ∨ etlRate < 8 / 10 := by
  simp only [qualityOverall]
  split
  · simpa using ‹_›
  · next h => split <;> simpa using h

/-- `AdsQualityDashboardRow`, without `updated_at`. -/
structure AdsQualityDashboardRow where
  dt : Date
  datasetId : String
  version : String
  datasetFamily : Option String
  overallStatus : OverallStatus
  qualityScore : ℚ
  qcPassRate : Option ℚ
  etlSuccessRate : Option ℚ
  workflowSuccessRate : Option ℚ
  topFailedRule : Option String
  topFailedRuleCount : Option ℕ
  p95DurationSec : Option ℚ
  mlReadyRows : ℤ
  rawBytes : Option ℤ
  dwdBytes : Option ℤ
  alertLevel : AlertLevel
  alertReason : Option String
  deriving DecidableEq

/-- The primary key of a dashboard row. -/
def AdsQualityDashboardRow.key (r : AdsQualityDashboardRow) : DatasetDay :=
  (r.dt, r.datasetId, r.version)

/-- `ads_quality_dashboard`. -/
abbrev AdsQualityDashboardTable :=
  KeyedTable AdsQualityDashboardRow DatasetDay AdsQualityDashboardRow.key

/-- `rule_failures`: the rules of the window that failed. -/
def failedRulesOf (w : DateRange) (rules : DwsRuleFailureDailyTable) :
    List DwsRuleFailureDailyRow :=
  rules.rows.filter (fun rf => w.Covers rf.dt ∧ rf.failCount > 0)

/-- The more frequent of two failed rules, the earlier one when they are equally frequent. -/
def keepTop (cur : Option DwsRuleFailureDailyRow) (rf : DwsRuleFailureDailyRow) :
    Option DwsRuleFailureDailyRow :=
  match cur with
  | none => some rf
  | some top => if rf.failCount > top.failCount then some rf else some top

/-- `top_rule_by_key`. -/
def topRuleByKey (w : DateRange) (rules : DwsRuleFailureDailyTable) :
    Groups (Date × Option String) (Option DwsRuleFailureDailyRow) :=
  Groups.collect none (fun rf => some (rf.dt, some rf.datasetFamily)) keepTop
    (failedRulesOf w rules) KeyedTable.empty

/-- The asset profiles of the window. -/
def assetRowsOf (w : DateRange) (assets : FactAssetProfileTable) : List FactAssetProfileRow :=
  assets.rows.filter (fun fa => w.selects fa.dt)

/-- `raw_bytes_agg` or `dwd_bytes_agg`: the bytes of the profiles in the given layers.  An entry
with a missing part of its key is never looked up. -/
def bytesAgg (layers : List String) (w : DateRange) (assets : FactAssetProfileTable) :
    Groups DatasetDay ℤ :=
  Groups.collect 0
    (fun fa => if lower (fa.layer.getD "") ∈ layers then datasetDay fa.dt fa.datasetId fa.version
      else none)
    (fun n fa => n + fa.bytes.getD 0) (assetRowsOf w assets) KeyedTable.empty

/-- The payload of one daily row. -/
def adsQualityRow (topRule : Option DwsRuleFailureDailyRow) (rawBytes dwdBytes : Option ℤ)
    (d : DwsDatasetQualityDailyRow) : AdsQualityDashboardRow :=
  let qcRate := d.qcPassRate.getD 1
  let etlRate := d.etlSuccessRate.getD 1
  let wfRate := d.workflowSuccessRate.getD 1
  { dt := d.dt
    datasetId := d.datasetId
    version := d.version
    datasetFamily := d.datasetFamily
    overallStatus := qualityOverall qcRate etlRate
    qualityScore := qualityScore qcRate etlRate wfRate
    qcPassRate := d.qcPassRate
    etlSuccessRate := d.etlSuccessRate
    workflowSuccessRate := d.workflowSuccessRate
    topFailedRule := topRule.map (fun rf => rf.ruleId)
    topFailedRuleCount := topRule.map (fun rf => rf.failCount)
    p95DurationSec := d.p95WorkflowStepDurationSec
    mlReadyRows := d.mlReadyRows
    rawBytes := rawBytes
    dwdBytes := dwdBytes
    alertLevel := qualityAlert qcRate etlRate
    alertReason := qualityReason qcRate etlRate }

/-- The rows one build writes. -/
def adsQualityRows (w : DateRange) (dws : DwsDatasetQualityDailyTable)
    (rules : DwsRuleFailureDailyTable)
    (assets : FactAssetProfileTable) : List AdsQualityDashboardRow :=
  (dws.rows.filter (fun d => w.Covers d.dt)).map fun d =>
    adsQualityRow (Groups.getD none (topRuleByKey w rules) (d.dt, d.datasetFamily))
      (((bytesAgg ["raw", "ods"] w assets).get? d.key).map Prod.snd)
      (((bytesAgg ["dwd"] w assets).get? d.key).map Prod.snd) d

/-- `_sqlite_build_ads_quality_dashboard`. -/
def sqliteBuildAdsQualityDashboard (w : DateRange) (dws : DwsDatasetQualityDailyTable)
    (rules : DwsRuleFailureDailyTable) (assets : FactAssetProfileTable)
    (t : AdsQualityDashboardTable) :
    AdsQualityDashboardTable :=
  t.upsertAll (adsQualityRows w dws rules assets)

/-! ## `ads_workflow_ops_dashboard` -/

/-- `AdsWorkflowOpsDashboardRow`, without `updated_at`. -/
structure AdsWorkflowOpsDashboardRow where
  dt : Date
  workflowType : String
  workflowCount : ℕ
  successCount : ℕ
  failedCount : ℕ
  successRate : Option ℚ
  avgDurationSec : Option ℚ
  p95DurationSec : Option ℚ
  staleHeartbeatCount : ℕ
  oomCount : ℕ
  deadlineExceededCount : ℕ
  alertLevel : AlertLevel
  alertReason : Option String
  deriving DecidableEq

/-- The primary key of a dashboard row. -/
def AdsWorkflowOpsDashboardRow.key (r : AdsWorkflowOpsDashboardRow) : WorkflowDay :=
  (r.dt, r.workflowType)

/-- `ads_workflow_ops_dashboard`. -/
abbrev AdsWorkflowOpsDashboardTable :=
  KeyedTable AdsWorkflowOpsDashboardRow WorkflowDay AdsWorkflowOpsDashboardRow.key

/-- `alert, reason`. -/
def opsAlert (sr : ℚ) (oom deadlineExceeded : ℕ) : AlertLevel × Option String :=
  if sr < 8 / 10 ∨ oom > 0 ∨ deadlineExceeded > 0 then
    (.critical, some (if sr < 8 / 10 then "success_rate<0.8"
      else if oom > 0 then "oom_kill" else "deadline_exceeded"))
  else if sr < 95 / 100 then (.warn, some "success_rate<0.95")
  else (.ok, none)

/-- The payload of one daily row. -/
def adsWorkflowRow (d : DwsWorkflowOpsDailyRow) : AdsWorkflowOpsDashboardRow :=
  let alert := opsAlert (d.successRate.getD 1) d.oomCount d.deadlineExceededCount
  { dt := d.dt
    workflowType := d.workflowType
    workflowCount := d.workflowCount
    successCount := d.successCount
    failedCount := d.failedCount
    successRate := d.successRate
    avgDurationSec := d.avgDurationSec
    p95DurationSec := d.p95DurationSec
    staleHeartbeatCount := 0
    oomCount := d.oomCount
    deadlineExceededCount := d.deadlineExceededCount
    alertLevel := alert.1
    alertReason := alert.2 }

/-- The rows one build writes. -/
def adsWorkflowRows (w : DateRange) (dws : DwsWorkflowOpsDailyTable) :
    List AdsWorkflowOpsDashboardRow :=
  (dws.rows.filter (fun d => w.Covers d.dt)).map adsWorkflowRow

/-- `_sqlite_build_ads_workflow_ops_dashboard`. -/
def sqliteBuildAdsWorkflowOpsDashboard (w : DateRange) (dws : DwsWorkflowOpsDailyTable)
    (t : AdsWorkflowOpsDashboardTable) : AdsWorkflowOpsDashboardTable :=
  t.upsertAll (adsWorkflowRows w dws)

end RobotDataHarness.Warehouse
