import RobotDataHarness.Library.OrderStatistic
import RobotDataHarness.Warehouse.WorkflowClasses

/-!
# Daily rows in closed form

A row of a daily table as a function of the rows of its key, read off the loops of the SQLite path
(`qualityRow_eq`, `ruleRow_eq`, `opsRow_eq`).  But for `dataset_family`, which is the first one
found, and `avg_duration_sec`, a sum of floats in the order of the rows, no column depends on the
order of these rows (`dailyRow_perm`, `pgRuleRow_perm`, `opsDayRow_perm`).
-/

namespace RobotDataHarness.Warehouse

open RobotDataHarness.Inference
open RobotDataHarness.Library

/-! ## Order of the values -/

theorem percentile_perm {values values' : List ℚ} (h : values.Perm values') (q : ℚ) :
    percentile values q = percentile values' q := by
  rw [percentile, percentile, Inference.percentile, Inference.percentile, insertionSort_perm h]

theorem namesWhere_perm {steps steps' : List FactWorkflowStepRow} (h : steps.Perm steps')
    (p : FactWorkflowStepRow → Bool) : namesWhere p steps = namesWhere p steps' := by
  ext name
  simp only [mem_namesWhere, h.mem_iff]

/-! ## `dws_dataset_quality_daily` -/

/-- The daily row of a key, from the rows of the key. -/
def dailyRow (k : DatasetDay) (family : Option String) (etl : List FactEtlRunRow)
    (qc : List FactQcRuleResultRow) (wf : List FactWorkflowStepRow) (ml : List MlReadyDatasetRow)
    (scores : List QualitySnapshotRow) :
    DwsDatasetQualityDailyRow where
  dt := k.1
  datasetId := k.2.1
  version := k.2.2
  datasetFamily := family
  qcRunCount := qc.length
  qcPassCount := qc.countP (fun r => hasStatus "PASS" r.status)
  qcWarnCount := qc.countP (fun r => hasStatus "WARN" r.status)
  qcFailCount := qc.countP (fun r => hasStatus "FAIL" r.status)
  qcPassRate := rate (qc.countP fun r => hasStatus "PASS" r.status) qc.length
  etlRunCount := etl.length
  etlSuccessCount := etl.countP (fun r => isSuccess r.status)
  etlFailCount := etl.countP (fun r => isFailure r.status)
  etlSuccessRate := rate (etl.countP fun r => isSuccess r.status) etl.length
  workflowCount := (namesWhere (fun _ => true) wf).card
  workflowSuccessCount := (namesWhere (fun r => isSucceeded r.phase) wf).card
  workflowFailCount := (namesWhere (fun r => isFailed r.phase) wf).card
  workflowSuccessRate :=
    rate (namesWhere (fun r => isSucceeded r.phase) wf).card (namesWhere (fun _ => true) wf).card
  avgQualityScore := mean (scores.filterMap fun r => r.qualityScore)
  mlReadyRows := ml.foldl (fun n r => max n (mlReadyRows r)) 0
  totalInputBytes := (etl.map fun r => r.inputBytes.getD 0).sum
  totalOutputBytes := (etl.map fun r => r.outputBytes.getD 0).sum
  p95EtlDurationSec := percentile (etl.filterMap fun r => r.durationSec) (95 / 100)
  p95WorkflowStepDurationSec := percentile (wf.filterMap fun r => r.durationSec) (95 / 100)
  staleHeartbeatCount := 0

section Quality

variable (S : Sources) (w : DateRange) (etl : FactEtlRunTable) (qc : FactQcRuleResultTable)
  (wf : FactWorkflowStepTable) (k : DatasetDay)

theorem foldl_addEtl_frame {β : Type} (f : QualityBucket → β) (h : ∀ b r, f (addEtl b r) = f b)
    (rows : List FactEtlRunRow) (b : QualityBucket) : f (rows.foldl addEtl b) = f b :=
      foldl_frame f h

theorem foldl_addQc_frame {β : Type} (f : QualityBucket → β) (h : ∀ b r, f (addQc b r) = f b)
    (rows : List FactQcRuleResultRow) (b : QualityBucket) : f (rows.foldl addQc b) = f b :=
      foldl_frame f h

theorem foldl_addWf_frame {β : Type} (f : QualityBucket → β) (h : ∀ b r, f (addWf b r) = f b)
    (rows : List FactWorkflowStepRow) (b : QualityBucket) : f (rows.foldl addWf b) = f b :=
      foldl_frame f h

theorem foldl_addMl_frame {β : Type} (f : QualityBucket → β) (h : ∀ b r, f (addMl b r) = f b)
    (rows : List MlReadyDatasetRow) (b : QualityBucket) : f (rows.foldl addMl b) = f b :=
      foldl_frame f h

theorem foldl_addScore_frame {β : Type} (f : QualityBucket → β) (h : ∀ b r, f (addScore b r) = f b)
    (rows : List QualitySnapshotRow) (b : QualityBucket) : f (rows.foldl addScore b) = f b :=
      foldl_frame f h

/-- The counters of the second loop. -/
theorem qc_frame {β : Type} (f : QualityBucket → β) (hwf : ∀ b r, f (addWf b r) = f b)
    (hml : ∀ b r, f (addMl b r) = f b) (hscore : ∀ b r, f (addScore b r) = f b) :
    f (qualityBucket S w etl qc wf k) =
      f ((qcOf w qc k).foldl addQc ((etlOf w etl k).foldl addEtl {})) := by
  rw [qualityBucket_eq, foldl_addScore_frame f hscore, foldl_addMl_frame f hml,
    foldl_addWf_frame f hwf]

/-- A counter of some of the contract results. -/
theorem qcCount_qualityBucket (f : QualityBucket → ℕ) (p : FactQcRuleResultRow → Bool)
    (h : ∀ b r, f (addQc b r) = f b + if p r then 1 else 0) (hetl : ∀ b r, f (addEtl b r) = f b)
    (hwf : ∀ b r, f (addWf b r) = f b) (hml : ∀ b r, f (addMl b r) = f b)
    (hscore : ∀ b r, f (addScore b r) = f b)
    (hinit : f {} = 0) : f (qualityBucket S w etl qc wf k) = (qcOf w qc k).countP p := by
  rw [qc_frame S w etl qc wf k f hwf hml hscore, foldl_count f p h, foldl_addEtl_frame f hetl,
    hinit, Nat.zero_add]

theorem qcRuns_qualityBucket : (qualityBucket S w etl qc wf k).qcRuns = (qcOf w qc k).length := by
  rw [qcCount_qualityBucket S w etl qc wf k QualityBucket.qcRuns (fun _ => true) (by simp [addQc])
    (fun _ _ => rfl) (fun _ _ => rfl) (fun _ _ => rfl) (fun _ _ => rfl) rfl]
  rw [List.countP_true]

/-- A set of names the loop over the steps collects. -/
theorem names_qualityBucket (f : QualityBucket → Finset String) (p : FactWorkflowStepRow → Bool)
    (h : ∀ b r, f (addWf b r) = if p r then insert (workflowNameOf r) (f b) else f b)
    (hetl : ∀ b r, f (addEtl b r) = f b) (hqc : ∀ b r, f (addQc b r) = f b)
    (hml : ∀ b r, f (addMl b r) = f b) (hscore : ∀ b r, f (addScore b r) = f b) (hinit : f {} = ∅) :
    f (qualityBucket S w etl qc wf k) = namesWhere p (wfOf w wf k) := by
  rw [qualityBucket_eq, foldl_addScore_frame f hscore, foldl_addMl_frame f hml]
  refine foldl_names f p ?_ h _
  -- the loops before the one over the steps have left the set empty
  rw [foldl_addQc_frame f hqc, foldl_addEtl_frame f hetl, hinit]

theorem wfDurations_qualityBucket :
    (qualityBucket S w etl qc wf k).wfDurations =
      (wfOf w wf k).filterMap (fun r => r.durationSec) := by
  rw [qualityBucket_eq, foldl_addScore_frame QualityBucket.wfDurations fun _ _ => rfl,
    foldl_addMl_frame QualityBucket.wfDurations fun _ _ => rfl,
    foldl_concat QualityBucket.wfDurations (fun r => r.durationSec) fun _ _ => rfl,
    foldl_addQc_frame QualityBucket.wfDurations fun _ _ => rfl,
    foldl_addEtl_frame QualityBucket.wfDurations fun _ _ => rfl]
  exact List.nil_append _

theorem mlRows_qualityBucket :
    (qualityBucket S w etl qc wf k).mlRows =
      (mlOf S w k).foldl (fun n r => max n (mlReadyRows r)) 0 := by
  have hhom : ∀ (rows : List MlReadyDatasetRow) (b : QualityBucket),
      (rows.foldl addMl b).mlRows = rows.foldl (fun n r => max n (mlReadyRows r)) b.mlRows :=
    fun rows b => (List.foldl_hom QualityBucket.mlRows fun _ _ => rfl).symm
  rw [qualityBucket_eq, foldl_addScore_frame QualityBucket.mlRows fun _ _ => rfl, hhom,
    foldl_addWf_frame QualityBucket.mlRows fun _ _ => rfl,
    foldl_addQc_frame QualityBucket.mlRows fun _ _ => rfl,
      foldl_addEtl_frame QualityBucket.mlRows fun _ _ => rfl]

theorem qualityScores_qualityBucket :
    (qualityBucket S w etl qc wf k).qualityScores =
      (scoresOf S w k).filterMap (fun r => r.qualityScore) := by
  rw [qualityBucket_eq, foldl_concat QualityBucket.qualityScores (fun r => r.qualityScore)
    fun _ _ => rfl, foldl_addMl_frame QualityBucket.qualityScores fun _ _ => rfl,
    foldl_addWf_frame QualityBucket.qualityScores fun _ _ => rfl,
    foldl_addQc_frame QualityBucket.qualityScores fun _ _ => rfl,
    foldl_addEtl_frame QualityBucket.qualityScores fun _ _ => rfl]
  exact List.nil_append _

/-- The bytes of the ETL facts. -/
theorem bytes_qualityBucket (f : QualityBucket → ℤ) (g : FactEtlRunRow → ℤ)
    (h : ∀ b r, f (addEtl b r) = f b + g r) (hqc : ∀ b r, f (addQc b r) = f b)
    (hwf : ∀ b r, f (addWf b r) = f b) (hml : ∀ b r, f (addMl b r) = f b)
    (hscore : ∀ b r, f (addScore b r) = f b) (hinit : f {} = 0) :
    f (qualityBucket S w etl qc wf k) = ((etlOf w etl k).map g).sum := by
  rw [etl_frame S w etl qc wf k f hqc hwf hml hscore, foldl_add f g h, hinit, zero_add]

theorem etlDurations_qualityBucket :
    (qualityBucket S w etl qc wf k).etlDurations =
      (etlOf w etl k).filterMap (fun r => r.durationSec) := by
  rw [etl_frame S w etl qc wf k QualityBucket.etlDurations (fun _ _ => rfl) (fun _ _ => rfl)
    (fun _ _ => rfl)
    fun _ _ => rfl, foldl_concat QualityBucket.etlDurations (fun r => r.durationSec) fun _ _ => rfl]
  exact List.nil_append _

/-- The row of a bucket. -/
theorem qualityRow_eq :
    qualityRow k (qualityBucket S w etl qc wf k) =
      dailyRow k (qualityBucket S w etl qc wf k).datasetFamily (etlOf w etl k) (qcOf w qc k)
        (wfOf w wf k) (mlOf S w k) (scoresOf S w k) := by
  -- each column of the bucket is filled by one of the five loops
  have hpass := qcCount_qualityBucket S w etl qc wf k QualityBucket.qcPass
    (fun r => hasStatus "PASS" r.status) (fun _ _ => rfl) (fun _ _ => rfl) (fun _ _ => rfl)
      (fun _ _ => rfl)
    (fun _ _ => rfl) rfl
  have hwarn := qcCount_qualityBucket S w etl qc wf k QualityBucket.qcWarn
    (fun r => hasStatus "WARN" r.status) (fun _ _ => rfl) (fun _ _ => rfl) (fun _ _ => rfl)
      (fun _ _ => rfl)
    (fun _ _ => rfl) rfl
  have hfail := qcCount_qualityBucket S w etl qc wf k QualityBucket.qcFail
    (fun r => hasStatus "FAIL" r.status) (fun _ _ => rfl) (fun _ _ => rfl) (fun _ _ => rfl)
      (fun _ _ => rfl)
    (fun _ _ => rfl) rfl
  have hnames :=
    names_qualityBucket S w etl qc wf k QualityBucket.wfNames (fun _ => true) (fun _ _ => rfl)
    (fun _ _ => rfl) (fun _ _ => rfl) (fun _ _ => rfl) (fun _ _ => rfl) rfl
  have hwfFail :=
    names_qualityBucket S w etl qc wf k QualityBucket.wfFail (fun r => isFailed r.phase)
    (fun _ _ => rfl) (fun _ _ => rfl) (fun _ _ => rfl) (fun _ _ => rfl) (fun _ _ => rfl) rfl
  have hin :=
    bytes_qualityBucket S w etl qc wf k QualityBucket.inputBytes (fun r => r.inputBytes.getD 0)
    (fun _ _ => rfl) (fun _ _ => rfl) (fun _ _ => rfl) (fun _ _ => rfl) (fun _ _ => rfl) rfl
  have hout :=
    bytes_qualityBucket S w etl qc wf k QualityBucket.outputBytes (fun r => r.outputBytes.getD 0)
    (fun _ _ => rfl) (fun _ _ => rfl) (fun _ _ => rfl) (fun _ _ => rfl) (fun _ _ => rfl) rfl
  rw [qualityRow, dailyRow, qcRuns_qualityBucket, hpass, hwarn, hfail, etlRuns_qualityBucket,
    etlSuccess_qualityBucket,
    etlFail_qualityBucket, hnames, wfSuccess_qualityBucket, hwfFail, qualityScores_qualityBucket,
      mlRows_qualityBucket,
    hin, hout, etlDurations_qualityBucket, wfDurations_qualityBucket]

end Quality

/-- The order of the facts does not matter. -/
theorem dailyRow_perm (k : DatasetDay) (family : Option String) {etl etl' : List FactEtlRunRow}
    {qc qc' : List FactQcRuleResultRow} {wf wf' : List FactWorkflowStepRow} (hetl : etl.Perm etl')
    (hqc : qc.Perm qc') (hwf : wf.Perm wf') (ml : List MlReadyDatasetRow)
    (scores : List QualitySnapshotRow) :
    dailyRow k family etl qc wf ml scores = dailyRow k family etl' qc' wf' ml scores := by
  rw [dailyRow, dailyRow, hqc.length_eq, hqc.countP_eq, hqc.countP_eq, hqc.countP_eq,
    hetl.length_eq, hetl.countP_eq,
    hetl.countP_eq, namesWhere_perm hwf, namesWhere_perm hwf, namesWhere_perm hwf,
      (hetl.map _).sum_eq,
    (hetl.map _).sum_eq, percentile_perm (hetl.filterMap _), percentile_perm (hwf.filterMap _)]

/-! ## `dws_rule_failure_daily` -/

section Rules

variable (w : DateRange) (qc : FactQcRuleResultTable) (k : RuleDay)

/-- The rule results of a key. -/
def rulesOf : List FactQcRuleResultRow := (ruleRowsOf w qc).filter (fun r => ruleKey r = some k)

/-- The bucket of a key after the loop. -/
def ruleBucket : RuleBucket := Groups.getD {} (ruleAgg w qc) k

theorem ruleBucket_eq : ruleBucket w qc k = (rulesOf w qc k).foldl addRule {} := by
  rw [ruleBucket, ruleAgg, Groups.getD_collect_empty, rulesOf]

theorem mem_keys_ruleAgg : k ∈ Groups.keys (ruleAgg w qc) ↔ rulesOf w qc k ≠ [] := by
  rw [ruleAgg, Groups.mem_keys_collect_empty, rulesOf]

theorem mem_ruleRows {row : DwsRuleFailureDailyRow} :
    row ∈ ruleRows w qc ↔ ∃ k ∈ Groups.keys (ruleAgg w qc), ruleRow k (ruleBucket w qc k) = row :=
  Groups.mem_map_rows ruleRow {} row

/-- The row of a bucket: the SQL statement writes the same one for these rule results. -/
theorem ruleRow_eq : ruleRow k (ruleBucket w qc k) = pgRuleRow k (rulesOf w qc k) := by
  have hcount : ∀ (f : RuleBucket → ℕ) (p : FactQcRuleResultRow → Bool),
      (∀ b r, f (addRule b r) = f b + if p r then 1 else 0) → f {} = 0 →
        f (ruleBucket w qc k) = (rulesOf w qc k).countP p := by
    intro f p h hinit
    rw [ruleBucket_eq, foldl_count f p h, hinit, Nat.zero_add]
  have hrun : (ruleBucket w qc k).run = (rulesOf w qc k).length := by
    rw [hcount RuleBucket.run (fun _ => true) (by simp [addRule]) rfl, List.countP_true]
  rw [ruleRow, pgRuleRow, hrun, hcount RuleBucket.pass (fun r => hasStatus "PASS" r.status)
    (fun _ _ => rfl) rfl,
    hcount RuleBucket.warn (fun r => hasStatus "WARN" r.status) (fun _ _ => rfl) rfl,
    hcount RuleBucket.fail (fun r => hasStatus "FAIL" r.status) (fun _ _ => rfl) rfl]

end Rules

theorem pgRuleRow_perm (k : RuleDay) {g g' : List FactQcRuleResultRow} (h : g.Perm g') :
    pgRuleRow k g = pgRuleRow k g' := by
  rw [pgRuleRow, pgRuleRow, h.length_eq, h.countP_eq, h.countP_eq, h.countP_eq]

/-! ## `dws_workflow_ops_daily` -/

/-- The daily row of a key, from the steps of the key. -/
def opsDayRow (k : WorkflowDay) (steps : List FactWorkflowStepRow) : DwsWorkflowOpsDailyRow where
  dt := k.1
  workflowType := k.2
  workflowCount := (namesWhere (fun _ => true) steps).card
  successCount := (namesWhere (fun r => isSucceeded r.phase) steps).card
  failedCount := (namesWhere (fun r => isFailed r.phase) steps).card
  runningCount := (namesWhere (fun r => isUnderWay r.phase) steps).card
  successRate :=
    rate (namesWhere (fun r => isSucceeded r.phase) steps).card
    (namesWhere (fun _ => true) steps).card
  avgDurationSec := mean (steps.filterMap fun r => r.durationSec)
  p95DurationSec := percentile (steps.filterMap fun r => r.durationSec) (95 / 100)
  deadlineExceededCount :=
    steps.countP (fun r => upperOrEmpty r.containerReason = "DEADLINEEXCEEDED")
  oomCount := steps.countP (fun r => upperOrEmpty r.containerReason = "OOMKILLED")
  nonzeroExitCount := steps.countP (fun r => r.exitCode.getD 0 ≠ 0)

theorem opsRow_eq (w : DateRange) (wf : FactWorkflowStepTable) (k : WorkflowDay) :
    opsRow k (opsBucket w wf k) = opsDayRow k (stepsOf w wf k) := by
  obtain ⟨hnames, hsuccess, hfailed, hrunning⟩ := names_opsBucket w wf k
  have hdurations :
      (opsBucket w wf k).durations = (stepsOf w wf k).filterMap (fun r => r.durationSec) := by
    rw [opsBucket_eq, foldl_concat OpsBucket.durations (fun r => r.durationSec) fun _ _ => rfl]
    exact List.nil_append _
  have hcount : ∀ (f : OpsBucket → ℕ) (p : FactWorkflowStepRow → Bool),
      (∀ b r, f (addStep b r) = f b + if p r then 1 else 0) → f {} = 0 →
        f (opsBucket w wf k) = (stepsOf w wf k).countP p := by
    intro f p h hinit
    rw [opsBucket_eq, foldl_count f p h, hinit, Nat.zero_add]
  rw [opsRow, opsDayRow, hnames, hsuccess, hfailed, hrunning, hdurations,
    hcount OpsBucket.deadlineExceeded (fun r => upperOrEmpty r.containerReason = "DEADLINEEXCEEDED")
      (by simp [addStep]) rfl,
    hcount OpsBucket.oom (fun r => upperOrEmpty r.containerReason = "OOMKILLED")
      (by simp [addStep]) rfl,
    hcount OpsBucket.nonzeroExit (fun r => r.exitCode.getD 0 ≠ 0) (by simp [addStep]) rfl]

/-- The row without `avg_duration_sec`. -/
def DwsWorkflowOpsDailyRow.sansAverage (r : DwsWorkflowOpsDailyRow) : DwsWorkflowOpsDailyRow :=
  { r with avgDurationSec := none }

@[simp] theorem DwsWorkflowOpsDailyRow.key_sansAverage (r : DwsWorkflowOpsDailyRow) :
    r.sansAverage.key = r.key := rfl

theorem opsDayRow_perm (k : WorkflowDay) {steps steps' : List FactWorkflowStepRow}
    (h : steps.Perm steps') :
    (opsDayRow k steps).sansAverage = (opsDayRow k steps').sansAverage := by
  simp only [opsDayRow, DwsWorkflowOpsDailyRow.sansAverage, namesWhere_perm h,
    percentile_perm (h.filterMap _), h.countP_eq]

end RobotDataHarness.Warehouse
